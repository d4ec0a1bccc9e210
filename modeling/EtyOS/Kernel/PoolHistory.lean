import EtyOS.Allocator.Coalescing
import EtyOS.Kernel.Conduct
import EtyOS.Kernel.History

/-!
# The pool in a history

`format_ext4` is the only kernel function that allocates. It clears the header behind its
buffer when it comes as far as the superblock, and from then on the pool is these 512
bytes. So the formatter itself is always served, while every larger request is lost with
the first volume of ext4 and never served again.
-/

namespace EtyOS

open Library FreeList Main

/-! ### The two states of the pool -/

section States

variable {base : PoolBase} {m : Memory}

theorem PoolFresh.succeeds_iff (h : PoolFresh base m) (n : UInt64) :
    Succeeds base m n ↔ n.toNat ≤ memoryPoolSize - 24 := by
  have hblocks : PoolBlocks base m _ _ := ⟨h, laid_fresh, List.Perm.refl _⟩
  rw [hblocks.succeeds_iff]
  simp [Serves]

theorem PoolDamaged.succeeds_iff (h : PoolDamaged base m) (n : UInt64) :
    Succeeds base m n ↔ n.toNat ≤ 512 := by
  have hblocks : PoolBlocks base m _ _ := ⟨h, laid_buffer (Or.inr rfl), List.Perm.refl _⟩
  rw [hblocks.succeeds_iff]
  simp [Serves]

end States

/-- The pool is left alone. -/
def Machine.KeepsPool (s s' : Machine) : Prop :=
  s'.memory = s.memory ∧ s'.poolBase = s.poolBase

instance : IsPreorder Machine Machine.KeepsPool where
  refl _ := ⟨rfl, rfl⟩
  trans _ _ _ h h' := ⟨h'.1.trans h.1, h'.2.trans h.2⟩

theorem keepsPool_driver {α : Type} (prog : ℕ → PortProgram α) :
    Relates Machine.KeepsPool (driver prog) := by
  intro s a s' hrun
  obtain ⟨r, -, hr⟩ := Option.map_eq_some_iff.mp hrun
  obtain ⟨-, rfl⟩ := Prod.mk.inj hr
  exact ⟨rfl, rfl⟩

theorem keepsPool_closed : Machine.Closed Machine.KeepsPool where
  quiet _ _ _ hmemory hbase := ⟨hmemory, hbase⟩
  readSector _ _ _ _ _ := keepsPool_driver _
  writeSector _ _ _ _ _ := keepsPool_driver _
  identifyDrive _ _ := keepsPool_driver _

/-- A ready pool is ready again, and one that is damaged stays so. -/
def Machine.WearsPool (s s' : Machine) : Prop :=
  s.Ready → s'.poolBase = s.poolBase ∧ s'.Ready ∧
    (PoolDamaged s.poolBase s.memory → PoolDamaged s.poolBase s'.memory)

instance : IsPreorder Machine Machine.WearsPool where
  refl _ := fun hs => ⟨rfl, hs, id⟩
  trans s s₁ s₂ h h' := fun hs => by
    obtain ⟨hbase, hready, hdamaged⟩ := h hs
    obtain ⟨hbase', hready', hdamaged'⟩ := h' hready
    rw [hbase] at hdamaged'
    exact ⟨hbase'.trans hbase, hready', fun hd => hdamaged' (hdamaged hd)⟩

theorem Machine.KeepsPool.wears {s s' : Machine} (h : s.KeepsPool s') : s.WearsPool s' := by
  intro hs
  rw [Machine.Ready, h.1, h.2]
  exact ⟨rfl, hs, id⟩

/-- `format_ext4` gives its buffer back in every case, and mends nothing. -/
theorem wearsPool_formatExt4 (c d : Fin 2) (startLba n : UInt32) :
    Relates Machine.WearsPool (formatExt4 c d startLba n) := by
  intro s rc s' hrun hs
  by_cases hsize : n < 8192
  · obtain ⟨calls, hsmall⟩ := run_formatExt4_small c d startLba n (s := s) hsize
    obtain ⟨-, rfl⟩ := Prod.mk.inj (Option.some.inj (hsmall.symm.trans hrun))
    exact ⟨rfl, hs, id⟩
  obtain ⟨m, t, halloc, hbusy, htail⟩ := PoolReady.allocate hs
  have ht : t = freshTail s.poolBase ∨ t = clearedTail s.poolBase := htail.imp And.right And.right
  obtain ⟨calls, hlarge⟩ := run_formatExt4_large c d startLba n hsize halloc
  rw [hlarge] at hrun
  cases habort : s.bus.next.abort with
  | true =>
    obtain ⟨s₁, hrun₁, -, hconfig, -, hafter⟩ := run_formatInBuffer_abort c d startLba n
      (s := (s.print calls).setMemory m) hbusy ht habort
    obtain ⟨-, rfl⟩ := Prod.mk.inj (Option.some.inj (hrun₁.symm.trans hrun))
    have hbase : s₁.poolBase = s.poolBase := Machine.poolBase_eq_of_config hconfig
    refine ⟨hbase, ?_, fun hdamaged => ?_⟩
    · rw [Machine.Ready, hbase]
      exact hafter.ready ht
    · rcases htail with ⟨hfresh, -⟩ | ⟨-, hcleared⟩
      · exact absurd hdamaged hfresh.not_damaged
      · exact hafter.2 hcleared
  | false =>
    obtain ⟨rc₁, s₁, l, hrun₁, -, -, hconfig, -, hpool⟩ := run_formatInBuffer c d startLba n
      (s := (s.print calls).setMemory m) hbusy ht habort hsize
    obtain ⟨-, rfl⟩ := Prod.mk.inj (Option.some.inj (hrun₁.symm.trans hrun))
    have hbase : s₁.poolBase = s.poolBase := Machine.poolBase_eq_of_config hconfig
    refine ⟨hbase, ?_, fun _ => hpool⟩
    rw [Machine.Ready, hbase]
    exact Or.inr hpool

theorem wearsPool_closed : Machine.Closed Machine.WearsPool where
  quiet _ _ _ hmemory hbase := Machine.KeepsPool.wears ⟨hmemory, hbase⟩
  readSector _ _ _ _ _ := (keepsPool_driver _).mono fun _ _ h => h.wears
  writeSector _ _ _ _ _ := (keepsPool_driver _).mono fun _ _ h => h.wears
  identifyDrive _ _ := (keepsPool_driver _).mono fun _ _ h => h.wears

/-! ### Histories -/

section Histories

variable {frame : MainState → LocalArray} {m : Machine} {lines later : List CString}
  {t t' : MainState}

/-- `allocate(n)` would return a pointer now. -/
def MainState.Serves (t : MainState) (n : UInt64) : Prop :=
  Succeeds t.machine.poolBase t.machine.memory n

theorem Reached.wearsPool (hrun : Run (turn frame) (fun _ _ => True) t later t') :
    t.machine.WearsPool t'.machine := by
  refine Run.invariant (I := fun t' => t.machine.WearsPool t'.machine)
    (fun t₁ t₂ line _ h₁ _ hturn => ?_) (refl_of _ _) hrun
  exact trans_of Machine.WearsPool h₁
    (wearsPool_closed.turn hturn fun _ _ _ _ => wearsPool_formatExt4)

/-- The disk tool damages the pool, by a line that makes a volume of ext4. -/
theorem Reached.exists_damaging (h : Reached frame m lines t)
    (hrun : Run (turn frame) (fun _ _ => True) t later t')
    (hfresh : PoolFresh t.machine.poolBase t.machine.memory)
    (hdamaged : ¬PoolFresh t'.machine.poolBase t'.machine.memory) :
    ∃ line t₁ k, ReadsIn frame m lines later line t₁ ∧ t₁.inDisktool = true ∧
      line.command = some k ∧ k.CallsExt4 := by
  obtain ⟨before, line, rest, t₁, t₂, ⟨⟩, hlater, hbefore, -, hturn, -, hkept, hbroken⟩ :=
    hrun.exists_breaking (P := fun t => PoolFresh t.machine.poolBase t.machine.memory)
      hfresh hdamaged
  by_contra hnone
  have hkeeps : t₁.machine.KeepsPool t₂.machine :=
    keepsPool_closed.turn hturn fun hreader k hcommand hext4 =>
      absurd ⟨line, t₁, k, ⟨before, rest, hlater, h.append hbefore⟩, hreader, hcommand, hext4⟩ hnone
  refine hbroken ?_
  rw [hkeeps.1, hkeeps.2]
  exact hkept

/-- At every prompt of every history the pool serves the requests up to one of two sizes:
nearly the whole pool, or the 512 bytes that `format_ext4` asks for. In what follows no
request is served that was not, and one that is lost has more than 512 bytes and is lost by
a line of the disk tool that makes a volume of ext4. -/
theorem requests_served (h : Reached frame m lines t)
    (hrun : Run (turn frame) (fun _ _ => True) t later t') :
    (∃ room, (room = memoryPoolSize - 24 ∨ room = 512) ∧
      ∀ n : UInt64, t'.Serves n ↔ n.toNat ≤ room) ∧
    ∀ n : UInt64, (t'.Serves n → t.Serves n) ∧
      (t.Serves n → ¬t'.Serves n → 512 < n.toNat ∧
        ∃ line t₁ k, ReadsIn frame m lines later line t₁ ∧ t₁.inDisktool = true ∧
          line.command = some k ∧ k.CallsExt4) := by
  have hready : t.machine.Ready := h.waits.ready
  obtain ⟨hbase, hready', hstays⟩ := Reached.wearsPool hrun hready
  have hroom : 512 ≤ memoryPoolSize - 24 := by decide
  rw [Machine.Ready, hbase] at hready'
  simp only [MainState.Serves, hbase]
  refine ⟨?_, fun n => ?_⟩
  · rcases hready' with hfresh' | hdamaged'
    · exact ⟨_, Or.inl rfl, hfresh'.succeeds_iff⟩
    · exact ⟨_, Or.inr rfl, hdamaged'.succeeds_iff⟩
  · rcases hready with hfresh | hdamaged
    · rw [hfresh.succeeds_iff n]
      rcases hready' with hfresh' | hdamaged'
      · rw [hfresh'.succeeds_iff n]
        exact ⟨id, fun hserved hlost => absurd hserved hlost⟩
      · rw [hdamaged'.succeeds_iff n]
        refine ⟨fun hsmall => hsmall.trans hroom, fun _ hlost => ⟨not_le.mp hlost, ?_⟩⟩
        refine h.exists_damaging hrun hfresh fun hfresh' => ?_
        rw [hbase] at hfresh'
        exact hfresh'.not_damaged hdamaged'
    · rw [hdamaged.succeeds_iff n, (hstays hdamaged).succeeds_iff n]
      exact ⟨id, fun hserved hlost => absurd hserved hlost⟩

theorem requests_served_partitioning :
    ∃ t t', Reached (fun _ _ => 0) (blankMachine primaryMaster) [] t ∧
      Run (turn fun _ _ => 0) (fun _ _ => True) t partitioningLines t' ∧
      (∃ room, (room = memoryPoolSize - 24 ∨ room = 512) ∧
        ∀ n : UInt64, t'.Serves n ↔ n.toNat ≤ room) ∧
      ∀ n : UInt64, (t'.Serves n → t.Serves n) ∧
        (t.Serves n → ¬t'.Serves n → 512 < n.toNat ∧
          ∃ line t₁ k, ReadsIn (fun _ _ => 0) (blankMachine primaryMaster) [] partitioningLines
            line t₁ ∧ t₁.inDisktool = true ∧ line.command = some k ∧ k.CallsExt4) := by
  obtain ⟨t', t, hboot, hrun⟩ :=
    Reached.exists (fun _ _ => 0) (blankMachine primaryMaster) partitioningLines
  have ht : Reached (fun _ _ => 0) (blankMachine primaryMaster) [] t := ⟨t, hboot, .nil⟩
  exact ⟨t, t', ht, hrun, requests_served ht hrun⟩

end Histories

end EtyOS
