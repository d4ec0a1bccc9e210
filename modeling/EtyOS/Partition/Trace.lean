import EtyOS.Partition.Effects

/-!
# What a creation leaves in the record

The record of a creation is a read of the MBR, then a write of the MBR if there
is a free slot, then the operations of the formatter and its result if that
write succeeded. The operations of the formatter stay behind the MBR.
-/

namespace EtyOS

open Library

namespace Event

/-- The operation transferred its sector; the formatter returned 0. -/
def Succeeded : Event → Prop
  | .read _ _ _ ok => ok = true
  | .write _ _ _ _ ok => ok = true
  | .format _ _ _ _ _ result => result = 0

/-- A sector operation of a formatter on the disk. -/
def OfFormatter (c d : Fin 2) : Event → Prop
  | .read c' d' _ _ => c' = c ∧ d' = d
  | .write c' d' lba _ _ => c' = c ∧ d' = d ∧ BehindMbr lba
  | .format _ _ _ _ _ _ => False

end Event

namespace DiskState

variable (fs : FileSystemType) (c d : Fin 2) (n : UInt32) (k : DiskState)

/-- A list of writes succeeds when every recorded write has transferred its sector. -/
theorem writeAll_trace (plan : List (UInt32 × Sector)) (hplan : ∀ w ∈ plan, BehindMbr w.1) :
    ∃ evs, (k.writeAll c d plan).2.trace = k.trace ++ evs ∧
      (∀ e ∈ evs, e.OfFormatter c d) ∧
      ((k.writeAll c d plan).1 = true ↔ ∀ e ∈ evs, e.Transferred) := by
  obtain ⟨evs, htrace, hops, hall, -⟩ := writeAll_events c d k plan
  refine ⟨evs, htrace, ?_, hall⟩
  intro e he
  obtain ⟨w, hw, ok, rfl⟩ := hops e he
  exact ⟨rfl, rfl, hplan w hw⟩

/-- The operations of a formatter; when all of them transfer their sectors it
fails only for an ext4 volume that is too small. -/
theorem formatter_trace :
    ∃ evs, (k.formatter fs c d 2048 n).2.trace = k.trace ++ evs ∧
      (∀ e ∈ evs, e.OfFormatter c d) ∧
      ((k.formatter fs c d 2048 n).1 = 0 ↔
        ¬(fs = .ext4 ∧ n < 8192) ∧ ∀ e ∈ evs, e.Transferred) := by
  cases fs with
  | fat32 =>
    obtain ⟨evs, htrace, hops, hall⟩ := writeAll_trace c d k (fat32Plan 2048 n)
      fun w hw => fat32Plan_behindMbr n hw
    refine ⟨evs, htrace, hops, ?_⟩
    rw [← hall]
    simp [formatter, formatFat32]
  | ext4 =>
    simp only [formatter, formatExt4]
    by_cases hsize : n < 8192
    · exact ⟨[], by simp [hsize], by simp, by simp [hsize]⟩
    · by_cases habort : k.next.abort = true
      · refine ⟨[.read c d (2048 + 2) (!k.next.abort)], ?_, ?_, ?_⟩
        · simp [hsize, habort, read]
        · simp [Event.OfFormatter]
        · simp [hsize, habort, Event.Transferred]
      · obtain ⟨evs, htrace, hops, hall⟩ := writeAll_trace c d (k.read c d (2048 + 2))
          (ext4Plan 2048 n) fun w hw => ext4Plan_behindMbr n hw
        refine ⟨.read c d (2048 + 2) (!k.next.abort) :: evs, ?_, ?_, ?_⟩
        · simp only [hsize, habort, Bool.false_eq_true, if_false, htrace]
          simp [read, habort]
        · simpa [Event.OfFormatter] using hops
        · simp only [hsize, habort, Bool.false_eq_true, if_false, List.forall_mem_cons, ← hall]
          simp [Event.Transferred]

/-- The four ways a creation can go, each with its record and sector 0 after it. -/
inductive CreateCase (k k' : DiskState) : Prop
  | unreadable (hread : k.next.abort = true)
    (htrace : k'.trace = k.trace ++ [.read c d 0 false])
    (hzero : k'.media c d 0 = k.media c d 0)
  | full (hread : k.next.abort = false) (hslot : (k.media c d 0).freeSlot = none)
    (htrace : k'.trace = k.trace ++ [.read c d 0 true])
    (hzero : k'.media c d 0 = k.media c d 0)
  | unwritten (i : ℕ) (hread : k.next.abort = false)
    (hslot : (k.media c d 0).freeSlot = some i) (hwrite : ¬(k.read c d 0).next.ok)
    (htrace : k'.trace = k.trace ++ [.read c d 0 true,
      .write c d 0 ((k.media c d 0).fillSlot i fs.code 2048 n) false])
  | formatted (i : ℕ) (evs : List Event) (result : ℤ) (hread : k.next.abort = false)
    (hslot : (k.media c d 0).freeSlot = some i) (hwrite : (k.read c d 0).next.ok)
    (hops : ∀ e ∈ evs, e.OfFormatter c d)
    (hformat : result = (formatter fs c d 2048 n ((k.read c d 0).write c d 0
      ((k.media c d 0).fillSlot i fs.code 2048 n))).1)
    (hresult : result = 0 ↔ ¬(fs = .ext4 ∧ n < 8192) ∧ ∀ e ∈ evs, e.Transferred)
    (htrace : k'.trace = k.trace ++ ([.read c d 0 true,
      .write c d 0 ((k.media c d 0).fillSlot i fs.code 2048 n) true] ++ evs ++
        [.format fs c d 2048 n result]))
    (hzero : k'.media c d 0 = (k.media c d 0).fillSlot i fs.code 2048 n)

theorem create_cases : CreateCase fs c d n k (k.create fs c d 2048 n) := by
  have hzero := k.create_sector_zero fs c d n
  cases hread : k.next.abort with
  | true =>
    refine .unreadable hread ?_ (by simpa [filledSlot, hread] using hzero)
    simp [create, hread, read]
  | false =>
    cases hslot : (k.media c d 0).freeSlot with
    | none =>
      refine .full hread hslot ?_ (by simpa [filledSlot, hread, hslot] using hzero)
      simp [create, hread, hslot, read]
    | some i =>
      have hmbr : ∀ x, ((k.read c d 0).write c d 0 x).trace = k.trace ++
          [.read c d 0 true, .write c d 0 x (decide (k.read c d 0).next.ok)] := by
        intro x
        change (k.trace ++ [.read c d 0 (!k.next.abort)]) ++ _ = _
        rw [hread, List.append_assoc]
        rfl
      by_cases hwrite : (k.read c d 0).next.ok
      · obtain ⟨evs, htrace, hops, hresult⟩ := formatter_trace fs c d n
          ((k.read c d 0).write c d 0 ((k.media c d 0).fillSlot i fs.code 2048 n))
        refine .formatted i evs _ hread hslot hwrite hops rfl hresult ?_ ?_
        · simp only [create, hread, hslot, hwrite, Bool.false_eq_true, if_false, if_true]
          rw [format, log, htrace, hmbr, decide_eq_true hwrite]
          simp
        · simpa [filledSlot, hread, hslot, stores_of_ok _ hwrite] using hzero
      · refine .unwritten i hread hslot hwrite ?_
        simp only [create, hread, hslot, hwrite, Bool.false_eq_true, if_false]
        rw [hmbr, decide_eq_false hwrite]

/-- A creation only adds to the record. -/
theorem create_trace : ∃ evs, (k.create fs c d 2048 n).trace = k.trace ++ evs := by
  cases k.create_cases fs c d n with
  | unreadable _ htrace _ => exact ⟨_, htrace⟩
  | full _ _ htrace _ => exact ⟨_, htrace⟩
  | unwritten _ _ _ _ htrace => exact ⟨_, htrace⟩
  | formatted _ _ _ _ _ _ _ _ _ htrace _ => exact ⟨_, htrace⟩

/-- The drive answers the operations of a formatter well, from number `first` on:
three writes, or a read and the writes of the superblock and of every group. -/
def FormatterServed (first : ℕ) : Prop :=
  match fs with
  | .fat32 => ∀ j < 3, (k.answers (first + j)).ok
  | .ext4 => ¬n < 8192 ∧ (k.answers first).abort = false ∧
      ∀ j < 1 + 3 * ((n.toNat / 8 + 32767) / 32768), (k.answers (first + 1 + j)).ok

theorem groupsPlan_length (g : Ext4Geometry) (count : ℕ) (group : UInt32) :
    (g.groupsPlan count group).length = 3 * count := by
  induction count generalizing group with
  | zero => rfl
  | succ count ih =>
    rw [Ext4Geometry.groupsPlan, List.length_append, ih]
    simp only [Ext4Geometry.groupPlan, List.length_append, List.length_singleton]
    omega

theorem ext4Plan_length (startLba : UInt32) :
    (ext4Plan startLba n).length = 1 + 3 * ((n.toNat / 8 + 32767) / 32768) := by
  rw [ext4Plan, List.length_cons, groupsPlan_length, numBlockGroups_toNat]
  omega

theorem formatter_eq_zero_iff (startLba : UInt32) :
    (k.formatter fs c d startLba n).1 = 0 ↔ k.FormatterServed fs n k.issued := by
  have hzero : ∀ b : Bool, (if b = true then (0 : ℤ) else -1) = 0 ↔ b = true := by
    intro b
    cases b <;> simp
  cases fs with
  | fat32 =>
    simp only [formatter, formatFat32, FormatterServed, hzero]
    exact writeAll_ok_iff _
  | ext4 =>
    simp only [formatter, formatExt4, FormatterServed]
    by_cases hsize : n < 8192
    · simp [hsize]
    · cases habort : k.next.abort with
      | true =>
        have hnext : (k.answers k.issued).abort = true := habort
        simp [hsize, hnext]
      | false =>
        have hnext : (k.answers k.issued).abort = false := habort
        simp only [hsize, Bool.false_eq_true, if_false, hzero, not_false_eq_true, hnext, true_and]
        rw [writeAll_ok_iff, ext4Plan_length]
        rfl

/-- A drive that answers everything well lets a creation succeed. -/
theorem create_succeeded (hserved : ∀ j, (k.answers j).ok) (hsize : ¬(fs = .ext4 ∧ n < 8192)) :
    ∃ evs, (k.create fs c d 2048 n).trace = k.trace ++ evs ∧ ∀ e ∈ evs, e.Succeeded := by
  have hread : k.next.abort = false := (hserved k.issued).1
  cases k.create_cases fs c d n with
  | unreadable habort _ _ => simp [hread] at habort
  | full _ _ htrace _ => exact ⟨_, htrace, by simp [Event.Succeeded]⟩
  | unwritten _ _ _ hwrite _ => exact absurd (hserved (k.issued + 1)) hwrite
  | formatted i evs result _ _ _ hops hformat hresult htrace _ =>
    have hformatter : FormatterServed fs n ((k.read c d 0).write c d 0
        ((k.media c d 0).fillSlot i fs.code 2048 n)) (k.issued + 2) := by
      cases fs with
      | fat32 => exact fun j _ => hserved _
      | ext4 => exact ⟨fun h => hsize ⟨rfl, h⟩, (hserved _).1, fun j _ => hserved _⟩
    have hzero : result = 0 := by
      rw [hformat, formatter_eq_zero_iff]
      exact hformatter
    have hevs : ∀ e ∈ evs, e.Succeeded := by
      intro e he
      have htransferred := (hresult.mp hzero).2 e he
      have hop := hops e he
      cases e with
      | read _ _ _ _ => exact htransferred
      | write _ _ _ _ _ => exact htransferred
      | format _ _ _ _ _ _ => exact hop.elim
    refine ⟨_, htrace, ?_⟩
    simp only [List.forall_mem_append, List.forall_mem_cons]
    exact ⟨⟨⟨rfl, rfl, by simp⟩, hevs⟩, hzero, by simp⟩

/-- An ext4 partition below 32 MB gets its entry before the formatter refuses it. -/
theorem create_small {i : ℕ} (hread : k.next.abort = false)
    (hslot : (k.media c d 0).freeSlot = some i) (hwrite : (k.read c d 0).next.ok)
    (hsmall : n < 8192) :
    (k.create .ext4 c d 2048 n).trace = k.trace ++ [.read c d 0 true,
      .write c d 0 ((k.media c d 0).fillSlot i (FileSystemType.code .ext4) 2048 n) true,
      .format .ext4 c d 2048 n (-1)] := by
  simp only [create, hread, hslot, hwrite, Bool.false_eq_true, if_false, if_true]
  simp only [format, formatter, formatExt4, hsmall, if_true, log, write, decide_eq_true hwrite]
  simp [read, hread]

end DiskState

end EtyOS
