import Mathlib
import EtyOS.Disktool.Tables

/-!
# Whether partitions overlap

Every partition is created at sector 2048, so two entries stay apart exactly
when one of them is empty of sectors. Deletions and the other commands never bring
two entries together.
-/

namespace EtyOS

open Library

/-- Distinct non-empty entries share no sector. -/
def MbrTable.Apart (T : MbrTable) : Prop :=
  ∀ i j, i ≠ j → (T i).type ≠ 0 → (T j).type ≠ 0 → Disjoint (T i).sectors (T j).sectors

section Apart

variable {T : MbrTable} {i : Fin 4}

theorem MbrEntry.sectors_eq_empty {e : MbrEntry} (h : e.sectorCount = 0) : e.sectors = ∅ := by
  rw [sectors, h, Nat.add_zero, Set.Ico_self]

theorem MbrTable.apart_of_free (h : ∀ i, (T i).type = 0) : T.Apart :=
  fun i _ _ hi _ => absurd (h i) hi

theorem MbrTable.Apart.delete (h : T.Apart) (i : Fin 4) : (T.delete i).Apart := by
  have hentry : ∀ j, (T.delete i j).type ≠ 0 → T.delete i j = T j := by
    intro j hj
    refine Function.update_of_ne (fun hij => hj ?_) _ _
    rw [hij, MbrTable.delete, Function.update_self]
    rfl
  intro j j' hne hj hj'
  have hkept := hentry j hj
  have hkept' := hentry j' hj'
  rw [hkept] at hj ⊢
  rw [hkept'] at hj' ⊢
  exact h j j' hne hj hj'

/-- A new entry keeps clear of the others if it or all the others have no sectors. -/
theorem MbrTable.Apart.fill (h : T.Apart) {type lbaFirst count : ℕ}
    (hcount : count = 0 ∨ ∀ j, (T j).type ≠ 0 → (T j).sectorCount = 0) :
    MbrTable.Apart (Function.update T i ((T i).fill type lbaFirst count)) := by
  have hnew : ∀ j, j ≠ i → (T j).type ≠ 0 →
      Disjoint ((T i).fill type lbaFirst count).sectors (T j).sectors := by
    intro j _ hj
    rcases hcount with hzero | hothers
    · rw [MbrEntry.sectors_eq_empty (e := (T i).fill type lbaFirst count) hzero]
      exact Set.empty_disjoint _
    · rw [MbrEntry.sectors_eq_empty (hothers j hj)]
      exact Set.disjoint_empty _
  intro j j' hne hj hj'
  by_cases hji : j = i
  · subst hji
    rw [Function.update_of_ne (Ne.symm hne)] at hj' ⊢
    rw [Function.update_self]
    exact hnew j' (Ne.symm hne) hj'
  · rw [Function.update_of_ne hji] at hj ⊢
    by_cases hji' : j' = i
    · subst hji'
      rw [Function.update_self]
      exact (hnew j hne hj).symm
    · rw [Function.update_of_ne hji'] at hj' ⊢
      exact h j j' hne hj hj'

/-- Two entries with a common first sector are not apart. -/
theorem MbrTable.not_apart {j : Fin 4} (hne : i ≠ j) (hi : (T i).type ≠ 0) (hj : (T j).type ≠ 0)
    (hfirst : (T i).lbaFirst = (T j).lbaFirst) (hcount : (T i).sectorCount ≠ 0)
    (hcount' : (T j).sectorCount ≠ 0) : ¬T.Apart := by
  intro h
  have hmem : (T i).lbaFirst ∈ (T i).sectors := Set.mem_Ico.mpr ⟨le_rfl, by omega⟩
  have hmem' : (T i).lbaFirst ∈ (T j).sectors := Set.mem_Ico.mpr ⟨hfirst.ge, by omega⟩
  exact Set.disjoint_left.mp (h i j hne hi hj) hmem hmem'

/-- All non-empty entries begin at the sector `first`. -/
def MbrTable.StartsAt (T : MbrTable) (first : ℕ) : Prop :=
  ∀ i, (T i).type ≠ 0 → (T i).lbaFirst = first

theorem MbrTable.StartsAt.delete {first : ℕ} (h : T.StartsAt first) (i : Fin 4) :
    (T.delete i).StartsAt first := by
  intro j hj
  by_cases hji : j = i
  · rw [hji, MbrTable.delete, Function.update_self] at hj
    exact absurd rfl hj
  · rw [MbrTable.delete, Function.update_of_ne hji] at hj ⊢
    exact h j hj

theorem MbrTable.StartsAt.fill {type first count : ℕ} (h : T.StartsAt first) :
    MbrTable.StartsAt (Function.update T i ((T i).fill type first count)) first := by
  intro j hj
  by_cases hji : j = i
  · rw [hji, Function.update_self]
    rfl
  · rw [Function.update_of_ne hji] at hj ⊢
    exact h j hj

theorem MbrTable.StartsAt.not_apart_fill {type first count : ℕ} (h : T.StartsAt first)
    (htype : type ≠ 0) (hcount : count ≠ 0) (hfree : (T i).type = 0) {j : Fin 4}
    (hj : (T j).type ≠ 0) (hcount' : (T j).sectorCount ≠ 0) :
    ¬MbrTable.Apart (Function.update T i ((T i).fill type first count)) := by
  have hne : i ≠ j := fun hij => hj (hij ▸ hfree)
  have hself := Function.update_self i ((T i).fill type first count) T
  have hother := Function.update_of_ne hne.symm ((T i).fill type first count) T
  apply MbrTable.not_apart hne
  · rw [hself]
    exact htype
  · rw [hother]
    exact hj
  · rw [hself, hother]
    exact (h j hj).symm
  · rw [hself]
    exact hcount
  · rw [hother]
    exact hcount'

end Apart

section Runs

variable {s₀ s : Machine} {ks : List Command} {c d : Fin 2}

/-- If the command stores a new entry on the disk, this entry or all the others
have no sectors. -/
def Machine.KeepsApart (c d : Fin 2) (s : Machine) (k : Command) : Prop :=
  c = s.selected.controller ∧ d = s.selected.drive → s.disk.filledSlot c d ≠ none →
    ∀ fs n, s.system.creation k = some (fs, n) →
      n = 0 ∨ ∀ j, ((s.bus.media c d 0).table j).type ≠ 0 →
        ((s.bus.media c d 0).table j).sectorCount = 0

/-- What a command can make of the table in sector 0 of a disk. -/
theorem System.MbrChange.table_cases {t : System} {x : Sector} {k : Command}
    (h : t.MbrChange k c d x) :
    x.table = (t.disk.media c d 0).table ∨
    (∃ fs n i, t.creation k = some (fs, n) ∧
      (c = t.selected.controller ∧ d = t.selected.drive) ∧ t.disk.filledSlot c d ≠ none ∧
      x.table = Function.update (t.disk.media c d 0).table i
        (((t.disk.media c d 0).table i).fill fs.code.toNat 2048 n.toNat)) ∨
    ∃ i, x.table = (t.disk.media c d 0).table.delete i := by
  cases h with
  | kept hkept => exact Or.inl (by rw [hkept])
  | filled fs n i hcreate hdisk hslot hfilled =>
    obtain ⟨i, rfl, -⟩ := exists_entry_of_freeSlot (DiskState.filledSlot_spec hslot)
    refine Or.inr (Or.inl ⟨fs, n, i, hcreate, hdisk, by simp [hslot], ?_⟩)
    rw [hfilled, table_fillSlot]
    rfl
  | cleared i hdelete hdisk hcleared =>
    refine Or.inr (Or.inr ⟨⟨i, System.deletion_lt hdelete⟩, ?_⟩)
    rw [hcleared, ← table_clearSlot]

theorem System.MbrChange.startsAt {t : System} {x : Sector} {k : Command}
    (h : t.MbrChange k c d x) (hstart : (t.disk.media c d 0).table.StartsAt 2048) :
    x.table.StartsAt 2048 := by
  obtain hkept | ⟨fs, n, i, -, -, -, hfilled⟩ | ⟨i, hcleared⟩ := h.table_cases
  · rw [hkept]
    exact hstart
  · rw [hfilled]
    exact hstart.fill
  · rw [hcleared]
    exact hstart.delete i

theorem System.MbrChange.apart {x : Sector} {k : Command}
    (h : s.system.MbrChange k c d x) (hkeeps : s.KeepsApart c d k)
    (hapart : (s.bus.media c d 0).table.Apart) : x.table.Apart := by
  obtain hkept | ⟨fs, n, i, hcreate, hdisk, hstored, hfilled⟩ | ⟨i, hcleared⟩ := h.table_cases
  · rw [hkept]
    exact hapart
  · rw [hfilled]
    apply hapart.fill
    rcases hkeeps hdisk hstored fs n hcreate with hzero | hothers
    · exact Or.inl (by rw [hzero]; rfl)
    · exact Or.inr hothers
  · rw [hcleared]
    exact hapart.delete i

/-- A new entry with sectors meets an old one with sectors at their first sector. -/
theorem keepsApart_of_apart {k : Command} (hstart : (s.bus.media c d 0).table.StartsAt 2048)
    (hapart : ((s.system.step k).2.disk.media c d 0).table.Apart) : s.KeepsApart c d k := by
  rintro ⟨rfl, rfl⟩ hstored fs n hcreate
  by_contra hmeet
  obtain ⟨hn, hothers⟩ := not_or.mp hmeet
  push Not at hothers
  obtain ⟨j, htype, hcount⟩ := hothers
  obtain ⟨i, hslot⟩ := Option.ne_none_iff_exists'.mp hstored
  have hzero := s.disk.create_sector_zero fs s.selected.controller s.selected.drive n
  rw [hslot] at hzero
  dsimp only at hzero
  obtain ⟨i, rfl, -, hfree⟩ := exists_entry_of_freeSlot (DiskState.filledSlot_spec hslot)
  rw [System.step_disk_of_creation hcreate] at hapart
  change ((s.disk.create fs s.selected.controller s.selected.drive 2048 n).media
    s.selected.controller s.selected.drive 0).table.Apart at hapart
  rw [hzero, table_fillSlot] at hapart
  have hcount' : n.toNat ≠ 0 := fun h => hn (UInt32.toNat_inj.mp h)
  exact hstart.not_apart_fill (code_ne_zero fs) hcount' hfree htype hcount hapart

/-- From a disk without partitions on, the partitions stay apart in every run in
which no new entry with sectors joins one with sectors; the first command that
does this makes two of them overlap. -/
theorem partitions_apart (hboot : s₀.Booted) (hempty : ∀ i, ((s₀.bus.media c d 0).table i).type = 0)
    (hrun : Run Command.exec (Machine.KeepsApart c d) s₀ ks s) :
    (s.bus.media c d 0).table.Apart ∧ ∀ k rc s', k.exec.run s = some (rc, s') →
      ((s'.bus.media c d 0).table.Apart ↔ s.KeepsApart c d k) := by
  have hnext : ∀ (s₁ s₂ : Machine) (k : Command) (a : ℤ), s₁.Ready → k.exec.run s₁ = some (a, s₂) →
      s₂.Ready ∧ s₂.bus.media c d 0 = (s₁.system.step k).2.disk.media c d 0 :=
    fun s₁ s₂ k a hs₁ hexec => by
      obtain ⟨-, hdisk, -, hready⟩ := Command.exec_inversion hs₁ hexec
      exact ⟨hready, congrArg (fun k : DiskState => k.media c d 0) hdisk⟩
  have hkept : s.Ready ∧ (s.bus.media c d 0).table.StartsAt 2048 ∧
      (s.bus.media c d 0).table.Apart := by
    refine hrun.invariant (I := fun s => s.Ready ∧ (s.bus.media c d 0).table.StartsAt 2048 ∧
      (s.bus.media c d 0).table.Apart) (fun s₁ s₂ k a hs₁ hkeeps hexec => ?_)
      ⟨hboot.ready, fun i hi => absurd (hempty i) hi, MbrTable.apart_of_free hempty⟩
    obtain ⟨hready, hmedia⟩ := hnext s₁ s₂ k a hs₁.1 hexec
    have hchange := s₁.system.step_mbrChange k c d
    rw [hmedia]
    exact ⟨hready, hchange.startsAt hs₁.2.1, hchange.apart hkeeps hs₁.2.2⟩
  refine ⟨hkept.2.2, ?_⟩
  intro k rc s' hexec
  rw [(hnext s s' k rc hkept.1 hexec).2]
  exact ⟨keepsApart_of_apart hkept.2.1,
    fun hkeeps => (s.system.step_mbrChange k c d).apart hkeeps hkept.2.2⟩

theorem blankSector_table : blankSector.table = fun _ => MbrEntry.empty := by decide

/-- On the blank 64 MB disk: one partition of 4 MB. -/
theorem partitions_apart_one :
    ∃ s, Run Command.exec (Machine.KeepsApart 0 0) (blankMachine primaryMaster)
        [.update, .selectDisk 0, .createPartitionMb 4 .ext4] s ∧
      (s.bus.media 0 0 0).table.Apart ∧ ∀ k rc s', k.exec.run s = some (rc, s') →
        ((s'.bus.media 0 0 0).table.Apart ↔ s.KeepsApart 0 0 k) := by
  have hboot := blankMachine_booted primaryMaster
  have hempty : ∀ i, (blankSector.table i).type = 0 := fun i => by rw [blankSector_table]; rfl
  obtain ⟨s₁, hexec₁, hsystem₁, hready₁⟩ := Command.exec_does .update _ hboot.ready
  obtain ⟨s₂, hexec₂, hsystem₂, hready₂⟩ := Command.exec_does (.selectDisk 0) s₁ hready₁
  obtain ⟨s₃, hexec₃, -, -⟩ := Command.exec_does (.createPartitionMb 4 .ext4) s₂ hready₂
  have hmedia : s₂.bus.media = fun _ _ _ => blankSector := by
    have hdisk : s₂.system.disk = (blankMachine primaryMaster).disk := by
      rw [hsystem₂, hsystem₁]
      rfl
    exact congrArg DiskState.media hdisk
  have hkeeps : s₂.KeepsApart 0 0 (.createPartitionMb 4 .ext4) := fun _ _ _ _ _ =>
    Or.inr fun j hj => absurd (hempty j) (by rwa [hmedia] at hj)
  have hrun := ((Run.nil.snoc (fun _ _ _ _ h => by simp [System.creation] at h) hexec₁).snoc
    (fun _ _ _ _ h => by simp [System.creation] at h) hexec₂).snoc hkeeps hexec₃
  exact ⟨s₃, hrun, partitions_apart hboot hempty hrun⟩

/-- Two partitions of 32 MB on the blank 64 MB disk both begin at sector 2048. -/
theorem two_partitions_overlap :
    (blankMachine primaryMaster).Booted ∧
      (∀ c d i, (((blankMachine primaryMaster).bus.media c d 0).table i).type = 0) ∧
      ∃ s, Run Command.exec (fun _ _ => True) (blankMachine primaryMaster) [.update, .selectDisk 0,
          .createPartitionMb 32 .fat32, .createPartitionMb 32 .fat32] s ∧
        ¬(s.bus.media 0 0 0).table.Apart := by
  have hboot := blankMachine_booted primaryMaster
  obtain ⟨s, hrun, hsystem⟩ := exists_run hboot [.update, .selectDisk 0,
    .createPartitionMb 32 .fat32, .createPartitionMb 32 .fat32]
  refine ⟨hboot, fun c d i => ?_, s, hrun, ?_⟩
  · exact congrArg (fun T : MbrTable => (T i).type) blankSector_table
  have hdisk : s.disk = ((blankMachine primaryMaster).disk.create .fat32 0 0 2048 65536).create
      .fat32 0 0 2048 65536 := (congrArg System.disk hsystem).trans rfl
  have htable : (s.disk.media 0 0 0).table = MbrTable.create (MbrTable.create
      (fun _ => MbrEntry.empty) 12 2048 65536) 12 2048 65536 := by
    have hanswers := (blankMachine primaryMaster).disk.create_answers .fat32 0 0 65536
    have hprompt : ∀ k : DiskState, k.answers = (fun _ => promptAnswer) →
        k.next.abort = false ∧ (k.read 0 0 0).stores := by
      intro k hk
      simp [DiskState.stores, DiskState.next, hk, promptAnswer]
    obtain ⟨hread, hstores⟩ := hprompt (blankMachine primaryMaster).disk rfl
    obtain ⟨hread', hstores'⟩ := hprompt _ hanswers
    have hblank : ((blankMachine primaryMaster).disk.media 0 0 0).table =
      fun _ => MbrEntry.empty := blankSector_table
    have hcode : FileSystemType.fat32.code.toNat = 12 := rfl
    have hcount : (65536 : UInt32).toNat = 65536 := rfl
    rw [hdisk, DiskState.create_table _ _ _ _ _ hread' hstores',
      DiskState.create_table _ _ _ _ _ hread hstores, hblank, hcode, hcount]
  change ¬(s.disk.media 0 0 0).table.Apart
  rw [htable]
  exact MbrTable.not_apart (i := 0) (j := 1) (by decide) (by decide) (by decide) (by decide)
    (by decide) (by decide)

end Runs

end EtyOS
