import EtyOS.Disktool.Tables

/-!
# The commands as operations on partition tables

The abstract machine has one table of four entries for each disk and the table
of disks. A creation fills the lowest free slot of the selected disk's table,
a deletion empties a slot, and nothing else touches a table. As long as the
sector operations succeed and the formatters return 0, sector 0 of every disk
follows this machine, and nothing around the tables changes.
-/

namespace EtyOS

open Library

/-- The partition tables of the four disks, and the table of disks. -/
@[ext]
structure TableState where
  tables : Fin 2 → Fin 2 → MbrTable
  config : Config

namespace TableState

variable (T : TableState)

def selected : DiskInfo := T.config.availableDisks T.config.currentDisk.toNat

/-- Change the table of the selected disk. -/
def change (f : MbrTable → MbrTable) : TableState :=
  { T with
    tables := Function.update T.tables T.selected.controller
      (Function.update (T.tables T.selected.controller) T.selected.drive
        (f (T.tables T.selected.controller T.selected.drive))) }

/-- The numbers are exact: a partition of `m` megabytes has `2048 * m` sectors. -/
def step : Command → TableState
  | .update => { T with config := T.config.rescan }
  | .selectDisk i =>
    if 0 ≤ i ∧ i < T.config.numDisks then { T with config := { T.config with currentDisk := i } }
    else T
  | .createPartitionMb m fs =>
    if T.config.currentDisk = -1 ∨ m.toNat > T.selected.sizeMb.toNat then T
    else { T.change fun M => M.create fs.code.toNat 2048 (2048 * m.toNat) with
      config := T.config.rescan }
  | .formatDisk fs =>
    if T.config.currentDisk = -1 ∨ T.selected.sizeMb.toNat < 32 then T
    else T.change fun M => M.create fs.code.toNat 2048 (2048 * T.selected.sizeMb.toNat - 2048)
  | .deletePartition i =>
    if T.config.currentDisk = -1 ∨ i < 0 ∨ i ≥ 4 then T
    else T.change fun M =>
      let slot := Fin.ofNat 4 i.toNat
      if (M slot).type = 0 then M else M.delete slot
  | .listDisks => T
  | .displayPartitionInfo => T

end TableState

/-- The tables that the sectors 0 stand for. -/
def System.tables (t : System) : TableState where
  tables := fun c d => (t.disk.media c d 0).table
  config := t.config

theorem System.tables_config (t : System) : t.tables.config = t.config := rfl

theorem System.tables_selected (t : System) : t.tables.selected = t.selected := rfl

namespace DiskState

variable (fs : FileSystemType) (c d : Fin 2) (n : UInt32) (k : DiskState)

/-- Nothing that has been recorded from `k` to `k'` failed. -/
def AllSucceeded (k k' : DiskState) : Prop :=
  ∀ evs, k'.trace = k.trace ++ evs → ∀ e ∈ evs, e.Succeeded

theorem create_table_of_succeeded (h : AllSucceeded k (k.create fs c d 2048 n)) :
    ((k.create fs c d 2048 n).media c d 0).table =
      (k.media c d 0).table.create fs.code.toNat 2048 n.toNat := by
  cases k.create_cases fs c d n with
  | unreadable _ htrace _ =>
    have hread := h _ htrace _ (List.mem_singleton_self _)
    simp [Event.Succeeded] at hread
  | full _ hslot _ hzero =>
    have hfull : (k.media c d 0).table.freeSlot = none := by
      rw [freeSlot_eq] at hslot
      simpa using hslot
    rw [hzero, MbrTable.create, hfull]
  | unwritten _ _ _ _ htrace =>
    have hwrite := h _ htrace _ (List.mem_cons_of_mem _ (List.mem_singleton_self _))
    simp [Event.Succeeded] at hwrite
  | formatted _ _ _ hread _ hwrite _ _ _ _ _ =>
    exact create_table fs c d n k hread (stores_of_ok _ hwrite)

theorem delete_table_of_succeeded (i : Fin 4) (h : AllSucceeded k (k.delete c d i).2) :
    ((k.delete c d i).2.media c d 0).table =
      if ((k.media c d 0).table i).type = 0 then (k.media c d 0).table
      else (k.media c d 0).table.delete i := by
  cases k.delete_cases c d i with
  | unreadable _ htrace _ =>
    have hread := h _ htrace _ (List.mem_singleton_self _)
    simp [Event.Succeeded] at hread
  | missing _ htype _ hmedia =>
    rw [if_pos ((slotType_eq_zero_iff _ i).mp htype), hmedia]
  | cleared _ htype htrace hzero =>
    have hwrite := h _ htrace _ (List.mem_cons_of_mem _ (List.mem_singleton_self _))
    have hok : (k.read c d 0).next.ok := of_decide_eq_true hwrite
    rw [if_neg (mt (slotType_eq_zero_iff _ i).mpr htype), hzero,
      if_pos (stores_of_ok _ hok), table_clearSlot]

end DiskState

namespace System

variable {t : System} {k : Command}

/-- A change of the selected disk's table alone. -/
theorem tables_change {t' : System} {f : MbrTable → MbrTable}
    (hother : ∀ c d, ¬(c = t.selected.controller ∧ d = t.selected.drive) →
      t'.disk.media c d 0 = t.disk.media c d 0)
    (hselected : (t'.disk.media t.selected.controller t.selected.drive 0).table =
      f (t.disk.media t.selected.controller t.selected.drive 0).table) :
    t'.tables.tables = (t.tables.change f).tables := by
  funext c d
  change (t'.disk.media c d 0).table = Function.update t.tables.tables t.selected.controller
    (Function.update (t.tables.tables t.selected.controller) t.selected.drive
      (f (t.disk.media t.selected.controller t.selected.drive 0).table)) c d
  by_cases hc : c = t.selected.controller
  · subst hc
    rw [Function.update_self]
    by_cases hd : d = t.selected.drive
    · subst hd
      rw [Function.update_self, hselected]
    · rw [Function.update_of_ne hd, hother _ d fun h => hd h.2]
      rfl
  · rw [Function.update_of_ne hc, hother c d fun h => hc h.1]
    rfl

theorem tables_of_media {t' : System} (hmedia : t'.disk.media = t.disk.media) :
    t'.tables.tables = t.tables.tables := by
  funext c d
  exact congrArg (fun media => (media c d 0).table) hmedia

theorem tables_creation {fs : FileSystemType} {n : UInt32} (hcreate : t.creation k = some (fs, n))
    (hsucceed : t.disk.AllSucceeded (t.step k).2.disk) :
    (t.step k).2.tables.tables =
      (t.tables.change fun M => M.create fs.code.toNat 2048 n.toNat).tables := by
  apply tables_change (fun c d h => step_media_other h 0)
  rw [step_disk_of_creation hcreate] at hsucceed ⊢
  exact DiskState.create_table_of_succeeded _ _ _ _ _ hsucceed

theorem tables_deletion {i : Fin 4} (hdelete : t.deletion k = some i.val)
    (hsucceed : t.disk.AllSucceeded (t.step k).2.disk) :
    (t.step k).2.tables.tables =
      (t.tables.change fun M => if (M i).type = 0 then M else M.delete i).tables := by
  apply tables_change (fun c d h => step_media_other h 0)
  rw [step_disk_of_deletion hdelete] at hsucceed ⊢
  exact DiskState.delete_table_of_succeeded _ _ _ i hsucceed

theorem creation_createPartitionMb (t : System) (m : UInt32) (fs : FileSystemType) :
    t.creation (.createPartitionMb m fs) =
      if t.config.currentDisk = -1 ∨ m.toNat > t.selected.sizeMb.toNat then none
      else some (fs, mbToSectors m) := by
  have hsize : m.toUInt64 > t.selected.sizeMb ↔ m.toNat > t.selected.sizeMb.toNat := by
    rw [gt_iff_lt, UInt64.lt_iff_toNat_lt, UInt32.toNat_toUInt64]
  simp only [creation, hsize]

/-- The size is cut to 32 bits, which changes no recorded size. -/
theorem sizeMb_toUInt32 (h : t.config.Valid) (hcurrent : t.config.currentDisk ≠ -1) :
    t.selected.sizeMb.toUInt32.toNat = t.selected.sizeMb.toNat ∧
      t.selected.sizeMb.toNat ≤ 4095 := by
  have hle : t.selected.sizeMb.toNat ≤ 4095 := (h.selected hcurrent).sizeMb_le
  rw [UInt64.toNat_toUInt32]
  omega

theorem creation_formatDisk (h : t.config.Valid) (fs : FileSystemType) :
    t.creation (.formatDisk fs) =
      if t.config.currentDisk = -1 ∨ t.selected.sizeMb.toNat < 32 then none
      else some (fs, mbToSectors t.selected.sizeMb.toUInt32 - 2048) := by
  by_cases hcurrent : t.config.currentDisk = -1
  · simp [creation, hcurrent]
  · have hsize : t.selected.sizeMb.toUInt32 < 32 ↔ t.selected.sizeMb.toNat < 32 := by
      rw [UInt32.lt_iff_toNat_lt, (sizeMb_toUInt32 h hcurrent).1]
      exact Iff.rfl
    simp only [creation, hsize]

theorem formatSectors_toNat (h : t.config.Valid) (hcurrent : t.config.currentDisk ≠ -1)
    (hsize : ¬t.selected.sizeMb.toNat < 32) :
    (mbToSectors t.selected.sizeMb.toUInt32 - 2048).toNat =
      2048 * t.selected.sizeMb.toNat - 2048 := by
  obtain ⟨hcut, hle⟩ := sizeMb_toUInt32 h hcurrent
  have hsectors := mbToSectors_toNat (m := t.selected.sizeMb.toUInt32) (by omega)
  rw [hcut] at hsectors
  have hfit : 2048 ≤ mbToSectors t.selected.sizeMb.toUInt32 := by
    rw [UInt32.le_iff_toNat_le, hsectors]
    change 2048 ≤ _
    omega
  rw [UInt32.toNat_sub_of_le _ _ hfit, hsectors]
  rfl

theorem step_tables_selectDisk (t : System) (i : ℤ) :
    (t.step (.selectDisk i)).2.tables = t.tables.step (.selectDisk i) := by
  rw [step, selectDisk, TableState.step, tables_config]
  by_cases hi : i < 0 ∨ i ≥ t.config.numDisks
  · rw [if_pos hi, if_neg (by omega)]
  · rw [if_neg hi, if_pos (by omega)]
    rfl

theorem step_tables_createPartitionMb {m : UInt32} {fs : FileSystemType} (h : t.config.Valid)
    (hsucceed : t.disk.AllSucceeded (t.step (.createPartitionMb m fs)).2.disk) :
    (t.step (.createPartitionMb m fs)).2.tables = t.tables.step (.createPartitionMb m fs) := by
  have hcreate := t.creation_createPartitionMb m fs
  by_cases hchecks : t.config.currentDisk = -1 ∨ m.toNat > t.selected.sizeMb.toNat
  · rw [if_pos hchecks] at hcreate
    rw [step, createPartitionMb_rejected hcreate]
    exact (if_pos hchecks).symm
  · rw [if_neg hchecks] at hcreate
    have hle : m.toNat ≤ 4095 := by
      have := (sizeMb_toUInt32 h (not_or.mp hchecks).1).2
      omega
    have htables := tables_creation hcreate hsucceed
    rw [mbToSectors_toNat hle] at htables
    rw [TableState.step, tables_config, tables_selected, if_neg hchecks]
    apply TableState.ext
    · exact htables
    · rw [step, createPartitionMb_accepted hcreate]
      rfl

theorem step_tables_formatDisk {fs : FileSystemType} (h : t.config.Valid)
    (hsucceed : t.disk.AllSucceeded (t.step (.formatDisk fs)).2.disk) :
    (t.step (.formatDisk fs)).2.tables = t.tables.step (.formatDisk fs) := by
  have hcreate := creation_formatDisk h fs
  by_cases hchecks : t.config.currentDisk = -1 ∨ t.selected.sizeMb.toNat < 32
  · rw [if_pos hchecks] at hcreate
    rw [step, formatDisk_rejected hcreate]
    exact (if_pos hchecks).symm
  · rw [if_neg hchecks] at hcreate
    obtain ⟨hcurrent, hsize⟩ := not_or.mp hchecks
    have htables := tables_creation hcreate hsucceed
    rw [formatSectors_toNat h hcurrent hsize] at htables
    rw [TableState.step, tables_config, tables_selected, if_neg hchecks]
    apply TableState.ext
    · exact htables
    · rw [step, formatDisk_accepted hcreate]
      rfl

theorem step_tables_deletePartition {i : ℤ}
    (hsucceed : t.disk.AllSucceeded (t.step (.deletePartition i)).2.disk) :
    (t.step (.deletePartition i)).2.tables = t.tables.step (.deletePartition i) := by
  by_cases hchecks : t.config.currentDisk = -1 ∨ i < 0 ∨ i ≥ 4
  · have hdelete : t.deletion (.deletePartition i) = none := if_pos hchecks
    rw [step, deletePartition_rejected hdelete]
    exact (if_pos hchecks).symm
  · have hslot : (Fin.ofNat 4 i.toNat).val = i.toNat := by
      obtain ⟨-, hrange⟩ := not_or.mp hchecks
      exact Nat.mod_eq_of_lt (by omega)
    have hdelete : t.deletion (.deletePartition i) = some (Fin.ofNat 4 i.toNat).val := by
      rw [hslot]
      exact if_neg hchecks
    have htables := tables_deletion hdelete hsucceed
    rw [TableState.step, tables_config, if_neg hchecks]
    apply TableState.ext
    · exact htables
    · rw [step, (deletePartition_accepted hdelete).2]
      rfl

theorem step_tables_displayPartitionInfo (t : System) :
    (t.step .displayPartitionInfo).2.tables = t.tables.step .displayPartitionInfo := by
  rw [step, displayPartitionInfo]
  split
  · rfl
  · apply TableState.ext
    · exact tables_of_media (DiskState.displayPartitions_media _)
    · rfl

/-- One command: the sectors 0 follow the tables. -/
theorem step_tables (h : t.config.Valid) (hsucceed : t.disk.AllSucceeded (t.step k).2.disk) :
    (t.step k).2.tables = t.tables.step k := by
  cases k with
  | update => rfl
  | listDisks => rfl
  | selectDisk i => exact t.step_tables_selectDisk i
  | createPartitionMb m fs => exact step_tables_createPartitionMb h hsucceed
  | formatDisk fs => exact step_tables_formatDisk h hsucceed
  | deletePartition i => exact step_tables_deletePartition hsucceed
  | displayPartitionInfo => exact t.step_tables_displayPartitionInfo

/-- The bytes around the tables never change. -/
theorem step_outside (t : System) (k : Command) (c d : Fin 2) {b : Fin 512}
    (hb : OutsideTable b) : (t.step k).2.disk.media c d 0 b = t.disk.media c d 0 b := by
  cases t.step_mbrChange k c d with
  | kept hkept => rw [hkept]
  | filled fs n i _ _ hslot hfilled =>
    obtain ⟨i, rfl, -⟩ := exists_entry_of_freeSlot (DiskState.filledSlot_spec hslot)
    rw [hfilled]
    exact fillSlot_outside _ i _ _ _ hb
  | cleared i hdelete _ hcleared =>
    rw [hcleared]
    exact clearSlot_outside _ ⟨i, deletion_lt hdelete⟩ hb

/-- After its first two operations, which read and write the MBR, no command
writes to sector 0. -/
theorem step_trace (t : System) (k : Command) :
    ∃ evs, (t.step k).2.disk.trace = t.disk.trace ++ evs ∧ ∀ e ∈ evs.drop 2, ¬e.HitsMbr := by
  cases t.step_cases k with
  | creation fs n _ _ hdisk =>
    rw [hdisk]
    cases t.disk.create_cases fs t.selected.controller t.selected.drive n with
    | unreadable _ htrace _ => exact ⟨_, htrace, by simp⟩
    | full _ _ htrace _ => exact ⟨_, htrace, by simp⟩
    | unwritten _ _ _ _ htrace => exact ⟨_, htrace, by simp⟩
    | formatted i ops result _ _ _ hops _ _ htrace _ =>
      refine ⟨_, htrace, ?_⟩
      intro e he
      rcases List.mem_append.mp (show e ∈ ops ++ [_] from he) with hmem | hmem
      · exact (hops e hmem).not_hitsMbr
      · rw [List.mem_singleton.mp hmem]
        exact id
  | deletion i _ _ hdisk =>
    rw [hdisk]
    cases t.disk.delete_cases t.selected.controller t.selected.drive i with
    | unreadable _ htrace _ => exact ⟨_, htrace, by simp⟩
    | missing _ _ htrace _ => exact ⟨_, htrace, by simp⟩
    | cleared _ _ htrace _ => exact ⟨_, htrace, by simp⟩
  | quiet evs _ _ _ htrace hreads =>
    exact ⟨evs, htrace, fun e he hhit => hreads e (List.mem_of_mem_drop he) hhit.isWrite⟩

/-- A command that succeeds and leaves the tables as they are leaves all sectors
as they are. -/
theorem step_media_of_tables (hsucceed : t.disk.AllSucceeded (t.step k).2.disk)
    (htables : (t.step k).2.tables.tables = t.tables.tables) :
    (t.step k).2.disk.media = t.disk.media := by
  have htable : ((t.step k).2.disk.media t.selected.controller t.selected.drive 0).table =
      (t.disk.media t.selected.controller t.selected.drive 0).table :=
    congrFun (congrFun htables _) _
  cases t.step_cases k with
  | creation fs n _ _ hdisk =>
    rw [hdisk] at hsucceed htable ⊢
    cases hslot : (t.disk.media t.selected.controller t.selected.drive 0).freeSlot with
    | none => exact DiskState.create_media_of_full _ _ _ _ _ hslot
    | some i =>
      obtain ⟨j, -, hfree, htype⟩ := exists_entry_of_freeSlot hslot
      rw [DiskState.create_table_of_succeeded _ _ _ _ _ hsucceed, MbrTable.create, hfree] at htable
      have hentry := congrArg MbrEntry.type (congrFun htable j)
      dsimp only at hentry
      rw [Function.update_self, htype] at hentry
      exact absurd hentry (code_ne_zero fs)
  | deletion i _ hdelete hdisk =>
    rw [hdisk] at hsucceed htable ⊢
    have hi := deletion_lt hdelete
    cases t.disk.delete_cases t.selected.controller t.selected.drive i with
    | unreadable _ _ hmedia => exact hmedia
    | missing _ _ _ hmedia => exact hmedia
    | cleared _ htype _ _ =>
      have hne := mt (slotType_eq_zero_iff _ ⟨i, hi⟩).mpr htype
      rw [DiskState.delete_table_of_succeeded _ _ _ ⟨i, hi⟩ hsucceed, if_neg hne] at htable
      have hentry := congrArg MbrEntry.type (congrFun htable ⟨i, hi⟩)
      rw [MbrTable.delete, Function.update_self] at hentry
      exact absurd hentry.symm hne
  | quiet _ _ _ hmedia _ _ => exact hmedia

end System

section Runs

variable {s₀ s s' : Machine} {ks : List Command} {k : Command}

/-- The sector operations of the command succeed, and its formatter returns 0. -/
def Machine.Succeeds (s : Machine) (k : Command) : Prop :=
  ∀ rc s', k.exec.run s = some (rc, s') → ∀ e ∈ s.newEvents s', e.Succeeded

theorem Machine.Succeeds.disk (h : s.Succeeds k) (hs : s.Ready) :
    s.disk.AllSucceeded (s.system.step k).2.disk := by
  intro evs htrace
  obtain ⟨s', hrun, hsystem, -⟩ := k.exec_does s hs
  have hdisk : s'.disk = (s.system.step k).2.disk := congrArg System.disk hsystem
  have hevents : s.newEvents s' = evs := Machine.newEvents_of_append (by rw [hdisk, htrace])
  rw [← hevents]
  exact h _ s' hrun

/-- What a step leaves alone: the other disks, sector 0 after the first two
operations, and everything if the tables stay the same. -/
structure CleanStep (s s' : Machine) : Prop where
  other : ∀ c d, ¬(c = s.selected.controller ∧ d = s.selected.drive) →
    s'.bus.media c d = s.bus.media c d
  mbr : ∀ e ∈ (s.newEvents s').drop 2, ¬e.HitsMbr
  unchanged : s'.system.tables.tables = s.system.tables.tables → s'.bus.media = s.bus.media

theorem cleanStep (hs : s.Ready) (hsucceed : s.Succeeds k) {rc : ℤ}
    (hexec : k.exec.run s = some (rc, s')) : CleanStep s s' := by
  obtain ⟨-, hdisk, -, -⟩ := Command.exec_inversion hs hexec
  have hmedia : s'.bus.media = (s.system.step k).2.disk.media := congrArg DiskState.media hdisk
  refine ⟨?_, ?_, ?_⟩
  · intro c d h
    funext a
    rw [hmedia, System.step_media_other h]
    rfl
  · obtain ⟨evs, htrace, hevs⟩ := s.system.step_trace k
    have hevents : s.newEvents s' = evs :=
      Machine.newEvents_of_append (by rw [hdisk, htrace]; rfl)
    rw [hevents]
    exact hevs
  · intro htables
    rw [hmedia]
    apply System.step_media_of_tables (hsucceed.disk hs)
    exact (System.tables_of_media hmedia.symm).trans htables

/-- As long as everything succeeds: sector 0 of every disk stands for the table
that the commands make of the initial one, its other bytes are the initial
ones, and a further command leaves alone what it should. -/
theorem tables_refined (hboot : s₀.Booted) (hrun : Run Command.exec Machine.Succeeds s₀ ks s) :
    s.system.tables = ks.foldl TableState.step s₀.system.tables ∧
      (∀ c d b, OutsideTable b → s.bus.media c d 0 b = s₀.bus.media c d 0 b) ∧
      ∀ k rc s', s.Succeeds k → k.exec.run s = some (rc, s') → CleanStep s s' := by
  induction hrun with
  | nil => exact ⟨rfl, fun _ _ _ _ => rfl, fun _ _ _ hk hx => cleanStep hboot.ready hk hx⟩
  | snoc hprev hsucceed hexec ih =>
    rename_i ks s₁ s₂ k a
    have hreach : Reachable s₁ := ⟨s₀, ks, hboot, hprev.mono fun _ _ _ => trivial⟩
    obtain ⟨-, hsystem, hready⟩ := (k.exec_does).inversion hreach.ready hexec
    refine ⟨?_, ?_, fun _ _ _ hk hx => cleanStep hready hk hx⟩
    · rw [hsystem, System.step_tables hreach.valid (hsucceed.disk hreach.ready), ih.1,
        List.foldl_append]
      rfl
    · intro c d b hb
      rw [← ih.2.1 c d b hb]
      have hmedia : s₂.bus.media = (s₁.system.step k).2.disk.media :=
        congrArg (fun t : System => t.disk.media) hsystem
      rw [hmedia, System.step_outside _ _ _ _ hb]
      rfl

theorem Machine.succeeds_of_step (hs : s.Ready)
    (h : ∃ evs, (s.system.step k).2.disk.trace = s.disk.trace ++ evs ∧ ∀ e ∈ evs, e.Succeeded) :
    s.Succeeds k := by
  intro rc s' hexec
  obtain ⟨evs, htrace, hevs⟩ := h
  obtain ⟨-, hdisk, -, -⟩ := Command.exec_inversion hs hexec
  have hevents : s.newEvents s' = evs := Machine.newEvents_of_append (by rw [hdisk, htrace])
  rw [hevents]
  exact hevs

/-- A FAT32 partition of 4 MB on the blank disk. -/
theorem tables_refined_blank :
    ∃ s, Run Command.exec Machine.Succeeds (blankMachine primaryMaster)
        [.update, .selectDisk 0, .createPartitionMb 4 .fat32] s ∧
      s.system.tables = [Command.update, .selectDisk 0, .createPartitionMb 4 .fat32].foldl
        TableState.step (blankMachine primaryMaster).system.tables ∧
      (∀ c d b, OutsideTable b →
        s.bus.media c d 0 b = (blankMachine primaryMaster).bus.media c d 0 b) ∧
      ∀ k rc s', s.Succeeds k → k.exec.run s = some (rc, s') → CleanStep s s' := by
  have hboot := blankMachine_booted primaryMaster
  obtain ⟨s₁, hexec₁, hsystem₁, hready₁⟩ := Command.exec_does .update _ hboot.ready
  obtain ⟨s₂, hexec₂, hsystem₂, hready₂⟩ := Command.exec_does (.selectDisk 0) s₁ hready₁
  obtain ⟨s₃, hexec₃, -, -⟩ := Command.exec_does (.createPartitionMb 4 .fat32) s₂ hready₂
  dsimp only at hsystem₁ hsystem₂
  have hsystem : s₂.system = (((blankMachine primaryMaster).system.step .update).2.step
      (.selectDisk 0)).2 := by
    rw [hsystem₂, hsystem₁]
  have hcreate : s₂.system.creation (.createPartitionMb 4 .fat32) = some (.fat32, 8192) := by
    rw [hsystem]
    rfl
  have hanswers : ∀ j, (s₂.system.disk.answers j).ok := by
    intro j
    rw [hsystem]
    exact (by decide : promptAnswer.ok)
  have hsucceed₃ : s₂.Succeeds (.createPartitionMb 4 .fat32) := by
    apply Machine.succeeds_of_step hready₂
    rw [System.step_disk_of_creation hcreate]
    exact DiskState.create_succeeded _ _ _ _ _ hanswers (by simp)
  have hsucceed₂ : s₁.Succeeds (.selectDisk 0) := by
    have hdisk : s₁.disk = s₁.system.disk := rfl
    refine Machine.succeeds_of_step hready₁ ⟨[], ?_, by simp⟩
    rw [hdisk, hsystem₁]
    rfl
  have hsucceed₁ : (blankMachine primaryMaster).Succeeds .update :=
    Machine.succeeds_of_step hboot.ready ⟨[], rfl, by simp⟩
  have hrun := ((Run.nil.snoc hsucceed₁ hexec₁).snoc hsucceed₂ hexec₂).snoc hsucceed₃ hexec₃
  exact ⟨s₃, hrun, tables_refined hboot hrun⟩

end Runs

end EtyOS
