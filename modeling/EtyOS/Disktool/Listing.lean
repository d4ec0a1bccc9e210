import Mathlib.Data.List.GetD
import EtyOS.Disktool.Tables

/-!
# What the listing of the partitions shows

The listing prints one line for every entry of the sector it has read that is
not of type 0, with its start, size and type. That sector is sector 0 of the
primary master, whatever disk is selected.
-/

namespace EtyOS

open Library

/-- What has been printed since `s`. -/
def Machine.newOutput (s s' : Machine) : List PrintCall := s'.printed.drop s.printed.length

/-- The beginning of the line of an entry. -/
def listingLine (i : ℕ) (lbaFirst mb : UInt32) : List PrintCall :=
  [.str "Partition ", .int (UInt32.ofNat i), .str ":", .str " Start LBA: ", .int lbaFirst,
    .str ", Size: ", .int mb, .str " MB", .str ", Type: "]

/-- The output has a line for entry `i` with this start, size and text for the type. -/
def Reports (out : List PrintCall) (i : ℕ) (lbaFirst mb : UInt32) (type : List PrintCall) : Prop :=
  ∃ rest, listingLine i lbaFirst mb ++ type ++ rest <:+ out

/-- Start, size in megabytes and text for the type of an entry that is not of type 0. -/
def Sector.shown (x : Sector) (stackTail : String) (i : ℕ) :
    Option (UInt32 × UInt32 × List PrintCall) :=
  if x.slotType i = 0 then none
  else some (PartitionEntry.lbaFirst x.mbr (entryAt i),
    sectorsToMb (PartitionEntry.sectorCount x.mbr (entryAt i)), typeCalls (x.slotType i) stackTail)

/-- The call that begins the line of an entry. -/
def lineMarker : PrintCall := .str "Partition "

/-- The output of the loop over the entries: a line for each that is not of type
0, with no further `Partition ` in it. -/
inductive Listing (x : Sector) (stackTail : String) : ℕ → ℕ → List PrintCall → Prop
  | done (i : ℕ) : Listing x stackTail 0 i []
  | skip {n i : ℕ} {out : List PrintCall} (htype : x.slotType i = 0)
    (hrest : Listing x stackTail n (i + 1) out) : Listing x stackTail (n + 1) i out
  | entry {n i : ℕ} {out details : List PrintCall} (htype : x.slotType i ≠ 0)
    (hdetails : lineMarker ∉ details) (hrest : Listing x stackTail n (i + 1) out) :
    Listing x stackTail (n + 1) i
      (entryLine x.mbr i ++ typeCalls (x.slotType i) stackTail ++ details ++ out)

section Marker

theorem hexChar_ne (n : ℕ) : hexChars.getD n '0' ≠ 'P' := by
  by_cases hn : n < 16
  · interval_cases n <;> decide
  · rw [List.getD_eq_default _ _ (by change 16 ≤ n; omega)]
    decide

theorem typeName_ne_marker {code : UInt8} {name : String} (h : typeName code = some name) :
    name ≠ "Partition " ∧ name ≠ "Unknown (0x" := by
  unfold typeName at h
  split at h
  case h_11 => simp at h
  all_goals
    cases h
    decide

theorem lineMarker_notMem_typeCalls (code : UInt8) (stackTail : String) :
    lineMarker ∉ typeCalls code stackTail := by
  unfold typeCalls
  cases hname : typeName code with
  | some name =>
    have hne := (typeName_ne_marker hname).1
    simpa [lineMarker] using hne.symm
  | none =>
    have hne : "Partition " ≠ hexStr code ++ stackTail := by
      intro heq
      have hchars := congrArg String.toList heq
      simp only [hexStr, String.toList_append, String.toList_ofList, List.cons_append] at hchars
      exact hexChar_ne _ (List.cons.inj hchars).1.symm
    simpa [lineMarker] using hne

/-- A suffix that begins with the marker begins behind whatever has no marker. -/
theorem suffix_of_marker {l t out : List PrintCall} (ht : lineMarker ∉ t)
    (h : lineMarker :: l <:+ t ++ out) : lineMarker :: l <:+ out := by
  induction t with
  | nil => exact h
  | cons c t ih =>
    rw [List.cons_append, List.suffix_cons_iff] at h
    rcases h with heq | h
    · exact absurd (List.cons.inj heq).1 fun hc => ht (by simp [hc])
    · exact ih (fun hmem => ht (by simp [hmem])) h

end Marker

section Output

variable {s : Machine}

theorem printed_print (s : Machine) (calls : List PrintCall) :
    (s.print calls).printed = s.printed ++ calls := rfl

theorem run_displayVolumeName (lbaFirst : UInt32) (s : Machine) :
    ∃ calls s', (displayVolumeName lbaFirst).run s = some ((), s') ∧
      s'.printed = s.printed ++ calls ∧ s'.stackTail = s.stackTail ∧ lineMarker ∉ calls := by
  rw [displayVolumeName, ataReadSector_eq_disk]
  have hread := run_readSector 0 0 (lbaFirst + UInt32.ofNat (ext4SuperblockOffset / sectorSize)) 0
    uninitialised s
  by_cases habort : s.bus.next.abort = true
  · rw [if_pos habort] at hread
    rw [run_bind_of_run _ hread]
    exact ⟨[.str "Error reading from disk."], _, rfl, rfl, rfl, by decide⟩
  · rw [if_neg habort] at hread
    rw [run_bind_of_run _ hread]
    dsimp only
    rw [if_pos rfl]
    split
    · refine ⟨_, _, rfl, rfl, rfl, ?_⟩
      rw [volumeNameCalls]
      split
      · simp [lineMarker]
      · simp
    · exact ⟨[], _, rfl, (List.append_nil _).symm, rfl, by simp⟩

theorem run_displayDetails (mbr : Memory) (i : ℕ) (s : Machine) :
    ∃ calls s', (displayDetails mbr i).run s = some ((), s') ∧
      s'.printed = s.printed ++ calls ∧ s'.stackTail = s.stackTail ∧ lineMarker ∉ calls := by
  unfold displayDetails
  split
  · exact run_displayVolumeName _ s
  · exact ⟨[], s, rfl, (List.append_nil _).symm, rfl, by simp⟩

theorem run_displayEntry (mbr : Memory) (i : ℕ) (s : Machine) :
    ∃ details s', (displayEntry mbr i).run s = some ((), s') ∧
      s'.printed = s.printed ++ (entryLine mbr i ++
        typeCalls (PartitionEntry.type mbr (entryAt i)) s.stackTail ++ details) ∧
      s'.stackTail = s.stackTail ∧ lineMarker ∉ details := by
  have hline := run_console (entryLine mbr i ++
    typeCalls (PartitionEntry.type mbr (entryAt i)) s.stackTail) s
  obtain ⟨calls, s', hrun, hprinted, htail, hmarker⟩ := run_displayDetails mbr i (s.print
    (entryLine mbr i ++ typeCalls (PartitionEntry.type mbr (entryAt i)) s.stackTail))
  refine ⟨calls ++ (if PartitionEntry.status mbr (entryAt i) &&& 0x80 ≠ 0 then
    [.str " [Bootable]"] else []) ++ [.newline],
    (s'.print (if PartitionEntry.status mbr (entryAt i) &&& 0x80 ≠ 0 then
      [.str " [Bootable]"] else [])).print [.newline], ?_, ?_, htail, ?_⟩
  · rw [displayEntry, run_bind_of_run _ (run_get s), run_bind_of_run _ hline,
      run_bind_of_run _ hrun, run_bind_of_run _ (run_console _ _)]
    exact run_console _ _
  · rw [printed_print, printed_print, hprinted, printed_print]
    simp only [List.append_assoc]
  · simp only [List.mem_append, not_or]
    refine ⟨⟨hmarker, ?_⟩, by decide⟩
    split <;> decide

theorem run_displayEntries (x : Sector) (n i : ℕ) (s : Machine) :
    ∃ out s', (displayEntries x.mbr n i).run s = some ((), s') ∧
      s'.printed = s.printed ++ out ∧ Listing x s.stackTail n i out := by
  induction n generalizing i s with
  | zero => exact ⟨[], s, rfl, (List.append_nil _).symm, .done i⟩
  | succ n ih =>
    unfold displayEntries
    by_cases htype : PartitionEntry.type x.mbr (entryAt i) ≠ 0
    · obtain ⟨details, s₁, hrun₁, hprinted₁, htail₁, hmarker⟩ := run_displayEntry x.mbr i s
      obtain ⟨out, s₂, hrun₂, hprinted₂, hlisting⟩ := ih (i + 1) s₁
      rw [if_pos htype, run_bind_of_run _ hrun₁]
      rw [htail₁] at hlisting
      refine ⟨_, s₂, hrun₂, ?_, .entry htype hmarker hlisting⟩
      rw [hprinted₂, hprinted₁, List.append_assoc]
      rfl
    · obtain ⟨out, s₁, hrun₁, hprinted₁, hlisting⟩ := ih (i + 1) s
      rw [if_neg htype]
      exact ⟨out, s₁, hrun₁, hprinted₁, .skip (not_not.mp htype) hlisting⟩

end Output

section Reading

variable {x : Sector} {stackTail : String} {n i j : ℕ} {out : List PrintCall}
  {lbaFirst mb : UInt32} {type : List PrintCall}

theorem Reports.mono (h : Reports out j lbaFirst mb type) (front : List PrintCall) :
    Reports (front ++ out) j lbaFirst mb type := by
  obtain ⟨rest, hsuffix⟩ := h
  exact ⟨rest, hsuffix.trans (List.suffix_append front out)⟩

theorem Reports.forget (h : Reports out j lbaFirst mb type) : Reports out j lbaFirst mb [] := by
  obtain ⟨rest, hsuffix⟩ := h
  refine ⟨type ++ rest, ?_⟩
  rw [List.append_nil, ← List.append_assoc]
  exact hsuffix

/-- Behind its marker the line of an entry has no other. -/
theorem entryLine_eq (x : Sector) (i : ℕ) :
    ∃ l, entryLine x.mbr i = lineMarker :: l ∧ lineMarker ∉ l := by
  refine ⟨_, rfl, ?_⟩
  simp [lineMarker]

/-- Every line of the listing is the line of an entry that is shown. -/
theorem Listing.of_reports (h : Listing x stackTail n i out)
    (hreports : Reports out j lbaFirst mb type) :
    ∃ k rest, i ≤ k ∧ k < i + n ∧ UInt32.ofNat j = UInt32.ofNat k ∧
      x.slotType k ≠ 0 ∧ lbaFirst = PartitionEntry.lbaFirst x.mbr (entryAt k) ∧
      mb = sectorsToMb (PartitionEntry.sectorCount x.mbr (entryAt k)) ∧
      type <+: typeCalls (x.slotType k) stackTail ++ rest := by
  induction h with
  | done i =>
    obtain ⟨rest, hsuffix⟩ := hreports
    simp [listingLine] at hsuffix
  | skip htype hrest ih =>
    obtain ⟨k, rest, hlow, hhigh, hk⟩ := ih hreports
    exact ⟨k, rest, by omega, by omega, hk⟩
  | @entry n i out details htype hdetails hrest ih =>
    obtain ⟨rest, hsuffix⟩ := hreports
    obtain ⟨l, hline, hl⟩ := entryLine_eq x i
    have hmarker : lineMarker ∉ l ++ typeCalls (x.slotType i) stackTail ++ details := by
      simp only [List.mem_append, not_or]
      exact ⟨⟨hl, lineMarker_notMem_typeCalls _ _⟩, hdetails⟩
    have hhead : entryLine x.mbr i ++ typeCalls (x.slotType i) stackTail ++ details ++ out =
        lineMarker :: (l ++ typeCalls (x.slotType i) stackTail ++ details ++ out) := by
      rw [hline]
      rfl
    have hcases := hsuffix
    rw [hhead, List.suffix_cons_iff] at hcases
    rcases hcases with heq | htail
    · rw [← hhead] at heq
      simp only [listingLine, entryLine, List.cons_append, List.nil_append, List.append_assoc,
        List.cons.injEq, PrintCall.int.injEq, true_and] at heq
      obtain ⟨hj, hlba, hmb, htype'⟩ := heq
      exact ⟨i, details ++ out, le_rfl, by omega, hj, htype, hlba, hmb, ⟨rest, htype'⟩⟩
    · obtain ⟨k, rest', hlow, hhigh, hk⟩ := ih ⟨rest, suffix_of_marker hmarker htail⟩
      exact ⟨k, rest', by omega, by omega, hk⟩

/-- Every entry that is not of type 0 has its line. -/
theorem Listing.reports (h : Listing x stackTail n i out) (hlow : i ≤ j) (hhigh : j < i + n)
    (htype : x.slotType j ≠ 0) :
    Reports out j (PartitionEntry.lbaFirst x.mbr (entryAt j))
      (sectorsToMb (PartitionEntry.sectorCount x.mbr (entryAt j)))
      (typeCalls (x.slotType j) stackTail) := by
  induction h with
  | done i => omega
  | @skip n i out hskip hrest ih =>
    have hne : i ≠ j := fun hij => htype (hij ▸ hskip)
    exact ih (by omega) (by omega)
  | @entry n i out details _ _ hrest ih =>
    by_cases hij : i = j
    · subst hij
      refine ⟨details ++ out, ?_⟩
      rw [← List.append_assoc]
      exact List.suffix_refl _
    · exact (ih (by omega) (by omega)).mono _

/-- The text for a type is not the beginning of another one's. -/
theorem typeCalls_inj {code code' : UInt8} {rest : List PrintCall}
    (h : typeCalls code' stackTail <+: typeCalls code stackTail ++ rest) :
    typeCalls code' stackTail = typeCalls code stackTail := by
  unfold typeCalls at h ⊢
  cases hname' : typeName code' with
  | some name' =>
    cases hname : typeName code with
    | some name => simpa [hname, hname'] using h
    | none =>
      have hne := (typeName_ne_marker hname').2
      simp [hname, hname', hne] at h
  | none =>
    cases hname : typeName code with
    | some name =>
      have hne := (typeName_ne_marker hname).2
      simp [hname, hname', hne.symm] at h
    | none => simpa [hname, hname'] using h

theorem shown_eq_none_iff : x.shown stackTail i = none ↔ x.slotType i = 0 := by
  unfold Sector.shown
  split <;> simp [*]

/-- What the loop over the four entries of `x` shows for entry `i` is what
another sector would have it show exactly when both show the same. -/
theorem Listing.shows_iff (h : Listing x stackTail 4 0 out) (hi : i < 4) (y : Sector) :
    (match y.shown stackTail i with
      | none => ∀ lbaFirst mb, ¬Reports out i lbaFirst mb []
      | some (lbaFirst, mb, type) => Reports out i lbaFirst mb type) ↔
      x.shown stackTail i = y.shown stackTail i := by
  have hindex : ∀ k, k < 0 + 4 → UInt32.ofNat i = UInt32.ofNat k → k = i := by
    intro k hk heq
    have hnat := congrArg UInt32.toNat heq
    rw [UInt32.toNat_ofNat', UInt32.toNat_ofNat'] at hnat
    omega
  cases hy : y.shown stackTail i with
  | none =>
    dsimp only
    rw [shown_eq_none_iff]
    constructor
    · intro hnone
      by_contra htype
      exact hnone _ _ (h.reports (Nat.zero_le i) (by omega) htype).forget
    · intro htype lbaFirst mb hreports
      obtain ⟨k, rest, -, hk, heq, hshown, -⟩ := h.of_reports hreports
      rw [hindex k hk heq] at hshown
      exact hshown htype
  | some shown =>
    obtain ⟨lbaFirst, mb, type⟩ := shown
    dsimp only
    constructor
    · intro hreports
      obtain ⟨k, rest, -, hk, heq, hshown, hlba, hmb, htype⟩ := h.of_reports hreports
      obtain rfl := hindex k hk heq
      rw [Sector.shown] at hy
      split at hy
      · simp at hy
      · simp only [Option.some.injEq, Prod.mk.injEq] at hy
        obtain ⟨-, -, htype'⟩ := hy
        rw [← htype'] at htype ⊢
        rw [Sector.shown, if_neg hshown, hlba, hmb, typeCalls_inj htype]
    · intro hx
      rw [Sector.shown] at hx
      split at hx
      · simp at hx
      · rename_i htype
        simp only [Option.some.injEq, Prod.mk.injEq] at hx
        obtain ⟨rfl, rfl, rfl⟩ := hx
        exact h.reports (Nat.zero_le i) (by omega) htype

end Reading

section Command

variable {s s' : Machine}

/-- The lines in front of the table. -/
def diskLine (disk : DiskInfo) : List PrintCall :=
  [.str "Disk: ", .str (cString disk.model), .str " (", .int disk.sizeMb.toUInt32,
    .str " MB)", .newline]

/-- The name of the disk may be anything and is still no line of an entry. -/
theorem reports_diskLine_iff (disk : DiskInfo) (body : List PrintCall) (i : ℕ)
    (lbaFirst mb : UInt32) (type : List PrintCall) :
    Reports (diskLine disk ++ body) i lbaFirst mb type ↔ Reports body i lbaFirst mb type := by
  refine ⟨fun ⟨rest, hsuffix⟩ => ⟨rest, ?_⟩, fun h => h.mono _⟩
  simp only [diskLine, List.cons_append, List.nil_append, List.suffix_cons_iff] at hsuffix
  rcases hsuffix with h | h | h | h | h | h | h
  all_goals first
    | exact h
    | simp [listingLine] at h

theorem run_displayPartitions (s : Machine) :
    ∃ body s', displayPartitions.run s = some ((), s') ∧ s'.printed = s.printed ++ body ∧
      (s.bus.next.abort = true → ∀ i lbaFirst mb, ¬Reports body i lbaFirst mb []) ∧
      (s.bus.next.abort = false → ∃ out, Listing (s.bus.media 0 0 0) s.stackTail 4 0 out ∧
        ∀ i lbaFirst mb type, Reports body i lbaFirst mb type ↔
          Reports out i lbaFirst mb type) := by
  have hread := run_readSector 0 0 0 0 uninitialised s
  rw [displayPartitions, ataReadSector_eq_disk]
  by_cases habort : s.bus.next.abort = true
  · rw [if_pos habort] at hread
    rw [run_bind_of_run _ hread]
    refine ⟨[.str "Error reading from disk.", .str "Error: Unable to read MBR."], _,
      run_console _ _, ?_, fun _ i lbaFirst mb => ?_, fun h => by simp [habort] at h⟩
    · rw [printed_print, printed_print, List.append_assoc]
      rfl
    · rintro ⟨rest, hsuffix⟩
      simp [listingLine, List.suffix_cons_iff] at hsuffix
  · rw [if_neg habort] at hread
    rw [run_bind_of_run _ hread]
    dsimp only
    rw [if_neg (by simp), run_bind_of_run _ (run_console _ _)]
    obtain ⟨out, s', hrun, hprinted, hlisting⟩ := run_displayEntries (s.bus.media 0 0 0) 4 0
      ((s.read 0 0 0).print [.str "Partition Table:", .newline])
    refine ⟨[.str "Partition Table:", .newline] ++ out, s', hrun, ?_, fun h => absurd h habort,
      fun _ => ⟨out, hlisting, fun i lbaFirst mb type => ⟨?_, fun h => h.mono _⟩⟩⟩
    · rw [hprinted, printed_print, List.append_assoc]
      rfl
    · rintro ⟨rest, hsuffix⟩
      exact ⟨rest, suffix_of_marker (t := [.str "Partition Table:", .newline]) (by decide) hsuffix⟩

/-- `delete_partition` gets as far as writing the MBR back. -/
def FindsPartition (s : Machine) (i : ℕ) : Prop :=
  ∃ rc s', (deletePartition i).run s = some (rc, s') ∧
    ∃ x ok, Event.write s.selected.controller s.selected.drive 0 x ok ∈ s.newEvents s'

/-- A deletion writes the MBR back exactly when it could read it and the entry is
not empty. -/
theorem deletePartition_writes_iff (hs : s.Ready) (hcurrent : s.currentDisk ≠ -1) {i : ℕ}
    (hi : i < 4) {rc : ℤ} {s' : Machine} (hrun : (deletePartition i).run s = some (rc, s')) :
    (∃ x ok, Event.write s.selected.controller s.selected.drive 0 x ok ∈ s.newEvents s') ↔
      s.bus.next.abort = false ∧ s.selectedMbr.slotType i ≠ 0 := by
  obtain ⟨-, hsystem, -⟩ := (deletePartition_does i).inversion hs hrun
  have hdelete : s.system.deletion (.deletePartition i) = some i := by
    refine (if_neg ?_).trans (by rw [Int.toNat_natCast])
    change ¬(s.currentDisk = -1 ∨ (i : ℤ) < 0 ∨ (i : ℤ) ≥ 4)
    omega
  have hdisk : s'.disk = (s.disk.delete s.selected.controller s.selected.drive i).2 :=
    (congrArg System.disk hsystem).trans (System.step_disk_of_deletion hdelete)
  have hcases := s.disk.delete_cases s.selected.controller s.selected.drive i
  rw [← hdisk] at hcases
  cases hcases with
  | unreadable hread htrace _ =>
    have hread' : s.bus.next.abort = true := hread
    simp [Machine.newEvents_of_append htrace, hread']
  | missing hread htype htrace _ =>
    have htype' : s.selectedMbr.slotType i = 0 := htype
    simp [Machine.newEvents_of_append htrace, htype']
  | cleared hread htype htrace _ =>
    have hread' : s.bus.next.abort = false := hread
    have htype' : s.selectedMbr.slotType i ≠ 0 := htype
    simp [Machine.newEvents_of_append htrace, hread', htype']

theorem findsPartition_iff (hs : s.Ready) (hcurrent : s.currentDisk ≠ -1) {i : ℕ} (hi : i < 4) :
    FindsPartition s i ↔ s.bus.next.abort = false ∧ s.selectedMbr.slotType i ≠ 0 := by
  obtain ⟨s', hrun, -⟩ := deletePartition_does i s hs
  constructor
  · rintro ⟨rc, s'', hrun', hwrite⟩
    exact (deletePartition_writes_iff hs hcurrent hi hrun').mp hwrite
  · intro hentry
    exact ⟨_, s', hrun, (deletePartition_writes_iff hs hcurrent hi hrun).mpr hentry⟩

/-- For every entry of the selected disk's table: it is not empty exactly when
`delete_partition` finds it, and the output shows it, as it is there, exactly
when it is not empty. -/
def ListsSelectedDisk (s s' : Machine) : Prop :=
  ∀ i < 4, (FindsPartition s i ↔ s.selectedMbr.slotType i ≠ 0) ∧
    match s.selectedMbr.shown s.stackTail i with
    | none => ∀ lbaFirst mb, ¬Reports (s.newOutput s') i lbaFirst mb []
    | some (lbaFirst, mb, type) => Reports (s.newOutput s') i lbaFirst mb type

/-- The primary master's table, which is listed, shows what the selected disk's
table does; if the read fails, the latter is empty. -/
def ShowsTheSame (s : Machine) : Prop :=
  (s.bus.next.abort = true → ∀ i < 4, s.selectedMbr.slotType i = 0) ∧
    (s.bus.next.abort = false → ∀ i < 4, (s.bus.media 0 0 0).shown s.stackTail i =
      s.selectedMbr.shown s.stackTail i)

/-- The listing prints the line of the selected disk and then either an error,
or the entries of the primary master's table. -/
theorem run_displayPartitionInfo (hcurrent : s.currentDisk ≠ -1) :
    ∃ s', displayPartitionInfo.run s = some ((), s') ∧
      (s.bus.next.abort = true → ∀ i lbaFirst mb, ¬Reports (s.newOutput s') i lbaFirst mb []) ∧
      (s.bus.next.abort = false → ∃ out, Listing (s.bus.media 0 0 0) s.stackTail 4 0 out ∧
        ∀ i lbaFirst mb type, Reports (s.newOutput s') i lbaFirst mb type ↔
          Reports out i lbaFirst mb type) := by
  obtain ⟨body, s', hrun, hprinted, hfailed, hlisted⟩ :=
    run_displayPartitions (s.print (diskLine s.selected))
  have hout : s.newOutput s' = diskLine s.selected ++ body := by
    rw [Machine.newOutput, hprinted, printed_print, List.append_assoc, List.drop_left]
  have hreports : ∀ i lbaFirst mb type, Reports (s.newOutput s') i lbaFirst mb type ↔
      Reports body i lbaFirst mb type := by
    intro i lbaFirst mb type
    rw [hout, reports_diskLine_iff]
  refine ⟨s', ?_, ?_, ?_⟩
  · rw [displayPartitionInfo, run_bind_of_run _ (run_get s), if_neg hcurrent,
      run_bind_of_run _ (run_console _ _)]
    exact hrun
  · intro hread i lbaFirst mb
    rw [hreports]
    exact hfailed hread i lbaFirst mb
  · intro hread
    obtain ⟨out, hlisting, hbody⟩ := hlisted hread
    refine ⟨out, hlisting, ?_⟩
    intro i lbaFirst mb type
    rw [hreports, hbody]

/-- The listing and the deletion agree about every entry exactly when the
primary master's table shows what the selected disk's table does. -/
theorem listing_agrees_iff (hs : Reachable s) (hcurrent : s.currentDisk ≠ -1) :
    ∃ s', displayPartitionInfo.run s = some ((), s') ∧
      (ListsSelectedDisk s s' ↔ ShowsTheSame s) := by
  obtain ⟨s', hrun, hfailed, hlisted⟩ := run_displayPartitionInfo hcurrent
  refine ⟨s', hrun, ?_⟩
  have hfinds : ∀ i < 4, FindsPartition s i ↔
      s.bus.next.abort = false ∧ s.selectedMbr.slotType i ≠ 0 := by
    intro i hi
    exact findsPartition_iff hs.ready hcurrent hi
  cases hread : s.bus.next.abort with
  | true =>
    constructor
    · intro hlists
      refine ⟨?_, fun h => by simp [hread] at h⟩
      intro _ i hi
      by_contra htype
      have hfound := (hfinds i hi).mp ((hlists i hi).1.mpr htype)
      simp [hread] at hfound
    · intro hsame i hi
      have htype := hsame.1 hread i hi
      rw [hfinds i hi, shown_eq_none_iff.mpr htype]
      exact ⟨by simp [htype], hfailed hread i⟩
  | false =>
    obtain ⟨out, hlisting, hbody⟩ := hlisted hread
    simp only [ListsSelectedDisk, hbody]
    constructor
    · intro hlists
      refine ⟨fun h => by simp [hread] at h, ?_⟩
      intro _ i hi
      exact (hlisting.shows_iff hi s.selectedMbr).mp (hlists i hi).2
    · intro hsame i hi
      rw [hfinds i hi]
      exact ⟨by simp [hread], (hlisting.shows_iff hi s.selectedMbr).mpr (hsame.2 hread i hi)⟩

theorem listing_agrees_single :
    ∃ s, Run Command.exec (fun _ _ => True) (blankMachine primaryMaster)
        [.update, .selectDisk 0] s ∧
      ∃ s', displayPartitionInfo.run s = some ((), s') ∧
        (ListsSelectedDisk s s' ↔ ShowsTheSame s) := by
  obtain ⟨s, hrun, -, hcurrent, -⟩ := exists_selected (fun _ _ _ => blankSector) fun _ => promptAnswer
  exact ⟨s, hrun, listing_agrees_iff ⟨_, _, bootMachine_booted _ _ _, hrun⟩ (by omega)⟩

/-- Both drives of the primary channel answer every scan. -/
def primaryDrives : ℕ → Option IdentifyData :=
  fun n => if n % 4 < 2 then some smallDrive else none

/-- Entry 0 has the type of a Linux partition, everything else is zero. -/
def usedSector : Sector := fun i => if i.val = 450 then 0x83 else 0

/-- The slave has a partition, the master has none. -/
def slaveInUse : Fin 2 → Fin 2 → ℕ → Sector :=
  fun _ d _ => if d = 1 then usedSector else blankSector

/-- With the slave selected, its partition is deleted and not listed. -/
theorem listing_misses_slave :
    (bootMachine slaveInUse (fun _ => promptAnswer) primaryDrives).Booted ∧
      ∃ s, Run Command.exec (fun _ _ => True)
          (bootMachine slaveInUse (fun _ => promptAnswer) primaryDrives) [.update, .selectDisk 1] s ∧
        s.currentDisk = 1 ∧
        ∃ s', displayPartitionInfo.run s = some ((), s') ∧ ¬ListsSelectedDisk s s' := by
  have hboot := bootMachine_booted slaveInUse (fun _ => promptAnswer) primaryDrives
  obtain ⟨s, hrun, hsystem⟩ := exists_run hboot [.update, .selectDisk 1]
  have hcurrent : s.currentDisk = 1 := congrArg (fun t : System => t.config.currentDisk) hsystem
  have hmedia : s.bus.media = slaveInUse := congrArg (fun t : System => t.disk.media) hsystem
  have hdrive : s.selected.drive = 1 := congrArg (fun t : System => t.selected.drive) hsystem
  have hread : s.bus.next.abort = false :=
    congrArg (fun t : System => t.disk.next.abort) hsystem
  obtain ⟨s', hlist, -, hlisted⟩ := run_displayPartitionInfo (s := s) (by omega)
  refine ⟨hboot, s, hrun, hcurrent, s', hlist, ?_⟩
  intro hlists
  obtain ⟨out, hlisting, hbody⟩ := hlisted hread
  have hshown := (hlists 0 (by omega)).2
  simp only [hbody] at hshown
  have hsame := (hlisting.shows_iff (by omega) s.selectedMbr).mp hshown
  have hmaster : (s.bus.media 0 0 0).shown s.stackTail 0 = none := by
    rw [hmedia, shown_eq_none_iff]
    decide
  have hslave : s.selectedMbr.slotType 0 ≠ 0 := by
    rw [Machine.selectedMbr, hmedia, hdrive]
    exact (by decide : usedSector.slotType 0 ≠ 0)
  rw [hmaster] at hsame
  exact hslave (shown_eq_none_iff.mp hsame.symm)

end Command

end EtyOS
