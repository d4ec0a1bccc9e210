import EtyOS.Disktool.Listing

/-!
# Sizes in megabytes

`init_disktool`, `display_available_disks` and `display_partitions` turn
sectors into megabytes by the same expression, whose product is taken in 32
bits. What is recorded or shown is right for a number of sectors exactly when
the product does not wrap, that is below 4 GB.
-/

namespace EtyOS

open Library

section Conversion

theorem sectorsToMb_eq_iff (n : UInt32) :
    (sectorsToMb n).toNat = n.toNat / 2048 ↔ n.toNat < 2 ^ 23 := by
  rw [sectorsToMb_toNat]
  omega

/-- The number of sectors in an answer to IDENTIFY: words 60 and 61. -/
def IdentifyData.totalSectors (a : IdentifyData) : ℕ :=
  (a.word 60).toNat + 2 ^ 16 * (a.word 61).toNat

/-- The size that is computed from an answer. -/
def IdentifyData.sizeMb (a : IdentifyData) : UInt32 :=
  sectorsToMb (identifySectors (identifyBuffer a.word))

theorem identifySectors_toNat (a : IdentifyData) :
    (identifySectors (identifyBuffer a.word)).toNat = a.totalSectors := by
  have hlow := (a.word 60).toNat_lt
  have hhigh := (a.word 61).toNat_lt
  have hbuffer : ∀ j < 256, identifyBuffer a.word j = a.word j := fun j hj => if_pos hj
  rw [identifySectors, hbuffer 60 (by decide), hbuffer 61 (by decide), UInt32.toNat_or,
    UInt32.toNat_shiftLeft, UInt16.toNat_toUInt32, UInt16.toNat_toUInt32,
    show (16 : UInt32).toNat % 32 = 16 from rfl, Nat.shiftLeft_eq,
    Nat.mod_eq_of_lt (by omega), Nat.or_comm, ← Nat.shiftLeft_eq,
    ← Nat.shiftLeft_add_eq_or_of_lt (by omega), Nat.shiftLeft_eq, IdentifyData.totalSectors]
  omega

theorem IdentifyData.sizeMb_eq_iff (a : IdentifyData) :
    a.sizeMb.toNat = a.totalSectors / 2048 ↔ a.totalSectors < 2 ^ 23 := by
  rw [IdentifyData.sizeMb, ← identifySectors_toNat]
  exact sectorsToMb_eq_iff _

end Conversion

section Scan

/-- The answers that the next scan of the four positions gets, in its order. -/
def Config.answers (g : Config) : List IdentifyData :=
  (List.range 4).filterMap fun n => g.identify (g.scanned + n)

/-- The sizes in the table of disks. -/
def Config.recordedSizes (g : Config) : List ℕ :=
  (List.range g.numDisks).map fun j => (g.availableDisks j).sizeMb.toNat

/-- The answers of the next scan, position by position. -/
theorem Config.map_answers {α : Type} (g : Config) (f : IdentifyData → α) :
    g.answers.map f =
      ((g.identify g.scanned).map f).toList ++ ((g.identify (g.scanned + 1)).map f).toList ++
      ((g.identify (g.scanned + 2)).map f).toList ++
      ((g.identify (g.scanned + 3)).map f).toList := by
  have hrange : List.range 4 = [0, 1, 2, 3] := rfl
  rw [answers, List.map_filterMap, List.filterMap_eq_flatMap_toList, hrange]
  simp only [List.flatMap_cons, List.flatMap_nil, List.append_nil, List.append_assoc, Nat.add_zero]

theorem map_sizeMb_found (g : Config) :
    g.found.map (fun disk => disk.sizeMb.toNat) = g.answers.map fun a => a.sizeMb.toNat := by
  have hentry : ∀ n c d, (g.entryOf n c d).toList.map (fun disk => disk.sizeMb.toNat) =
      ((g.identify (g.scanned + n)).map fun a => a.sizeMb.toNat).toList := by
    intro n c d
    rw [Config.entryOf, ← Option.toList_map, Option.map_map]
    rfl
  simp only [Config.found, Config.map_answers, List.map_append, hentry, Nat.add_zero]

theorem recordedSizes_rescan (g : Config) :
    g.rescan.recordedSizes = g.answers.map fun a => a.sizeMb.toNat := by
  rw [← map_sizeMb_found, Config.recordedSizes, g.rescan_numDisks]
  apply List.ext_getElem
  · simp
  · intro j hj _
    have hlt : j < g.found.length := by simpa using hj
    simp [g.rescan_availableDisks, hlt]

theorem run_initDisktool (s : Machine) :
    ∃ s', initDisktool.run s = some ((), s') ∧ s'.config = s.config.rescan := by
  obtain ⟨s₁, hrun₁, hconfig₁, -⟩ := run_scanDrive 0 0
    (({ s with numDisks := 0 } : Machine).print [.str "Analyzing disks...", .newline])
  obtain ⟨s₂, hrun₂, hconfig₂, -⟩ := run_scanDrive 0 1 s₁
  obtain ⟨s₃, hrun₃, hconfig₃, -⟩ := run_scanDrive 1 0 s₂
  obtain ⟨s₄, hrun₄, hconfig₄, -⟩ := run_scanDrive 1 1 s₃
  refine ⟨s₄.print [.str "Found ", .dec (UInt32.ofNat s₄.numDisks), .str " disks", .newline,
    .newline], ?_, ?_⟩
  · rw [initDisktool, run_bind_of_run _ (run_modify _ _), run_bind_of_run _ (run_console _ _),
      run_bind_of_run _ hrun₁, run_bind_of_run _ hrun₂, run_bind_of_run _ hrun₃,
      run_bind_of_run _ hrun₄, run_bind_of_run _ (run_get _)]
    exact run_console _ _
  · rw [Machine.config_print, hconfig₄, hconfig₃, hconfig₂, hconfig₁]
    rfl

end Scan

section Shown

/-- The numbers that are printed, in order. -/
def printedInts (calls : List PrintCall) : List UInt32 :=
  calls.filterMap fun
    | .int n => some n
    | _ => none

@[simp] theorem printedInts_append (as bs : List PrintCall) :
    printedInts (as ++ bs) = printedInts as ++ printedInts bs := List.filterMap_append

/-- The line of a drive shows one number, its size. -/
theorem printedInts_driveLine (c d : Fin 2) (a : IdentifyData) :
    printedInts (driveLine c d (identifyBuffer a.word)) = [a.sizeMb] := by
  have hsize : (sectorsToMb (identifySectors (identifyBuffer a.word))).toUInt64.toUInt32 =
      a.sizeMb := UInt32.toUInt32_toUInt64 _
  rw [driveLine, hsize]
  rfl

/-- A position that answers adds its line, and the answer is used up. -/
theorem run_displayDrive (c d : Fin 2) (driveCount : ℕ) (s : Machine) :
    ∃ driveCount' s' calls, (displayDrive c d driveCount).run s = some (driveCount', s') ∧
      s'.printed = s.printed ++ calls ∧
      printedInts calls = ((s.bus.identify s.bus.scanned).map IdentifyData.sizeMb).toList ∧
      s'.bus.identify = s.bus.identify ∧ s'.bus.scanned = s.bus.scanned + 1 := by
  rw [displayDrive, run_bind_of_run _ (run_identify c d s)]
  cases s.bus.identify s.bus.scanned with
  | none => exact ⟨_, _, [], run_return _ _, (List.append_nil _).symm, rfl, rfl, rfl⟩
  | some a =>
    dsimp only [Option.map_some]
    rw [run_bind_of_run _ (run_console _ _)]
    exact ⟨_, _, _, run_return _ _, rfl, printedInts_driveLine c d a, rfl, rfl⟩

theorem run_displayAvailableDisks (s : Machine) :
    ∃ s' calls, displayAvailableDisks.run s = some ((), s') ∧ s'.printed = s.printed ++ calls ∧
      printedInts calls = s.config.answers.map IdentifyData.sizeMb := by
  obtain ⟨n₁, s₁, calls₁, hrun₁, hprinted₁, hints₁, hidentify₁, hscanned₁⟩ :=
    run_displayDrive 0 0 0 (s.print [.str "Model / Size / Type", .newline])
  obtain ⟨n₂, s₂, calls₂, hrun₂, hprinted₂, hints₂, hidentify₂, hscanned₂⟩ :=
    run_displayDrive 0 1 n₁ s₁
  obtain ⟨n₃, s₃, calls₃, hrun₃, hprinted₃, hints₃, hidentify₃, hscanned₃⟩ :=
    run_displayDrive 1 0 n₂ s₂
  obtain ⟨n₄, s₄, calls₄, hrun₄, hprinted₄, hints₄, -, -⟩ := run_displayDrive 1 1 n₃ s₃
  have hlast : ∃ s' calls,
      (if n₄ = 0 then console [.str "No drives found.", .newline] else return ()).run s₄ =
        some ((), s') ∧ s'.printed = s₄.printed ++ calls ∧ printedInts calls = [] := by
    split
    · exact ⟨_, _, run_console _ _, rfl, rfl⟩
    · exact ⟨_, [], run_return _ _, (List.append_nil _).symm, rfl⟩
  obtain ⟨s', calls, hrun, hprinted, hints⟩ := hlast
  refine ⟨s', [.str "Model / Size / Type", .newline] ++ calls₁ ++ calls₂ ++ calls₃ ++ calls₄ ++
    calls, ?_, ?_, ?_⟩
  · rw [displayAvailableDisks, run_bind_of_run _ (run_console _ _), run_bind_of_run _ hrun₁,
      run_bind_of_run _ hrun₂, run_bind_of_run _ hrun₃, run_bind_of_run _ hrun₄]
    exact hrun
  · rw [hprinted, hprinted₄, hprinted₃, hprinted₂, hprinted₁, printed_print]
    simp only [List.append_assoc]
  · have hheader : printedInts [.str "Model / Size / Type", .newline] = [] := rfl
    have hidentify : (s.print [.str "Model / Size / Type", .newline]).bus.identify =
        s.config.identify := rfl
    have hscanned : (s.print [.str "Model / Size / Type", .newline]).bus.scanned =
        s.config.scanned := rfl
    rw [hidentify] at hints₁ hidentify₁
    rw [hscanned] at hints₁ hscanned₁
    rw [hidentify₁, hscanned₁] at hints₂
    rw [hidentify₂, hscanned₂, hidentify₁, hscanned₁] at hints₃
    rw [hidentify₃, hscanned₃, hidentify₂, hscanned₂, hidentify₁, hscanned₁] at hints₄
    simp only [printedInts_append, hheader, hints₁, hints₂, hints₃, hints₄, hints,
      Config.map_answers, Nat.add_assoc, List.nil_append, List.append_nil]

/-- A size that the listing of the partitions reports is the computed one. -/
theorem Listing.size_iff {x : Sector} {stackTail : String} {out : List PrintCall}
    (h : Listing x stackTail 4 0 out) {i : ℕ} (hi : i < 4) (htype : x.slotType i ≠ 0) :
    (∃ lbaFirst mb, Reports out i lbaFirst mb []) ∧
      ((∀ lbaFirst mb, Reports out i lbaFirst mb [] →
          mb.toNat = (PartitionEntry.sectorCount x.mbr (entryAt i)).toNat / 2048) ↔
        (PartitionEntry.sectorCount x.mbr (entryAt i)).toNat < 2 ^ 23) := by
  have hshown := (h.reports (Nat.zero_le i) (by omega) htype).forget
  refine ⟨⟨_, _, hshown⟩, ?_⟩
  rw [← sectorsToMb_eq_iff]
  constructor
  · intro hright
    exact hright _ _ hshown
  · intro hright lbaFirst mb hreports
    obtain ⟨k, rest, -, hk, hindex, -, -, rfl, -⟩ := h.of_reports hreports
    have hnat := congrArg UInt32.toNat hindex
    rw [UInt32.toNat_ofNat', UInt32.toNat_ofNat'] at hnat
    obtain rfl : i = k := by omega
    exact hright

end Shown

/-- What `init_disktool` records, what `display_available_disks` shows and what
`display_partitions` shows for an entry is the number of sectors divided by
2048 exactly when this number is below 2^23. -/
theorem size_mb_iff (s : Machine) :
    (∃ s', initDisktool.run s = some ((), s') ∧
      (s'.config.recordedSizes = s.config.answers.map (fun a => a.totalSectors / 2048) ↔
        ∀ a ∈ s.config.answers, a.totalSectors < 2 ^ 23)) ∧
    (∃ s', displayAvailableDisks.run s = some ((), s') ∧
      ((printedInts (s.newOutput s')).map UInt32.toNat =
          s.config.answers.map (fun a => a.totalSectors / 2048) ↔
        ∀ a ∈ s.config.answers, a.totalSectors < 2 ^ 23)) ∧
    ∃ s', displayPartitions.run s = some ((), s') ∧ (s.bus.next.abort = false →
      ∀ i < 4, (s.bus.media 0 0 0).slotType i ≠ 0 →
        (∃ lbaFirst mb, Reports (s.newOutput s') i lbaFirst mb []) ∧
        ((∀ lbaFirst mb, Reports (s.newOutput s') i lbaFirst mb [] → mb.toNat =
            (PartitionEntry.sectorCount (s.bus.media 0 0 0).mbr (entryAt i)).toNat / 2048) ↔
          (PartitionEntry.sectorCount (s.bus.media 0 0 0).mbr (entryAt i)).toNat < 2 ^ 23)) := by
  have hsizes : s.config.answers.map (fun a => a.sizeMb.toNat) =
      s.config.answers.map (fun a => a.totalSectors / 2048) ↔
        ∀ a ∈ s.config.answers, a.totalSectors < 2 ^ 23 := by
    rw [List.map_inj_left]
    exact forall₂_congr fun a _ => a.sizeMb_eq_iff
  refine ⟨?_, ?_, ?_⟩
  · obtain ⟨s', hrun, hconfig⟩ := run_initDisktool s
    refine ⟨s', hrun, ?_⟩
    rw [hconfig, recordedSizes_rescan]
    exact hsizes
  · obtain ⟨s', calls, hrun, hprinted, hints⟩ := run_displayAvailableDisks s
    refine ⟨s', hrun, ?_⟩
    rw [Machine.newOutput, hprinted, List.drop_left, hints, List.map_map]
    exact hsizes
  · obtain ⟨body, s', hrun, hprinted, -, hlisted⟩ := run_displayPartitions s
    refine ⟨s', hrun, fun hread i hi htype => ?_⟩
    obtain ⟨out, hlisting, hreports⟩ := hlisted hread
    rw [Machine.newOutput, hprinted, List.drop_left]
    simp only [hreports]
    exact hlisting.size_iff hi htype

/-- A drive of 2^23 sectors, which is 4 GB. -/
def fourGigabytes : IdentifyData where
  busy := 0
  word := fun i => if i = 61 then 128 else 0

/-- The drive is the primary master. -/
def fourGigabyteMachine : Machine := blankMachine fun n => if n = 0 then some fourGigabytes else none

/-- The drive of 4096 MB is recorded and shown as one of 0 MB. -/
theorem size_mb_wraps :
    fourGigabyteMachine.Booted ∧
      fourGigabyteMachine.config.answers.map (fun a => a.totalSectors / 2048) = [4096] ∧
      (∃ s', initDisktool.run fourGigabyteMachine = some ((), s') ∧
        s'.config.recordedSizes = [0]) ∧
      ∃ s', displayAvailableDisks.run fourGigabyteMachine = some ((), s') ∧
        (printedInts (fourGigabyteMachine.newOutput s')).map UInt32.toNat = [0] := by
  have hanswers : fourGigabyteMachine.config.answers = [fourGigabytes] := rfl
  refine ⟨blankMachine_booted _, ?_, ?_, ?_⟩
  · rw [hanswers]
    decide
  · obtain ⟨s', hrun, hconfig⟩ := run_initDisktool fourGigabyteMachine
    refine ⟨s', hrun, ?_⟩
    rw [hconfig, recordedSizes_rescan, hanswers]
    decide
  · obtain ⟨s', calls, hrun, hprinted, hints⟩ := run_displayAvailableDisks fourGigabyteMachine
    refine ⟨s', hrun, ?_⟩
    rw [Machine.newOutput, hprinted, List.drop_left, hints, hanswers]
    decide

end EtyOS
