import EtyOS.Partition.Volume
import EtyOS.Disktool.Listing

/-!
# A new ext4 partition in the listing

What a creation writes to the table and to the superblock sector is what the
listing decodes: start, size and type of the entry, the magic number and the
volume name. No later sector of the formatter is the superblock sector again.
-/

namespace EtyOS

open Library

section Stored

variable (c d : Fin 2) (n : UInt32)

/-- Behind the superblock no sector of a volume is the superblock sector. -/
theorem ext4Plan_tail_ne {w : UInt32 × Sector} (hw : w ∈ (ext4Plan 2048 n).tail) :
    deviceLba w.1 ≠ 2050 := by
  have hlt := n.toNat_lt
  have hgroups := numBlockGroups_toNat 2048 n
  have hsector : w.1.toNat ∈ (ext4Plan 2048 n).tail.map fun w => w.1.toNat :=
    List.mem_map_of_mem (f := fun w : UInt32 × Sector => w.1.toNat) hw
  rw [List.map_tail, ext4Plan_sectors, ← List.map_tail, ext4Offsets_tail] at hsector
  obtain ⟨o, ho, hlba⟩ := List.mem_map.mp hsector
  obtain ⟨g, hg, ho⟩ := List.mem_flatMap.mp ho
  have hg := List.mem_range.mp hg
  unfold groupsOf at hg
  simp only [groupOffsets, List.mem_cons, List.not_mem_nil, or_false] at ho
  change (2048 + o) % 2 ^ 32 = w.1.toNat at hlba
  unfold deviceLba
  omega

namespace DiskState

variable {n} {k : DiskState}

/-- The superblock of a volume that has been formatted. -/
theorem formatExt4_superblock (hdone : (k.formatExt4 c d 2048 n).1 = 0) :
    (k.formatExt4 c d 2048 n).2.media c d 2050 = Sector.ofMemory (superblockMemory n) 0 := by
  have hlba : (2048 : UInt32).toNat + 2 = 2050 := by decide
  have hsector := formatted_sector hdone (.superblock rfl) fun _ h => h.eq_superblock
  rwa [hlba] at hsector

/-- When every operation of a creation transfers its sector, the formatter has succeeded. -/
theorem create_ext4_transferred {i : ℕ} (hslot : (k.media c d 0).freeSlot = some i)
    (hsize : ¬n < 8192) {evs : List Event}
    (htrace : (k.create .ext4 c d 2048 n).trace = k.trace ++ evs)
    (htransferred : ∀ e ∈ evs, e.Transferred) :
    k.CallsFormatter c d ∧ (((k.read c d 0).write c d 0
      ((k.media c d 0).fillSlot i (FileSystemType.code .ext4) 2048 n)).formatExt4 c d 2048 n).1 =
        0 := by
  cases k.create_cases .ext4 c d n with
  | unreadable _ htrace' _ =>
    obtain rfl := List.append_cancel_left (htrace.symm.trans htrace')
    exact absurd (htransferred _ List.mem_cons_self) (by simp [Event.Transferred])
  | full _ hslot' _ _ => simp [hslot] at hslot'
  | unwritten j _ _ _ htrace' =>
    obtain rfl := List.append_cancel_left (htrace.symm.trans htrace')
    exact absurd (htransferred _ (List.mem_cons_of_mem _ List.mem_cons_self))
      (by simp [Event.Transferred])
  | formatted j evs' result hread hslot' hwrite hops hformat hresult htrace' hzero =>
    obtain rfl := List.append_cancel_left (htrace.symm.trans htrace')
    obtain rfl : j = i := Option.some.inj (hslot'.symm.trans hslot)
    have hdone : result = 0 :=
      hresult.mpr ⟨fun h => hsize h.2, fun e he => htransferred e (by simp [he])⟩
    exact ⟨⟨hread, by simp [hslot], hwrite⟩, hformat.symm.trans hdone⟩

/-- The sectors that a creation leaves when every operation transfers its sector. -/
theorem create_ext4_stored {i : ℕ} (hslot : (k.media c d 0).freeSlot = some i)
    (hsize : ¬n < 8192) {evs : List Event}
    (htrace : (k.create .ext4 c d 2048 n).trace = k.trace ++ evs)
    (htransferred : ∀ e ∈ evs, e.Transferred) :
    (k.create .ext4 c d 2048 n).media c d 0 =
        (k.media c d 0).fillSlot i (FileSystemType.code .ext4) 2048 n ∧
      (k.create .ext4 c d 2048 n).media c d 2050 = Sector.ofMemory (superblockMemory n) 0 ∧
      ∃ later, evs.filterMap Event.written = 0 :: 2050 :: later ∧
        ∀ lba ∈ later, deviceLba lba ≠ 2050 := by
  obtain ⟨hcalls, hdone⟩ := create_ext4_transferred c d hslot hsize htrace htransferred
  obtain ⟨k', j, hj, hk', hformat, hbefore⟩ := k.create_of_calls c d 2048 n .ext4 hcalls
  obtain rfl : j = i := Option.some.inj (hj.symm.trans hslot)
  rw [← hk'] at hdone
  obtain ⟨evs', hevs', -, hwritten⟩ := k'.formatExt4_events c d 2048 n
  refine ⟨?_, ?_, ?_⟩
  · rw [create_sector_zero, filledSlot, hcalls.1, if_neg (by simp),
      if_pos (stores_of_ok _ hcalls.2.2), hslot]
  · rw [hformat, format, log_media, formatter]
    exact formatExt4_superblock c d hdone
  · refine ⟨(ext4Plan 2048 n).tail.map Prod.fst, ?_, ?_⟩
    · have hall : k.trace ++ evs = k.trace ++ ([.read c d 0 true, .write c d 0
          ((k.media c d 0).fillSlot j (FileSystemType.code .ext4) 2048 n) true] ++ (evs' ++
            [.format .ext4 c d 2048 n (k'.formatter .ext4 c d 2048 n).1])) := by
        rw [← htrace, hformat, format, log, formatter, hevs', hbefore]
        simp
      rw [List.append_cancel_left hall, List.filterMap_append, List.filterMap_append,
        hwritten hdone, map_fst_ext4Plan]
      have hfront : ∀ x, [Event.read c d 0 true, .write c d 0 x true].filterMap Event.written =
          [0] := fun _ => rfl
      have hback : ∀ rc, [Event.format .ext4 c d 2048 n rc].filterMap Event.written = [] :=
        fun _ => rfl
      rw [hfront, hback, List.append_nil, List.singleton_append]
      rfl
    · intro lba hlba
      obtain ⟨w, hw, rfl⟩ := List.mem_map.mp hlba
      exact ext4Plan_tail_ne n hw

end DiskState

end Stored

section Decoded

variable {x : Sector} {i : ℕ} (n : UInt32)

/-- The table entry that a creation fills, as the listing decodes it. -/
theorem fillSlot_decoded (hslot : x.freeSlot = some i) :
    PartitionEntry.type (x.fillSlot i 0x83 2048 n).mbr (entryAt i) = 0x83 ∧
      PartitionEntry.lbaFirst (x.fillSlot i 0x83 2048 n).mbr (entryAt i) = 2048 ∧
      PartitionEntry.sectorCount (x.fillSlot i 0x83 2048 n).mbr (entryAt i) = n ∧
      PartitionEntry.status (x.fillSlot i 0x83 2048 n).mbr (entryAt i) = 0 := by
  obtain ⟨i, rfl, -⟩ := exists_entry_of_freeSlot hslot
  have hentry : (x.fillSlot i 0x83 2048 n).table i =
      (x.table i).fill (0x83 : UInt8).toNat (2048 : UInt32).toNat n.toNat := by
    rw [table_fillSlot, Function.update_self]
  have htype := congrArg (fun e : MbrEntry => UInt8.ofNat e.type) hentry
  have hlba := congrArg (fun e : MbrEntry => UInt32.ofNat e.lbaFirst) hentry
  have hcount := congrArg (fun e : MbrEntry => UInt32.ofNat e.sectorCount) hentry
  have hstatus := congrArg (fun e : MbrEntry => UInt8.ofNat e.status) hentry
  simp only [MbrEntry.fill, UInt32.ofNat_toNat, UInt8.ofNat_toNat] at htype hlba hcount hstatus
  exact ⟨htype, hlba, hcount, hstatus⟩

theorem superblock_magic (m : Memory) :
    ext4Superblock.get ((Sector.ofMemory (superblockMemory n) 0).toMemory m 0) 0 .sMagic =
      ext4Magic := by
  rw [ext4Superblock.get_of_shows (Sector.ofMemory_shows m _) (by decide),
    get_superblockMemory n (v := ext4Magic) (by simp [superblockFields])]
  decide

/-- The volume name of a fresh volume as it is printed. -/
def freshNameCalls : List PrintCall :=
  .str " [Volume: " :: volumeName.map PrintCall.char ++ [.str "]"]

theorem superblock_volumeName (m : Memory) :
    volumeNameCalls ((Sector.ofMemory (superblockMemory n) 0).toMemory m 0) = freshNameCalls := by
  have hbyte : ∀ j ∈ List.range 16, (Sector.ofMemory (superblockMemory n) 0).toMemory m 0
      (ext4Superblock.offset .sVolumeName + j) = (volumeName[j]?).getD 0 := by
    intro j hj
    have hj := List.mem_range.mp hj
    have hshow := Sector.ofMemory_shows m (superblockMemory n) (120 + j) (by omega)
    rw [Nat.zero_add] at hshow
    rw [offset_sVolumeName, hshow, superblockMemory, offset_sVolumeName, size_sVolumeName,
      Memory.write_apply, Memory.fill_apply, if_pos (by omega)]
  have hname : (List.range 16).map (fun j => (Sector.ofMemory (superblockMemory n) 0).toMemory m 0
      (ext4Superblock.offset .sVolumeName + j)) = volumeName ++ List.replicate 11 0 :=
    (List.map_congr_left hbyte).trans (by decide)
  rw [volumeNameCalls, hname]
  decide

end Decoded

section Display

/-- The output and the record go on, and the disks are as before. -/
structure Machine.Continues (s s' : Machine) : Prop where
  printed : ∃ calls, s'.printed = s.printed ++ calls
  trace : ∃ evs, s'.trace = s.trace ++ evs
  media : s'.bus.media = s.bus.media

variable {s s' : Machine} {mbr : Memory} {i : ℕ}

theorem displayEntries_append (mbr : Memory) (m n i : ℕ) :
    displayEntries mbr (m + n) i =
      (do displayEntries mbr m i; displayEntries mbr n (i + m)) := by
  induction m generalizing i with
  | zero => simp [displayEntries]
  | succ m ih =>
    have hstart : i + 1 + m = i + (m + 1) := by omega
    rw [Nat.succ_add, displayEntries, displayEntries, ih, hstart]
    split <;> simp

theorem displayEntries_continues (x : Sector) (n i : ℕ) (hs : s.Ready) :
    ∃ s', (displayEntries x.mbr n i).run s = some ((), s') ∧ s.Continues s' ∧ s'.Ready := by
  obtain ⟨out, s', hrun, hprinted, -⟩ := run_displayEntries x n i s
  obtain ⟨-, hsystem, hready⟩ := (displayEntries_does x.mbr n i).inversion hs hrun
  have hdisk : s'.disk = s.disk.displayEntries x.mbr n i := congrArg System.disk hsystem
  obtain ⟨evs, htrace, -⟩ := s.disk.displayEntries_trace x.mbr n i
  refine ⟨s', hrun, ⟨⟨out, hprinted⟩, ⟨evs, ?_⟩, ?_⟩, hready⟩
  · exact (congrArg DiskState.trace hdisk).trans htrace
  · exact (congrArg DiskState.media hdisk).trans (s.disk.displayEntries_media x.mbr n i)

/-- The name of a volume that is found behind the MBR. -/
theorem run_displayVolumeName_found {n : UInt32}
    (hsuper : s.bus.media 0 0 2050 = Sector.ofMemory (superblockMemory n) 0)
    (hread : s.bus.next.abort = false) :
    (displayVolumeName 2048).run s = some ((), (s.read 0 0 (2048 + 2)).print
      freshNameCalls) := by
  have hrun := run_readSector 0 0 (2048 + 2) 0 uninitialised s
  have hsector : s.bus.media 0 0 (deviceLba (2048 + 2)) =
      Sector.ofMemory (superblockMemory n) 0 := hsuper
  rw [hread, if_neg (by simp), hsector] at hrun
  rw [displayVolumeName, ataReadSector_eq_disk, superblockSector_eq, run_bind_of_run _ hrun]
  dsimp only
  rw [if_pos rfl, superblock_magic, if_pos rfl, superblock_volumeName]
  exact run_console _ _

/-- The entry of an ext4 partition: the superblock is looked for behind its start. -/
theorem run_displayEntry_ext4 (htype : PartitionEntry.type mbr (entryAt i) = 0x83)
    (hlba : PartitionEntry.lbaFirst mbr (entryAt i) = 2048)
    (hstatus : PartitionEntry.status mbr (entryAt i) = 0) {n : UInt32}
    (hsuper : s.bus.media 0 0 2050 = Sector.ofMemory (superblockMemory n) 0) (hs : s.Ready) :
    ∃ ok s', (displayEntry mbr i).run s = some ((), s') ∧ s'.Ready ∧
      s'.trace = s.trace ++ [.read 0 0 (2048 + 2) ok] ∧ (ok = true →
        s'.printed = s.printed ++ (entryLine mbr i ++ [.str "EXT4"] ++ freshNameCalls ++
          [.newline])) := by
  obtain ⟨details, s', hrun, -⟩ := run_displayEntry mbr i s
  obtain ⟨-, hsystem, hready⟩ := (displayEntry_does mbr i).inversion hs hrun
  have hdisk : s'.disk = s.disk.displayEntry mbr i := congrArg System.disk hsystem
  have htrace : s'.trace = s.trace ++ [.read 0 0 (2048 + 2) (!s.bus.next.abort)] := by
    have hentry := congrArg DiskState.trace hdisk
    rw [DiskState.displayEntry, if_pos htype, hlba] at hentry
    exact hentry
  refine ⟨!s.bus.next.abort, s', hrun, hready, htrace, ?_⟩
  intro hok
  have hread : s.bus.next.abort = false := by simpa using hok
  have hname := run_displayVolumeName_found (s := s.print (entryLine mbr i ++ [.str "EXT4"]))
    hsuper hread
  have hdetails : displayDetails mbr i = displayVolumeName 2048 := by
    rw [displayDetails, if_pos htype, hlba]
  have hline : typeCalls (PartitionEntry.type mbr (entryAt i)) s.stackTail = [.str "EXT4"] := by
    rw [htype]
    rfl
  rw [displayEntry, run_bind_of_run _ (run_get s), hline,
    run_bind_of_run _ (run_console _ _), hdetails, run_bind_of_run _ hname, hstatus,
    run_bind_of_run _ (run_console _ _), run_console] at hrun
  obtain ⟨-, rfl⟩ := Prod.mk.inj (Option.some.inj hrun)
  have hplain : (if (0 : UInt8) &&& 0x80 ≠ 0 then [PrintCall.str " [Bootable]"] else []) = [] :=
    if_neg (by decide)
  have hbefore : ((s.print (entryLine mbr i ++ [.str "EXT4"])).read 0 0 (2048 + 2)).printed =
      s.printed ++ (entryLine mbr i ++ [.str "EXT4"]) := rfl
  simp only [printed_print, hplain, hbefore, List.append_nil, List.append_assoc]

/-- The line of a new ext4 partition. -/
def ext4Line (i : ℕ) (n : UInt32) : List PrintCall :=
  listingLine i 2048 (sectorsToMb n) ++ [.str "EXT4"] ++ freshNameCalls ++ [.newline]

/-- The loop over the entries of a table with a new ext4 partition. -/
theorem run_displayEntries_ext4 (hs : s.Ready) {x : Sector} (hslot : x.freeSlot = some i)
    {n : UInt32} (hsuper : s.bus.media 0 0 2050 = Sector.ofMemory (superblockMemory n) 0) :
    ∃ s' evs, (displayEntries (x.fillSlot i 0x83 2048 n).mbr 4 0).run s = some ((), s') ∧
      s'.trace = s.trace ++ evs ∧ ((∀ e ∈ evs, e.Transferred) →
        (∃ before after, s'.printed = s.printed ++ (before ++ ext4Line i n ++ after)) ∧
        .read 0 0 (2048 + 2) true ∈ evs) := by
  obtain ⟨htype, hlba, hcount, hstatus⟩ := fillSlot_decoded n hslot
  have hi : i < 4 := List.mem_range.mp (List.mem_of_find?_eq_some hslot)
  -- the entries before slot `i`, slot `i`, the entries behind it
  obtain ⟨s₁, hrun₁, hcont₁, hs₁⟩ := displayEntries_continues (x.fillSlot i 0x83 2048 n) i 0 hs
  obtain ⟨ok, s₂, hrun₂, hs₂, htrace₂, hprinted₂⟩ := run_displayEntry_ext4 htype hlba hstatus
    (by rw [hcont₁.media]; exact hsuper) hs₁
  obtain ⟨s₃, hrun₃, hcont₃, -⟩ :=
    displayEntries_continues (x.fillSlot i 0x83 2048 n) (3 - i) (i + 1) hs₂
  obtain ⟨before, hbefore⟩ := hcont₁.printed
  obtain ⟨evs₁, hevs₁⟩ := hcont₁.trace
  obtain ⟨after, hafter⟩ := hcont₃.printed
  obtain ⟨evs₃, hevs₃⟩ := hcont₃.trace
  refine ⟨s₃, evs₁ ++ [.read 0 0 (2048 + 2) ok] ++ evs₃, ?_, ?_, ?_⟩
  · have hsplit : 4 = i + (3 - i + 1) := by omega
    rw [hsplit, displayEntries_append, run_bind_of_run _ hrun₁, Nat.zero_add, displayEntries,
      if_pos (by rw [htype]; decide), run_bind_of_run _ hrun₂]
    exact hrun₃
  · rw [hevs₃, htrace₂, hevs₁]
    simp
  · intro htransferred
    have hok : ok = true := htransferred (.read 0 0 (2048 + 2) ok) (by simp)
    subst hok
    refine ⟨⟨before, after, ?_⟩, by simp⟩
    have hline : entryLine (x.fillSlot i 0x83 2048 n).mbr i =
        listingLine i 2048 (sectorsToMb n) := by
      rw [entryLine, hlba, hcount]
      rfl
    rw [hafter, hprinted₂ rfl, hbefore, hline, ext4Line]
    simp only [List.append_assoc]

/-- The listing of a table with a new ext4 partition, if its operations transfer their sectors. -/
theorem run_displayPartitions_ext4 (hs : s.Ready) {x : Sector} (hslot : x.freeSlot = some i)
    {n : UInt32} (hmbr : s.bus.media 0 0 0 = x.fillSlot i 0x83 2048 n)
    (hsuper : s.bus.media 0 0 2050 = Sector.ofMemory (superblockMemory n) 0) :
    ∃ s' evs, displayPartitions.run s = some ((), s') ∧ s'.trace = s.trace ++ evs ∧
      ((∀ e ∈ evs, e.Transferred) →
        ext4Line i n <:+: s.newOutput s' ∧ .read 0 0 (2048 + 2) true ∈ evs) := by
  have hrun := run_readSector 0 0 0 0 uninitialised s
  by_cases habort : s.bus.next.abort = true
  · rw [if_pos habort] at hrun
    have hfail : displayPartitions.run s = some ((), ((s.read 0 0 0).print
        [.str "Error reading from disk."]).print [.str "Error: Unable to read MBR."]) := by
      rw [displayPartitions, ataReadSector_eq_disk, run_bind_of_run _ hrun]
      exact run_console _ _
    refine ⟨_, [.read 0 0 0 false], hfail, ?_, ?_⟩
    · simp [Machine.print, Machine.read, habort]
    · intro htransferred
      simp [Event.Transferred] at htransferred
  · rw [if_neg habort, deviceLba_zero, hmbr] at hrun
    obtain ⟨s', evs, hentries, htrace, hlisted⟩ := run_displayEntries_ext4
      (s := (s.read 0 0 0).print [.str "Partition Table:", .newline]) hs hslot hsuper
    refine ⟨s', .read 0 0 0 true :: evs, ?_, ?_, ?_⟩
    · rw [displayPartitions, ataReadSector_eq_disk, run_bind_of_run _ hrun]
      dsimp only
      rw [if_neg (by simp), run_bind_of_run _ (run_console _ _)]
      exact hentries
    · rw [htrace]
      simp [Machine.print, Machine.read, habort]
    · intro htransferred
      obtain ⟨⟨before, after, hprinted⟩, hmem⟩ :=
        hlisted fun e he => htransferred e (List.mem_cons_of_mem _ he)
      refine ⟨⟨[.str "Partition Table:", .newline] ++ before, after, ?_⟩,
        List.mem_cons_of_mem _ hmem⟩
      have hout : s'.printed = s.printed ++ ([.str "Partition Table:", .newline] ++ (before ++
          ext4Line i n ++ after)) := by
        rw [hprinted, printed_print, List.append_assoc]
        rfl
      rw [Machine.newOutput, hout, List.drop_left]
      simp only [List.append_assoc]

end Display

/-- An ext4 partition created on the primary master shows up in the listing: if
every operation of both transfers its sector, the superblock is still the one
that was assembled, no later write has gone to its sector, and the listing
finds its magic number and prints the entry with the volume name. -/
theorem create_then_display {s : Machine} (hs : s.Ready) {i : ℕ}
    (hslot : (s.bus.media 0 0 0).freeSlot = some i) {n : UInt32} (hsize : 8192 ≤ n.toNat) :
    ∃ s₁ s₂, (createExt4Partition 0 0 2048 n).run s = some ((), s₁) ∧
      displayPartitions.run s₁ = some ((), s₂) ∧ ((∀ e ∈ s.newEvents s₂, e.Transferred) →
        ext4Line i n <:+: s₁.newOutput s₂ ∧
        .read 0 0 (2048 + 2) true ∈ s₁.newEvents s₂ ∧
        ext4Superblock.get ((s₁.bus.media 0 0 (deviceLba (2048 + 2))).toMemory uninitialised 0) 0
          .sMagic = ext4Magic ∧
        s₁.bus.media 0 0 (deviceLba (2048 + 2)) = Sector.ofMemory (superblockMemory n) 0 ∧
        ∃ later, (s.newEvents s₁).filterMap Event.written = 0 :: (2048 + 2) :: later ∧
          ∀ lba ∈ later, deviceLba lba ≠ deviceLba (2048 + 2)) := by
  have hsmall : ¬n < 8192 := by
    rw [UInt32.lt_iff_toNat_lt]
    exact Nat.not_lt.mpr hsize
  obtain ⟨s₁, hcreate, hsystem₁, hs₁⟩ := createExt4Partition_does 0 0 2048 n s hs
  obtain ⟨s₂, hdisplay, hsystem₂, -⟩ := displayPartitions_does s₁ hs₁
  have hdisk₁ : s₁.disk = s.disk.create .ext4 0 0 2048 n := congrArg System.disk hsystem₁
  have hdisk₂ : s₂.disk = s₁.disk.displayPartitions := congrArg System.disk hsystem₂
  obtain ⟨evs₁, htrace₁⟩ := s.disk.create_trace .ext4 0 0 n
  rw [← hdisk₁] at htrace₁
  obtain ⟨evs₂, htrace₂, -⟩ := s₁.disk.displayPartitions_trace
  rw [← hdisk₂] at htrace₂
  have hboth : s₂.disk.trace = s.disk.trace ++ (evs₁ ++ evs₂) := by
    rw [htrace₂, htrace₁, List.append_assoc]
  refine ⟨s₁, s₂, hcreate, hdisplay, ?_⟩
  intro htransferred
  rw [Machine.newEvents_of_append hboth] at htransferred
  obtain ⟨hcreated, hdisplayed⟩ := List.forall_mem_append.mp htransferred
  have hstored := DiskState.create_ext4_stored 0 0 (k := s.disk) hslot hsmall
    (by rw [← hdisk₁]; exact htrace₁) hcreated
  rw [← hdisk₁] at hstored
  obtain ⟨hmbr, hsuper, hlater⟩ := hstored
  obtain ⟨s₃, evs₃, hdisplay', htrace₃, hshown⟩ :=
    run_displayPartitions_ext4 hs₁ hslot hmbr hsuper
  obtain ⟨-, rfl⟩ := Prod.mk.inj (Option.some.inj (hdisplay'.symm.trans hdisplay))
  obtain rfl : evs₃ = evs₂ := List.append_cancel_left (htrace₃.symm.trans htrace₂)
  obtain ⟨hline, hread⟩ := hshown hdisplayed
  have hsuper' : s₁.bus.media 0 0 (deviceLba (2048 + 2)) =
      Sector.ofMemory (superblockMemory n) 0 := hsuper
  refine ⟨hline, ?_, ?_, hsuper', ?_⟩
  · rw [Machine.newEvents_of_append htrace₂]
    exact hread
  · rw [hsuper']
    exact superblock_magic n _
  · rw [Machine.newEvents_of_append htrace₁]
    exact hlater

/-- On a blank medium every operation of the creation and of the listing transfers. -/
theorem blank_transferred {s₁ s₂ : Machine}
    (hcreate : (createExt4Partition 0 0 2048 8192).run (blankMachine fun _ => none) = some ((), s₁))
    (hdisplay : displayPartitions.run s₁ = some ((), s₂)) :
    ∀ e ∈ (blankMachine fun _ => none).newEvents s₂, e.Transferred := by
  have hready : (blankMachine fun _ => none).Ready := (blankMachine_booted _).ready
  obtain ⟨s₁', hcreate', hsystem₁, hs₁⟩ := createExt4Partition_does 0 0 2048 8192 _ hready
  obtain ⟨-, rfl⟩ := Prod.mk.inj (Option.some.inj (hcreate'.symm.trans hcreate))
  obtain ⟨s₂', hdisplay', hsystem₂, -⟩ := displayPartitions_does s₁' hs₁
  obtain ⟨-, rfl⟩ := Prod.mk.inj (Option.some.inj (hdisplay'.symm.trans hdisplay))
  have hdisk₁ : s₁'.disk = (blankMachine fun _ => none).disk.create .ext4 0 0 2048 8192 :=
    congrArg System.disk hsystem₁
  have hdisk₂ : s₂'.disk = s₁'.disk.displayPartitions := congrArg System.disk hsystem₂
  have htrace : ∀ e ∈ ((blankMachine fun _ => none).disk.create .ext4 0 0 2048
      8192).displayPartitions.trace, e.Transferred := by decide +kernel
  intro e he
  apply htrace
  rw [← hdisk₁, ← hdisk₂]
  exact List.mem_of_mem_drop he

/-- On an empty primary master, with the smallest accepted size, everything transfers and the
listing shows the partition. -/
theorem create_then_display_blank :
    ∃ s₁ s₂, (createExt4Partition 0 0 2048 8192).run (blankMachine fun _ => none) =
        some ((), s₁) ∧ displayPartitions.run s₁ = some ((), s₂) ∧
      ext4Line 0 8192 <:+: s₁.newOutput s₂ ∧
      .read 0 0 (2048 + 2) true ∈ s₁.newEvents s₂ ∧
      ext4Superblock.get ((s₁.bus.media 0 0 (deviceLba (2048 + 2))).toMemory uninitialised 0) 0
        .sMagic = ext4Magic ∧
      s₁.bus.media 0 0 (deviceLba (2048 + 2)) = Sector.ofMemory (superblockMemory 8192) 0 ∧
      ∃ later, ((blankMachine fun _ => none).newEvents s₁).filterMap Event.written =
          0 :: (2048 + 2) :: later ∧
        ∀ lba ∈ later, deviceLba lba ≠ deviceLba (2048 + 2) := by
  have hslot : ((blankMachine fun _ => none).bus.media 0 0 0).freeSlot = some 0 := by decide
  have hsize : 8192 ≤ (8192 : UInt32).toNat := by decide
  obtain ⟨s₁, s₂, hcreate, hdisplay, hshown⟩ :=
    create_then_display (blankMachine_booted _).ready hslot hsize
  exact ⟨s₁, s₂, hcreate, hdisplay, hshown (blank_transferred hcreate hdisplay)⟩

end EtyOS
