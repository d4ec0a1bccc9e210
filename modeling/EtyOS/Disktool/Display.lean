import EtyOS.Disktool.Disktool

/-!
# The listings: `list_disks`, `display_partitions`, `display_partition_info`

The listing of the partitions is read with `ata_read_sector`, the legacy
routine that knows only one drive. `display_available_disks` asks the drives
itself and does not look at the table of disks.
-/

namespace EtyOS

open Library

/-- The cases of the `switch` on the type code that print one fixed text. -/
def typeName (code : UInt8) : Option String :=
  match code.toNat with
  | 0x83 => some "EXT4"
  | 0x82 => some "Linux swap"
  | 0x07 => some "NTFS"
  | 0x0C => some "FAT32 LBA"
  | 0x0B => some "FAT32"
  | 0x0F => some "Extended"
  | 0x05 => some "Extended"
  | 0x04 => some "FAT16"
  | 0x06 => some "FAT16B"
  | 0x0E => some "FAT16B LBA"
  | _ => none

def hexChars : List Char := "0123456789ABCDEF".toList

/-- The three characters of `hex_str`. -/
def hexStr (code : UInt8) : String :=
  String.ofList [hexChars.getD (code >>> 4).toNat '0', hexChars.getD (code &&& 0x0F).toNat '0', ')']

/-- What is printed for a type code. `hex_str` has no room for a final NUL, so
`print_str` goes on to what lies behind it on the stack. -/
def typeCalls (code : UInt8) (stackTail : String) : List PrintCall :=
  match typeName code with
  | some name => [.str name]
  | none => [.str "Unknown (0x", .str (hexStr code ++ stackTail)]

/-- The volume name of a superblock at address 0, as far as it is printed. -/
def volumeNameCalls (sb : Memory) : List PrintCall :=
  let name := (List.range 16).map fun j => sb (ext4Superblock.offset .sVolumeName + j)
  if name.any (· ≠ 0) then
    [.str " [Volume: "] ++
      ((name.takeWhile (· ≠ 0)).filter fun c => 32 ≤ c ∧ c ≤ 126).map .char ++ [.str "]"]
  else []

/-- The `case 0x83` of the switch, after its text. -/
def displayVolumeName (lbaFirst : UInt32) : Kernel Unit := do
  let superblockLba := lbaFirst + UInt32.ofNat (ext4SuperblockOffset / sectorSize)
  let (rc, sb) ← ataReadSector superblockLba 0 uninitialised
  if rc = 0 then
    if ext4Superblock.get sb 0 .sMagic = ext4Magic then console (volumeNameCalls sb)
    else return ()
  else return ()

/-- The fixed part of the line of an entry, up to its type. -/
def entryLine (mbr : Memory) (i : ℕ) : List PrintCall :=
  [.str "Partition ", .int (UInt32.ofNat i), .str ":",
    .str " Start LBA: ", .int (PartitionEntry.lbaFirst mbr (entryAt i)),
    .str ", Size: ", .int (sectorsToMb (PartitionEntry.sectorCount mbr (entryAt i))),
    .str " MB", .str ", Type: "]

/-- The rest of the line of an ext4 entry. -/
def displayDetails (mbr : Memory) (i : ℕ) : Kernel Unit :=
  if PartitionEntry.type mbr (entryAt i) = 0x83 then
    displayVolumeName (PartitionEntry.lbaFirst mbr (entryAt i))
  else return ()

/-- One entry that is not of type 0. -/
def displayEntry (mbr : Memory) (i : ℕ) : Kernel Unit := do
  let s ← get
  console (entryLine mbr i ++ typeCalls (PartitionEntry.type mbr (entryAt i)) s.stackTail)
  displayDetails mbr i
  console (if PartitionEntry.status mbr (entryAt i) &&& 0x80 ≠ 0 then [.str " [Bootable]"] else [])
  console [.newline]

/-- `for (int i = 0; i < 4; ++i)`. -/
def displayEntries (mbr : Memory) : ℕ → ℕ → Kernel Unit
  | 0, _ => return ()
  | count + 1, i =>
    if PartitionEntry.type mbr (entryAt i) ≠ 0 then do
      displayEntry mbr i
      displayEntries mbr count (i + 1)
    else displayEntries mbr count (i + 1)

def displayPartitions : Kernel Unit := do
  let (rc, mbr) ← ataReadSector 0 0 uninitialised
  if rc ≠ 0 then
    console [.str "Error: Unable to read MBR."]
  else
    console [.str "Partition Table:", .newline]
    displayEntries mbr 4 0

def displayPartitionInfo : Kernel Unit := do
  let s ← get
  if s.currentDisk = -1 then
    console [.str "No disk selected", .newline]
  else
    console [.str "Disk: ", .str (cString s.selected.model), .str " (",
      .int s.selected.sizeMb.toUInt32, .str " MB)", .newline]
    displayPartitions

/-- The lines of `list_disks` from index `i` on. -/
def listDiskLines (s : Machine) : ℕ → ℕ → List PrintCall
  | 0, _ => []
  | count + 1, i =>
    [.str "[", .int (UInt32.ofNat i), .str "] ", .str (cString (s.availableDisks i).model),
      .str " (", .int (s.availableDisks i).sizeMb.toUInt32, .str " MB)", .newline] ++
      listDiskLines s count (i + 1)

def listDisks : Kernel Unit := do
  console [.str "Available Disks:\n", .newline]
  let s ← get
  console (listDiskLines s s.numDisks 0)

/-- The type abbreviation of a drive position. -/
def driveType (controller drive : Fin 2) : String :=
  if controller = 0 ∧ drive = 0 then "PM"
  else if controller = 0 ∧ drive = 1 then "PS"
  else if controller = 1 ∧ drive = 0 then "SM"
  else "SS"

/-- The line of a drive that answered IDENTIFY. -/
def driveLine (controller drive : Fin 2) (buffer : ℕ → UInt16) : List PrintCall :=
  let model := readStringFromIdentify buffer 27 46
  let totalSizeMb := (sectorsToMb (identifySectors buffer)).toUInt64
  [.str (if model.headD 0 = 0 then "(Unknown)" else cString model), .str "  ",
    .int totalSizeMb.toUInt32, .str " MB ", .str (driveType controller drive), .newline]

/-- The body of the two loops, with the count of the drives so far. -/
def displayDrive (controller drive : Fin 2) (driveCount : ℕ) : Kernel ℕ := do
  let answer ← driver fun budget => Driver.identifyDrive budget controller drive
  match answer with
  | none => return driveCount
  | some buffer =>
    console (driveLine controller drive buffer)
    return driveCount + 1

def displayAvailableDisks : Kernel Unit := do
  console [.str "Model / Size / Type", .newline]
  let driveCount ← displayDrive 0 0 0
  let driveCount ← displayDrive 0 1 driveCount
  let driveCount ← displayDrive 1 0 driveCount
  let driveCount ← displayDrive 1 1 driveCount
  if driveCount = 0 then console [.str "No drives found.", .newline] else return ()

end EtyOS
