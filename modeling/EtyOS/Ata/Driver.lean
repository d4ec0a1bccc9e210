import EtyOS.Library.ByteMemory
import EtyOS.Ata.Device

/-!
# The ATA driver of `filesystem.c`

The sector routines as port programs, each of the four written out as it stands
there. A buffer is a memory and the address at which it starts. Controllers and
drives are the loop indices 0 and 1 of the callers. The bound on a polling loop
is an argument: on the modelled device a command clears BSY after finitely many
status reads, and `Ports.patience` is large enough for the next command.
-/

namespace EtyOS

open Library PortProgram

def sectorSize : ℕ := 512
def ataPrimaryIoBase : UInt16 := 0x1F0
def ataSecondaryIoBase : UInt16 := 0x170
def ataCmdIdentify : UInt8 := 0xEC
def ataCmdReadSectors : UInt8 := 0x20
def ataCmdWriteSectors : UInt8 := 0x30

/-- `io_base`, chosen by the controller. -/
def ioBase (controller : Fin 2) : UInt16 :=
  if controller = 0 then ataPrimaryIoBase else ataSecondaryIoBase

/-- `0xE0 | ((drive << 4) & 0x10) | ((lba >> 24) & 0x0F)`, computed in 32 bits. -/
def selectByte (drive : Fin 2) (lba : UInt32) : UInt8 :=
  ((0xE0 : UInt32) ||| ((Int32.ofNat drive <<< 4) &&& 0x10).toUInt32 |||
    ((lba >>> 24) &&& 0x0F)).toUInt8

/-- `0xE0 | ((lba >> 24) & 0x0F)`: the master, in LBA mode. -/
def selectMaster (lba : UInt32) : UInt8 := ((0xE0 : UInt32) ||| ((lba >>> 24) &&& 0x0F)).toUInt8

/-- `buffer[i*2] | (buffer[i*2+1] << 8)`. -/
def packWord (m : Memory) (buffer i : ℕ) : UInt16 :=
  (m (buffer + i * 2)).toUInt16 ||| ((m (buffer + (i * 2 + 1))).toUInt16 <<< 8)

/-- `buffer[i*2] = (uint8_t)data; buffer[i*2+1] = (uint8_t)(data >> 8);`. -/
def unpackWord (m : Memory) (buffer i : ℕ) (data : UInt16) : Memory :=
  Function.update (Function.update m (buffer + i * 2) data.toUInt8)
    (buffer + (i * 2 + 1)) (data >>> 8).toUInt8

namespace Driver

section Routines

variable (budget : ℕ) (controller drive : Fin 2) (lba : UInt32) (buffer : ℕ) (m : Memory)

def ataWriteSector : PortProgram ℤ := do
  writeByte (ataPrimaryIoBase + 6) (selectMaster lba)
  writeByte (ataPrimaryIoBase + 2) 1
  writeByte (ataPrimaryIoBase + 3) lba.toUInt8
  writeByte (ataPrimaryIoBase + 4) (lba >>> 8).toUInt8
  writeByte (ataPrimaryIoBase + 5) (lba >>> 16).toUInt8
  writeByte (ataPrimaryIoBase + 7) ataCmdWriteSectors
  pollUntilClear (ataPrimaryIoBase + 7) 0x80 budget
  let status ← readByte (ataPrimaryIoBase + 7)
  if status &&& 0x01 ≠ 0 then
    emit "Error: Disk reported an error before writing."
    return -1
  else
    forRange (fun i _ => writeWord ataPrimaryIoBase (packWord m buffer i)) (sectorSize / 2) 0 ()
    pollUntilClear (ataPrimaryIoBase + 7) 0x80 budget
    let status ← readByte (ataPrimaryIoBase + 7)
    if status &&& 0x01 ≠ 0 then
      emit "Error: Disk reported an error after writing."
      return -1
    else
      return 0

def ataWriteSectorDisk : PortProgram ℤ := do
  writeByte (ioBase controller + 6) (selectByte drive lba)
  writeByte (ioBase controller + 2) 1
  writeByte (ioBase controller + 3) lba.toUInt8
  writeByte (ioBase controller + 4) (lba >>> 8).toUInt8
  writeByte (ioBase controller + 5) (lba >>> 16).toUInt8
  writeByte (ioBase controller + 7) ataCmdWriteSectors
  pollUntilClear (ioBase controller + 7) 0x80 budget
  let status ← readByte (ioBase controller + 7)
  if status &&& 0x01 ≠ 0 then
    emit "Error: Disk reported an error before writing."
    return -1
  else
    forRange (fun i _ => writeWord (ioBase controller) (packWord m buffer i)) (sectorSize / 2) 0 ()
    pollUntilClear (ioBase controller + 7) 0x80 budget
    let status ← readByte (ioBase controller + 7)
    if status &&& 0x01 ≠ 0 then
      emit "Error: Disk reported an error after writing."
      return -1
    else
      return 0

def ataReadSectorDisk : PortProgram (ℤ × Memory) := do
  writeByte (ioBase controller + 6) (selectByte drive lba)
  writeByte (ioBase controller + 2) 1
  writeByte (ioBase controller + 3) lba.toUInt8
  writeByte (ioBase controller + 4) (lba >>> 8).toUInt8
  writeByte (ioBase controller + 5) (lba >>> 16).toUInt8
  writeByte (ioBase controller + 7) ataCmdReadSectors
  pollUntilClear (ioBase controller + 7) 0x80 budget
  let status ← readByte (ioBase controller + 7)
  if status &&& 0x01 ≠ 0 then
    emit "Error reading from disk."
    return (-1, m)
  else
    let m ← forRange (fun i m => do
      let data ← readWord (ioBase controller)
      return unpackWord m buffer i data) (sectorSize / 2) 0 m
    return (0, m)

def ataReadSector : PortProgram (ℤ × Memory) := do
  writeByte (ataPrimaryIoBase + 6) (selectMaster lba)
  writeByte (ataPrimaryIoBase + 2) 1
  writeByte (ataPrimaryIoBase + 3) lba.toUInt8
  writeByte (ataPrimaryIoBase + 4) (lba >>> 8).toUInt8
  writeByte (ataPrimaryIoBase + 5) (lba >>> 16).toUInt8
  writeByte (ataPrimaryIoBase + 7) ataCmdReadSectors
  pollUntilClear (ataPrimaryIoBase + 7) 0x80 budget
  let status ← readByte (ataPrimaryIoBase + 7)
  if status &&& 0x01 ≠ 0 then
    emit "Error reading from disk."
    return (-1, m)
  else
    let m ← forRange (fun i m => do
      let data ← readWord ataPrimaryIoBase
      return unpackWord m buffer i data) (sectorSize / 2) 0 m
    return (0, m)

end Routines

/-- The IDENTIFY exchange that `init_disktool` has with one drive position:
`none` when the status reads zero, else the 256 words. -/
def identifyDrive (budget : ℕ) (controller drive : Fin 2) :
    PortProgram (Option (ℕ → UInt16)) := do
  writeByte (ioBase controller + 6) ((0xA0 : UInt8) ||| (UInt8.ofNat drive.val <<< 4))
  writeByte (ioBase controller + 7) ataCmdIdentify
  let status ← readByte (ioBase controller + 7)
  if status = 0 then
    return none
  else
    pollUntilClear (ioBase controller + 7) 0x80 budget
    let buffer ← forRange (fun i (buffer : ℕ → UInt16) => do
      let data ← readWord (ioBase controller)
      return Function.update buffer i data) 256 0 (fun _ => 0)
    return some buffer

end Driver

/-- A budget of status reads that outlasts the next sector command and the next
IDENTIFY. -/
def Ports.patience (s : Ports) : ℕ :=
  s.bus.next.busy + s.bus.next.busyAfter +
    (match s.bus.identify s.bus.scanned with | none => 0 | some d => d.busy) + 1

end EtyOS
