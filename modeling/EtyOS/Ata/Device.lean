import Mathlib.Tactic
import EtyOS.Library.PortProgram
import EtyOS.Console.PrintCall

/-!
# A two-channel ATA device

Each channel latches a drive/head register and three address registers, so it
addresses one of two drives and a 28-bit sector number. READ SECTORS delivers
the addressed sector as 256 words, WRITE SECTORS takes the next 256 words,
IDENTIFY delivers 256 words that describe the drive, or is refused with ERR
as a packet drive does, or answers with status zero when there is no drive.
How long a command stays busy and whether it fails is not the driver's choice:
it is read off two streams, one answer for each sector command and one for
each IDENTIFY.
-/

namespace EtyOS

open Library

/-- The 512 bytes of a sector. -/
abbrev Sector := Fin 512 → UInt8

/-- Word `i` of a sector, low byte first. -/
def Sector.word (x : Sector) (i : ℕ) : UInt16 :=
  if h : 2 * i + 1 < 512 then
    (x ⟨2 * i, by omega⟩).toUInt16 ||| ((x ⟨2 * i + 1, h⟩).toUInt16 <<< 8)
  else 0

/-- The sector that holds the words `w 0`, ..., `w 255`. -/
def Sector.ofWords (w : ℕ → UInt16) : Sector :=
  fun i => if i.val % 2 = 0 then (w (i.val / 2)).toUInt8 else (w (i.val / 2) >>> 8).toUInt8

def blankSector : Sector := fun _ => 0

/-- How a drive answers one READ SECTORS or WRITE SECTORS. -/
structure Answer where
  /-- Status reads that still show BSY before the drive is ready. -/
  busy : ℕ
  /-- ERR is set once the drive is ready: no word is transferred. -/
  abort : Bool
  /-- After the last word of a WRITE: status reads that still show BSY. -/
  busyAfter : ℕ
  /-- After the last word of a WRITE: ERR is set. -/
  failed : Bool
  /-- A WRITE that ends in ERR has stored its words all the same. -/
  kept : Bool

/-- The drive transfers the sector and reports no error. -/
def Answer.ok (a : Answer) : Prop := a.abort = false ∧ a.failed = false

instance (a : Answer) : Decidable a.ok := inferInstanceAs (Decidable (_ ∧ _))

/-- A drive that does what it is told at once. -/
def promptAnswer : Answer where
  busy := 0
  abort := false
  busyAfter := 0
  failed := false
  kept := false

/-- What a present drive answers to IDENTIFY. -/
structure IdentifyData where
  busy : ℕ
  /-- The words that come over the data port, whether or not they describe the drive. -/
  word : ℕ → UInt16
  /-- ERR is set and DRQ is clear once the drive is ready: it has no words to give. -/
  refused : Bool := false

/-- What a channel is doing. `drq` tells the words that a drive gives from those that the
data port shows all the same after a refusal. -/
inductive Phase where
  | idle
  | failed
  | absent
  | dataIn (drq : Bool) (word : ℕ → UInt16) (pos : ℕ)
  | dataOut (answer : Answer) (word : ℕ → UInt16) (pos : ℕ)

/-- The drive has failed or refused the command. -/
@[simp]
def Phase.err : Phase → Bool
  | .failed => true
  | .dataIn drq _ _ => !drq
  | _ => false

/-- The registers of one channel. -/
structure Channel where
  select : UInt8
  low : UInt8
  mid : UInt8
  high : UInt8
  busy : ℕ
  phase : Phase

/-- Two channels with two drives each, numbered from zero. -/
instance twoNeZero : NeZero 2 := ⟨two_ne_zero⟩

namespace Channel

/-- Bit 4 of the drive/head register. -/
def drive (ch : Channel) : Fin 2 := if ch.select &&& 0x10 = 0 then 0 else 1

/-- The latched 28-bit sector number. -/
def lba (ch : Channel) : ℕ :=
  ch.low.toNat + 2 ^ 8 * ch.mid.toNat + 2 ^ 16 * ch.high.toNat +
    2 ^ 24 * (ch.select &&& 0x0F).toNat

def status (ch : Channel) : UInt8 :=
  match ch.phase with
  | .absent => 0
  | phase => if 0 < ch.busy then 0x80 else if phase.err then 0x41 else 0x58

/-- The registers kept, and a new activity. -/
def doing (ch : Channel) (busy : ℕ) (phase : Phase) : Channel :=
  { ch with busy := busy, phase := phase }

end Channel

/-- Both channels, the four media, and the answers still to come. -/
structure AtaBus where
  channel : Fin 2 → Channel
  media : Fin 2 → Fin 2 → ℕ → Sector
  /-- The answer to the sector command number `n` since power on. -/
  answers : ℕ → Answer
  issued : ℕ
  /-- The answer to the IDENTIFY number `n` since power on. -/
  identify : ℕ → Option IdentifyData
  scanned : ℕ

namespace AtaBus

/-- The answer to the next sector command. -/
def next (b : AtaBus) : Answer := b.answers b.issued

def setChannel (b : AtaBus) (c : Fin 2) (ch : Channel) : AtaBus :=
  { b with channel := Function.update b.channel c ch }

/-- Store a sector on one of the four media. -/
def storeSector (b : AtaBus) (c d : Fin 2) (lba : ℕ) (x : Sector) : AtaBus :=
  { b with
    media := Function.update b.media c
      (Function.update (b.media c) d (Function.update (b.media c d) lba x)) }

/-- Storing a sector leaves every other sector of the four media alone. -/
theorem media_update_of_ne (media : Fin 2 → Fin 2 → ℕ → Sector) (x : Sector) {c d c' d' : Fin 2}
    {lba n : ℕ} (h : (c', d', n) ≠ (c, d, lba)) :
    Function.update media c (Function.update (media c) d (Function.update (media c d) lba x))
      c' d' n = media c' d' n := by
  by_cases hc : c' = c
  · subst hc
    rw [Function.update_self]
    by_cases hd : d' = d
    · subst hd
      rw [Function.update_self, Function.update_of_ne]
      intro hn
      exact h (by rw [hn])
    · rw [Function.update_of_ne hd]
  · rw [Function.update_of_ne hc]

/-- The channel and register number behind a port. -/
def decodePort (port : UInt16) : Option (Fin 2 × UInt16) :=
  if 0x1F0 ≤ port ∧ port ≤ 0x1F7 then some (0, port - 0x1F0)
  else if 0x170 ≤ port ∧ port ≤ 0x177 then some (1, port - 0x170)
  else none

/-- One more sector command has its answer. -/
def answered (b : AtaBus) : AtaBus := { b with issued := b.issued + 1 }

/-- One more IDENTIFY has its answer. -/
def identified (b : AtaBus) : AtaBus := { b with scanned := b.scanned + 1 }

/-- A byte written to the command register of channel `c`. -/
def command (b : AtaBus) (c : Fin 2) (code : UInt8) : AtaBus :=
  let ch := b.channel c
  if code = 0x20 then
    b.answered.setChannel c (ch.doing b.next.busy
      (if b.next.abort then .failed else .dataIn true (b.media c ch.drive ch.lba).word 0))
  else if code = 0x30 then
    b.answered.setChannel c (ch.doing b.next.busy
      (if b.next.abort then .failed else .dataOut b.next (fun _ => 0) 0))
  else if code = 0xEC then
    b.identified.setChannel c (match b.identify b.scanned with
      | none => ch.doing 0 .absent
      | some d => ch.doing d.busy (.dataIn (!d.refused) d.word 0))
  else b

/-- Registers other than the status are never read by the drivers. -/
def inb (port : UInt16) (b : AtaBus) : UInt8 × AtaBus :=
  match decodePort port with
  | some (c, 7) =>
    let ch := b.channel c
    (ch.status, b.setChannel c (ch.doing (ch.busy - 1) ch.phase))
  | _ => (0, b)

def inw (port : UInt16) (b : AtaBus) : UInt16 × AtaBus :=
  match decodePort port with
  | some (c, 0) =>
    let ch := b.channel c
    match ch.phase with
    | .dataIn drq word pos =>
      (word pos, b.setChannel c (ch.doing ch.busy (.dataIn drq word (pos + 1))))
    | _ => (0xFFFF, b)
  | _ => (0xFFFF, b)

/-- The sector-count register (2) is always set to one and not modelled. -/
def outb (port : UInt16) (v : UInt8) (b : AtaBus) : AtaBus :=
  match decodePort port with
  | some (c, 3) => b.setChannel c { b.channel c with low := v }
  | some (c, 4) => b.setChannel c { b.channel c with mid := v }
  | some (c, 5) => b.setChannel c { b.channel c with high := v }
  | some (c, 6) => b.setChannel c { b.channel c with select := v }
  | some (c, 7) => b.command c v
  | _ => b

/-- The 256th word of a WRITE ends the transfer: the sector is stored unless
the drive fails without keeping it. -/
def outw (port : UInt16) (v : UInt16) (b : AtaBus) : AtaBus :=
  match decodePort port with
  | some (c, 0) =>
    let ch := b.channel c
    match ch.phase with
    | .dataOut answer word pos =>
      let word := Function.update word pos v
      if pos + 1 < 256 then
        b.setChannel c (ch.doing ch.busy (.dataOut answer word (pos + 1)))
      else
        let b' := b.setChannel c
          (ch.doing answer.busyAfter (if answer.failed then .failed else .idle))
        if answer.failed = false ∨ answer.kept = true then
          b'.storeSector c ch.drive ch.lba (Sector.ofWords word)
        else b'
    | _ => b
  | _ => b

end AtaBus

/-- What a driver acts on: the bus, and the console calls made so far. -/
structure Ports where
  bus : AtaBus
  printed : List PrintCall

instance : PortDevice Ports where
  inb port s := ((s.bus.inb port).1, { s with bus := (s.bus.inb port).2 })
  inw port s := ((s.bus.inw port).1, { s with bus := (s.bus.inw port).2 })
  outb port v s := { s with bus := s.bus.outb port v }
  outw port v s := { s with bus := s.bus.outw port v }
  say text s := { s with printed := s.printed ++ [.str text] }

end EtyOS
