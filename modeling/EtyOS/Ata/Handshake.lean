import EtyOS.Ata.SectorStore
import EtyOS.Library.PortSafety

/-!
# The driver and the ATA protocol

What the host may do depends on what a channel is doing: registers are written only
while no command is in progress and no data is due, and the data port is read or written
only while the drive has a word to give or to take. The sector routines of the driver keep
to this whatever the drives answer, for every budget of status reads. IDENTIFY does so
unless a drive refuses it: the driver does not look at ERR there, and reads 256 words that
no drive gives. All of them leave the channel as they have found it: ready for the next
command.
-/

namespace EtyOS

open Library PortProgram

/-- No data of a command is due. -/
def Phase.Over : Phase → Prop
  | .dataIn drq _ pos => drq = true → 256 ≤ pos
  | .dataOut _ _ _ => False
  | _ => True

/-- The drive is not busy and has a word to give. -/
def Gives (busy : ℕ) (phase : Phase) : Prop :=
  busy = 0 ∧ ∃ word pos, phase = .dataIn true word pos ∧ pos < 256

/-- The drive is not busy and takes a word. -/
def Takes (busy : ℕ) (phase : Phase) : Prop :=
  busy = 0 ∧ ∃ answer word pos, phase = .dataOut answer word pos ∧ pos < 256

/-- No command is in progress. -/
def Rests (busy : ℕ) (phase : Phase) : Prop := busy = 0 ∧ phase.Over

namespace AtaBus

def IsCommand (code : UInt8) : Prop :=
  code = ataCmdReadSectors ∨ code = ataCmdWriteSectors ∨ code = ataCmdIdentify

/-- The protocol: of the registers only the status is read, at any time; the command
block is written while the channel rests, with one of three commands; words go over the
data port while the drive gives or takes them. -/
def Allows (b : AtaBus) : Access → Prop
  | .inb port _ => ∃ c, decodePort port = some (c, 7)
  | .inw port _ => ∃ c, decodePort port = some (c, 0) ∧ Gives (b.channel c).busy (b.channel c).phase
  | .outb port v => ∃ c r, decodePort port = some (c, r) ∧ 2 ≤ r ∧ (r = 7 → IsCommand v) ∧
      Rests (b.channel c).busy (b.channel c).phase
  | .outw port _ => ∃ c, decodePort port = some (c, 0) ∧
      Takes (b.channel c).busy (b.channel c).phase
  | .say _ => True

/-- No command is in progress on either channel. -/
def Idle (b : AtaBus) : Prop := ∀ c, Rests (b.channel c).busy (b.channel c).phase

/-- The drive that gets the IDENTIFY number `n` refuses it. -/
def Refuses (b : AtaBus) (n : ℕ) : Prop := ∃ a, b.identify n = some a ∧ a.refused = true

end AtaBus

def Ports.Allows (a : Access) (s : Ports) : Prop := s.bus.Allows a

/-- Channel `c` satisfies `P`, and the other one is as on the bus `b₀`. -/
structure Ports.Stands (c : Fin 2) (b₀ : AtaBus) (P : ℕ → Phase → Prop) (s : Ports) : Prop where
  channel : P (s.bus.channel c).busy (s.bus.channel c).phase
  others : ∀ c', c' ≠ c → s.bus.channel c' = b₀.channel c'

namespace Ports.Stands

variable {c : Fin 2} {b₀ : AtaBus} {P P' : ℕ → Phase → Prop} {s : Ports}

theorem mono (h : s.Stands c b₀ P) (hP : ∀ busy phase, P busy phase → P' busy phase) :
    s.Stands c b₀ P' :=
  ⟨hP _ _ h.channel, h.others⟩

theorem setChannel (h : s.Stands c b₀ P) {b : AtaBus} (hb : b.channel = s.bus.channel)
    {ch : Channel} (hch : P' ch.busy ch.phase) :
    Ports.Stands c b₀ P' { s with bus := b.setChannel c ch } where
  channel := by
    rw [AtaBus.setChannel_channel]
    exact hch
  others := fun c' hc' => by
    rw [← h.others c' hc', ← hb]
    exact Function.update_of_ne hc' _ _

/-- A status read of the channel counts the busy time down. -/
theorem inb (h : s.Stands c b₀ P) (hP : ∀ busy phase, P busy phase → P (busy - 1) phase) :
    (PortDevice.inb (ioBase c + 7) s).2.Stands c b₀ P := by
  have hinb := AtaBus.inb_status s.bus c
  change Ports.Stands c b₀ P { s with bus := (s.bus.inb (ioBase c + 7)).2 }
  rw [hinb]
  exact h.setChannel rfl (hP _ _ h.channel)

/-- A register other than the command register is written. -/
theorem outb (h : s.Stands c b₀ P) {port r : UInt16}
    (hport : AtaBus.decodePort port = some (c, r)) (hr : r ≠ 7) (v : UInt8) :
    (PortDevice.outb port v s).Stands c b₀ P := by
  change Ports.Stands c b₀ P { s with bus := s.bus.outb port v }
  rw [AtaBus.outb, hport]
  split
  case h_1 heq | h_2 heq | h_3 heq | h_4 heq =>
    obtain ⟨rfl, -⟩ := Prod.mk.inj (Option.some.inj heq)
    exact h.setChannel rfl h.channel
  case h_5 heq => exact absurd (Prod.mk.inj (Option.some.inj heq)).2 hr
  case h_6 => exact h

end Ports.Stands

section Routines

variable {c : Fin 2} {b₀ : AtaBus} {s : Ports}

theorem allows_status (s : Ports) (answer : UInt8) :
    Ports.Allows (.inb (ioBase c + 7) answer) s :=
  ⟨c, (decodePort_ioBase c).2.2.2.2.2.2⟩

theorem allows_register (h : s.Stands c b₀ Rests) {port r : UInt16}
    (hport : AtaBus.decodePort port = some (c, r)) (hr : 2 ≤ r) (hlast : r ≠ 7) (v : UInt8) :
    Ports.Allows (.outb port v) s :=
  ⟨c, r, hport, hr, fun h => absurd h hlast, h.channel⟩

theorem allows_command (h : s.Stands c b₀ Rests) {code : UInt8} (hcode : AtaBus.IsCommand code) :
    Ports.Allows (.outb (ioBase c + 7) code) s :=
  ⟨c, 7, (decodePort_ioBase c).2.2.2.2.2.2, by decide, fun _ => hcode, h.channel⟩

/-- The registers and the command of a sector operation. -/
theorem issueCommand_guarded {α : Type} {Q : α → Ports → Prop} (h : s.Stands c b₀ Rests)
    (select : UInt8) (lba : UInt32) {code : UInt8} (hcode : AtaBus.IsCommand code)
    {f : PortProgram α} (hissued : ∀ t : Ports, t.Stands c b₀ Rests →
      Guarded Ports.Allows Q f { t with bus := t.bus.command c code }) :
    Guarded Ports.Allows Q (do
      writeByte (ioBase c + 6) select
      writeByte (ioBase c + 2) 1
      writeByte (ioBase c + 3) lba.toUInt8
      writeByte (ioBase c + 4) (lba >>> 8).toUInt8
      writeByte (ioBase c + 5) (lba >>> 16).toUInt8
      writeByte (ioBase c + 7) code
      f) s := by
  obtain ⟨-, h2, h3, h4, h5, h6, -⟩ := decodePort_ioBase c
  have hstep {port r : UInt16} (hport : AtaBus.decodePort port = some (c, r)) (hr : 2 ≤ r)
      (hlast : r ≠ 7) {v : UInt8} {f : Unit → PortProgram α}
      (hrest : ∀ t : Ports, t.Stands c b₀ Rests → Guarded Ports.Allows Q (f ()) t) (t : Ports)
      (ht : t.Stands c b₀ Rests) : Guarded Ports.Allows Q (writeByte port v >>= f) t :=
    Guarded.bind (guarded_writeByte (allows_register ht hport hr hlast v)
      (hrest _ (ht.outb hport hlast v)))
  refine hstep h6 (by decide) (by decide) (hstep h2 (by decide) (by decide)
    (hstep h3 (by decide) (by decide) (hstep h4 (by decide) (by decide)
      (hstep h5 (by decide) (by decide) fun t ht => ?_)))) s h
  refine Guarded.bind (guarded_writeByte (allows_command ht hcode) ?_)
  change Guarded Ports.Allows Q f { t with bus := t.bus.outb (ioBase c + 7) code }
  rw [AtaBus.outb_command]
  exact hissued t ht

/-- The loop that waits until the drive is no longer busy. -/
theorem poll_guarded {P : Phase → Prop} (hpresent : ∀ phase, P phase → phase ≠ .absent)
    (h : s.Stands c b₀ fun _ phase => P phase) (budget : ℕ) :
    Guarded Ports.Allows (fun _ s' => s'.Stands c b₀ fun busy phase => busy = 0 ∧ P phase)
      (pollUntilClear (ioBase c + 7) 0x80 budget) s := by
  refine guarded_pollUntilClear (I := fun s => s.Stands c b₀ fun _ phase => P phase)
    (fun s _ => allows_status s _) (fun s hs _ => hs.inb fun _ _ hphase => hphase)
    (fun s hs hclear => ?_) budget h
  have hready : (s.bus.channel c).busy = 0 := by
    have hstatus : (PortDevice.inb (ioBase c + 7) s).1 = (s.bus.channel c).status := by
      change (s.bus.inb (ioBase c + 7)).1 = _
      rw [AtaBus.inb_status]
    have hshown := (s.bus.channel c).status_doing (s.bus.channel c).busy (hpresent _ hs.channel)
    change (s.bus.channel c).status = _ at hshown
    rw [hstatus, hshown] at hclear
    by_contra hbusy
    rw [if_pos (Nat.pos_of_ne_zero hbusy)] at hclear
    exact absurd hclear (by decide)
  have hboth : s.Stands c b₀ fun busy phase => busy = 0 ∧ P phase :=
    ⟨⟨hready, hs.channel⟩, hs.others⟩
  exact hboth.inb fun busy _ hphase => ⟨by omega, hphase.2⟩

/-- The status of a channel that is not busy shows whether the command has failed or has been
refused. -/
theorem status_guarded {α : Type} {P : Phase → Prop} {Q : α → Ports → Prop}
    (h : s.Stands c b₀ fun busy phase => busy = 0 ∧ P phase) {f : UInt8 → PortProgram α}
    (hf : ∀ status t, (status &&& 0x01 ≠ 0 ↔ (t.bus.channel c).phase.err = true) →
      t.Stands c b₀ (fun busy phase => busy = 0 ∧ P phase) → Guarded Ports.Allows Q (f status) t) :
    Guarded Ports.Allows Q (readByte (ioBase c + 7) >>= f) s := by
  refine Guarded.bind (guarded_readByte (allows_status s _) (hf _ _ ?_ ?_))
  · have hread := AtaBus.inb_status s.bus c
    have herr := status_err (s.bus.channel c) (s.bus.channel c).phase
    have hready : (s.bus.channel c).doing 0 (s.bus.channel c).phase = s.bus.channel c := by
      rw [← h.channel.1]
      rfl
    rw [hready] at herr
    change (s.bus.inb (ioBase c + 7)).1 &&& 0x01 ≠ 0 ↔
      ((s.bus.inb (ioBase c + 7)).2.channel c).phase.err = true
    rw [hread, AtaBus.setChannel_channel]
    exact herr
  · exact h.inb fun busy _ hphase => ⟨by omega, hphase.2⟩

/-- The drive is ready and gives word `pos` next. -/
def GivesNext (pos : ℕ) (busy : ℕ) (phase : Phase) : Prop :=
  busy = 0 ∧ ∃ word, phase = .dataIn true word pos

/-- The drive is ready and takes word `pos` next, or has taken all of them. -/
def TakesNext (pos : ℕ) (busy : ℕ) (phase : Phase) : Prop :=
  if pos < 256 then busy = 0 ∧ ∃ answer word, phase = .dataOut answer word pos
  else phase = .idle ∨ phase = .failed

theorem receiveWord_stands {pos : ℕ} (h : s.Stands c b₀ (GivesNext pos)) :
    (PortDevice.inw (ioBase c) s).2.Stands c b₀ (GivesNext (pos + 1)) := by
  obtain ⟨hready, word, hphase⟩ := h.channel
  change Ports.Stands c b₀ _ { s with bus := (s.bus.inw (ioBase c)).2 }
  simp only [AtaBus.inw, (decodePort_ioBase c).1, hphase]
  exact h.setChannel rfl ⟨hready, word, rfl⟩

/-- The 256 words that a drive gives. -/
theorem receiveWords_guarded {α : Type} (h : s.Stands c b₀ (GivesNext 0))
    (step : ℕ → α → UInt16 → α) (a : α) :
    Guarded Ports.Allows (fun _ s' => s'.Stands c b₀ Rests)
      (forRange (fun i a => do
        let data ← readWord (ioBase c)
        return step i a data) 256 0 a) s := by
  refine Guarded.mono (guarded_forRange (I := fun i _ t => t.Stands c b₀ (GivesNext i)) 256
    (fun i a t _ hi ht => ?_) h) fun _ s' hs' => hs'.mono fun busy phase => ?_
  · obtain ⟨hready, word, hphase⟩ := ht.channel
    refine Guarded.bind (guarded_readWord ?_ (guarded_pure (receiveWord_stands ht)))
    exact ⟨c, (decodePort_ioBase c).1, hready, word, i, hphase, by omega⟩
  · rintro ⟨hready, word, rfl⟩
    exact ⟨hready, fun _ => le_rfl⟩

theorem sendWord_stands {pos : ℕ} (hpos : pos < 256) (h : s.Stands c b₀ (TakesNext pos))
    (v : UInt16) : (PortDevice.outw (ioBase c) v s).Stands c b₀ (TakesNext (pos + 1)) := by
  have hchannel := h.channel
  rw [TakesNext, if_pos hpos] at hchannel
  obtain ⟨hready, answer, word, hphase⟩ := hchannel
  change Ports.Stands c b₀ _ { s with bus := s.bus.outw (ioBase c) v }
  simp only [AtaBus.outw, (decodePort_ioBase c).1, hphase]
  by_cases hmore : pos + 1 < 256
  · rw [if_pos hmore]
    refine h.setChannel rfl ?_
    rw [TakesNext, if_pos hmore]
    exact ⟨hready, answer, _, rfl⟩
  · rw [if_neg hmore]
    have hlast : TakesNext (pos + 1) answer.busyAfter
        (if answer.failed then .failed else .idle) := by
      rw [TakesNext, if_neg hmore]
      cases answer.failed
      · exact Or.inl rfl
      · exact Or.inr rfl
    have hover : Ports.Stands c b₀ (TakesNext (pos + 1)) { s with
        bus := s.bus.setChannel c ((s.bus.channel c).doing answer.busyAfter
          (if answer.failed then .failed else .idle)) } := h.setChannel rfl hlast
    split
    · exact ⟨hover.channel, hover.others⟩
    · exact hover

/-- The 256 words that a drive takes. -/
theorem sendWords_guarded (h : s.Stands c b₀ (TakesNext 0)) (word : ℕ → UInt16) :
    Guarded Ports.Allows
      (fun _ s' => s'.Stands c b₀ fun _ phase => phase = .idle ∨ phase = .failed)
      (forRange (fun i _ => writeWord (ioBase c) (word i)) 256 0 ()) s := by
  refine guarded_forRange (I := fun i _ (t : Ports) => t.Stands c b₀ (TakesNext i)) 256
    (fun i _ t _ hi ht => ?_) h
  have hchannel := ht.channel
  rw [TakesNext, if_pos (by omega)] at hchannel
  obtain ⟨hready, answer, word', hphase⟩ := hchannel
  refine guarded_writeWord ?_ (sendWord_stands (by omega) ht _)
  exact ⟨c, (decodePort_ioBase c).1, hready, answer, word', i, hphase, by omega⟩

/-- After an error no data is due. -/
theorem rests_of_err {busy : ℕ} {phase : Phase} (hready : busy = 0) (h : phase.err = true) :
    Rests busy phase := by
  refine ⟨hready, ?_⟩
  cases phase with
  | dataIn drq word pos =>
    rintro rfl
    exact absurd h Bool.false_ne_true
  | dataOut answer word pos => exact absurd h Bool.false_ne_true
  | _ => trivial

/-- A drive that is to give a sector. -/
theorem command_read_stands (h : s.Stands c b₀ Rests) :
    Ports.Stands c b₀ (fun _ phase => phase = .failed ∨ ∃ word, phase = .dataIn true word 0)
      { s with bus := s.bus.command c ataCmdReadSectors } := by
  have hissue : s.bus.command c ataCmdReadSectors = s.bus.answered.setChannel c
      ((s.bus.channel c).doing s.bus.next.busy (if s.bus.next.abort then .failed else
        .dataIn true (s.bus.media c (s.bus.channel c).drive (s.bus.channel c).lba).word 0)) := by
    rw [AtaBus.command, if_pos (by rfl)]
  rw [hissue]
  refine h.setChannel (b := s.bus.answered) rfl ?_
  cases s.bus.next.abort
  · exact Or.inr ⟨_, rfl⟩
  · exact Or.inl rfl

/-- A drive that is to take a sector. -/
theorem command_write_stands (h : s.Stands c b₀ Rests) :
    Ports.Stands c b₀
      (fun _ phase => phase = .failed ∨ ∃ answer word, phase = .dataOut answer word 0)
      { s with bus := s.bus.command c ataCmdWriteSectors } := by
  have hissue : s.bus.command c ataCmdWriteSectors = s.bus.answered.setChannel c
      ((s.bus.channel c).doing s.bus.next.busy (if s.bus.next.abort then .failed else
        .dataOut s.bus.next (fun _ => 0) 0)) := by
    rw [AtaBus.command, if_neg (by decide), if_pos (by rfl)]
  rw [hissue]
  refine h.setChannel (b := s.bus.answered) rfl ?_
  cases s.bus.next.abort
  · exact Or.inr ⟨_, _, rfl⟩
  · exact Or.inl rfl

theorem ataReadSectorDisk_guarded (h : s.Stands c b₀ Rests) (budget : ℕ) (d : Fin 2)
    (lba : UInt32) (buffer : ℕ) (m : Memory) :
    Guarded Ports.Allows (fun _ s' => s'.Stands c b₀ Rests)
      (Driver.ataReadSectorDisk budget c d lba buffer m) s := by
  refine issueCommand_guarded h _ lba (Or.inl rfl) fun t ht => ?_
  refine Guarded.bind ((poll_guarded (by rintro _ (rfl | ⟨_, rfl⟩) <;> simp)
    (command_read_stands ht) budget).mono fun _ s₂ hs₂ => status_guarded hs₂
      fun status s₃ herr hs₃ => ?_)
  by_cases hset : status &&& 0x01 ≠ 0
  · rw [if_pos hset]
    have hrests : s₃.Stands c b₀ Rests :=
      ⟨rests_of_err hs₃.channel.1 (herr.mp hset), hs₃.others⟩
    exact Guarded.bind (guarded_emit trivial (guarded_pure ⟨hrests.channel, hrests.others⟩))
  · rw [if_neg hset]
    have hgives : s₃.Stands c b₀ (GivesNext 0) :=
      ⟨⟨hs₃.channel.1, hs₃.channel.2.resolve_left fun hfailed =>
        hset (herr.mpr (congrArg Phase.err hfailed))⟩, hs₃.others⟩
    exact Guarded.bind ((receiveWords_guarded hgives
      (fun i m data => unpackWord m buffer i data) m).mono fun _ s₄ hs₄ => guarded_pure hs₄)

theorem ataWriteSectorDisk_guarded (h : s.Stands c b₀ Rests) (budget : ℕ) (d : Fin 2)
    (lba : UInt32) (buffer : ℕ) (m : Memory) :
    Guarded Ports.Allows (fun _ s' => s'.Stands c b₀ Rests)
      (Driver.ataWriteSectorDisk budget c d lba buffer m) s := by
  refine issueCommand_guarded h _ lba (Or.inr (Or.inl rfl)) fun t ht => ?_
  refine Guarded.bind ((poll_guarded (by rintro _ (rfl | ⟨_, _, rfl⟩) <;> simp)
    (command_write_stands ht) budget).mono fun _ s₂ hs₂ => status_guarded hs₂
      fun status s₃ herr hs₃ => ?_)
  by_cases hset : status &&& 0x01 ≠ 0
  · rw [if_pos hset]
    have hrests : s₃.Stands c b₀ Rests :=
      ⟨rests_of_err hs₃.channel.1 (herr.mp hset), hs₃.others⟩
    exact Guarded.bind (guarded_emit trivial (guarded_pure ⟨hrests.channel, hrests.others⟩))
  rw [if_neg hset]
  have htakes : s₃.Stands c b₀ (TakesNext 0) :=
    ⟨⟨hs₃.channel.1, hs₃.channel.2.resolve_left fun hfailed =>
      hset (herr.mpr (congrArg Phase.err hfailed))⟩, hs₃.others⟩
  refine Guarded.bind ((sendWords_guarded htakes fun i => packWord m buffer i).mono
    fun _ s₄ hs₄ => Guarded.bind ((poll_guarded (by rintro _ (rfl | rfl) <;> simp) hs₄
      budget).mono fun _ s₅ hs₅ => status_guarded hs₅ fun status s₆ _ hs₆ => ?_))
  have hrests : s₆.Stands c b₀ Rests :=
    hs₆.mono fun busy phase hphase => by
      obtain ⟨hready, rfl | rfl⟩ := hphase <;> exact ⟨hready, trivial⟩
  split
  · exact Guarded.bind (guarded_emit trivial (guarded_pure ⟨hrests.channel, hrests.others⟩))
  · exact guarded_pure hrests

/-- IDENTIFY, unless the drive refuses it. -/
theorem identifyDrive_guarded (h : s.Stands c b₀ Rests) (hserved : ¬s.bus.Refuses s.bus.scanned)
    (budget : ℕ) (d : Fin 2) :
    Guarded Ports.Allows (fun _ s' => s'.Stands c b₀ Rests) (Driver.identifyDrive budget c d) s := by
  obtain ⟨-, -, -, -, -, hselect, -⟩ := decodePort_ioBase c
  refine Guarded.bind (guarded_writeByte (allows_register h hselect (by decide) (by decide) _) ?_)
  have hs₁ := h.outb hselect (by decide) ((0xA0 : UInt8) ||| (UInt8.ofNat d.val <<< 4))
  have hsame : (PortDevice.outb (ioBase c + 6) ((0xA0 : UInt8) ||| (UInt8.ofNat d.val <<< 4))
      s).bus = s.bus.setChannel c ((s.bus.channel c).selectDrive d) := AtaBus.outb_select _ _ _
  set s₁ := PortDevice.outb (ioBase c + 6) ((0xA0 : UInt8) ||| (UInt8.ofNat d.val <<< 4)) s
  refine Guarded.bind (guarded_writeByte (allows_command hs₁ (Or.inr (Or.inr rfl))) ?_)
  have hs₂ : (PortDevice.outb (ioBase c + 7) ataCmdIdentify s₁).Stands c b₀ fun busy phase =>
      (busy = 0 ∧ phase = .absent) ∨ ∃ word, phase = .dataIn true word 0 := by
    change Ports.Stands c b₀ _ { s₁ with bus := s₁.bus.outb (ioBase c + 7) ataCmdIdentify }
    rw [AtaBus.outb_command, hsame, AtaBus.command_identify]
    have hissue {ch : Channel} (hch : (ch.busy = 0 ∧ ch.phase = .absent) ∨
        ∃ word, ch.phase = .dataIn true word 0) :
        Ports.Stands c b₀ (fun busy phase =>
          (busy = 0 ∧ phase = .absent) ∨ ∃ word, phase = .dataIn true word 0)
          { s₁ with bus := s.bus.identified.setChannel c ch } :=
      h.setChannel (b := s.bus.identified) rfl hch
    cases hanswer : s.bus.identify s.bus.scanned with
    | none => exact hissue (Or.inl ⟨rfl, rfl⟩)
    | some a =>
      have hgives : a.refused = false :=
        Bool.eq_false_iff.mpr fun hrefused => hserved ⟨a, hanswer, hrefused⟩
      exact hissue (Or.inr ⟨a.word, congrArg (fun refused => Phase.dataIn (!refused) a.word 0) hgives⟩)
  set s₂ := PortDevice.outb (ioBase c + 7) ataCmdIdentify s₁
  have hstatus : (PortDevice.inb (ioBase c + 7) s₂).1 = (s₂.bus.channel c).status := by
    change (s₂.bus.inb (ioBase c + 7)).1 = _
    rw [AtaBus.inb_status]
  refine Guarded.bind (guarded_readByte (allows_status s₂ _) ?_)
  rw [hstatus]
  rcases hs₂.channel with ⟨hready, habsent⟩ | ⟨word, hphase⟩
  · have hs₃ : s₂.Stands c b₀ fun busy phase => busy = 0 ∧ phase = .absent :=
      ⟨⟨hready, habsent⟩, hs₂.others⟩
    have hnone : (s₂.bus.channel c).status = 0 := by rw [Channel.status, habsent]
    rw [if_pos hnone]
    refine guarded_pure ((hs₃.inb fun busy _ h => ⟨by omega, h.2⟩).mono ?_)
    rintro busy _ ⟨hready, rfl⟩
    exact ⟨hready, trivial⟩
  · have hs₃ : s₂.Stands c b₀ fun _ phase => ∃ word, phase = .dataIn true word 0 :=
      ⟨⟨word, hphase⟩, hs₂.others⟩
    rw [if_neg (Channel.status_ne_zero (by rw [hphase]; simp))]
    refine Guarded.bind ((poll_guarded (by rintro _ ⟨_, rfl⟩; simp)
      (hs₃.inb fun _ _ hword => hword) budget).mono fun _ s₄ hs₄ => ?_)
    exact Guarded.bind ((receiveWords_guarded hs₄
      (fun i (buffer : ℕ → UInt16) data => Function.update buffer i data) _).mono
        fun _ s₅ hs₅ => guarded_pure hs₅)

/-- A refusal does not keep the driver from reading a word. -/
theorem identifyDrive_refused {budget : ℕ} {d : Fin 2} {r : Option (ℕ → UInt16) × Ports}
    (hrefused : s.bus.Refuses s.bus.scanned)
    (hrun : (Driver.identifyDrive budget c d).run s = some r) :
    ∃ v ∈ (Driver.identifyDrive budget c d).visits s, ¬Ports.Allows v.1 v.2 := by
  obtain ⟨a, hanswer, hrefused⟩ := hrefused
  set s₁ : Ports := { s with bus := s.bus.identified }
  set ch := (s.bus.channel c).selectDrive d
  have hissued : s.identifying c d = s₁.doing c ch a.busy (.dataIn false a.word 0) := by
    rw [Ports.identifying, hanswer, ← Bool.not_true, ← hrefused]
  have hpresent : (ch.doing a.busy (.dataIn false a.word 0)).status ≠ 0 :=
    Channel.status_ne_zero (by simp [Channel.doing])
  rw [Driver.identifyDrive, run_issueIdentify, hissued,
    PortProgram.run_bind_of_run _ (run_readByte _ _), inb_doing, if_neg hpresent, run_bind] at hrun
  obtain ⟨⟨_, s₂⟩, hpoll, -⟩ := Option.bind_eq_some_iff.mp hrun
  have hready : s₂ = s₁.doing c ch 0 (.dataIn false a.word 0) := by
    have henough := pollUntilClear_extends (σ := Ports) (ioBase c + 7) 0x80
      (le_max_left budget (a.busy + 1)) _ _ hpoll
    have hdone : (pollUntilClear (ioBase c + 7) 0x80 (max budget (a.busy + 1))).run
        (s₁.doing c ch (a.busy - 1) (.dataIn false a.word 0)) =
          some ((), s₁.doing c ch 0 (.dataIn false a.word 0)) := run_poll c _ _ (by simp) (by omega)
    exact (Prod.mk.inj (Option.some.inj (henough.symm.trans hdone))).2
  refine ⟨(.inw (ioBase c) (PortDevice.inw (ioBase c) s₂).1, s₂), ?_, ?_⟩
  · rw [Driver.identifyDrive, visits_bind_of_run _ (run_writeByte _ _ _),
      visits_bind_of_run _ (run_writeByte _ _ _), outb_identify, hissued,
      visits_bind_of_run _ (run_readByte _ _), inb_doing, if_neg hpresent,
      visits_bind_of_run _ hpoll, visits_bind]
    refine List.mem_append_right _ (List.mem_append_right _ (List.mem_append_right _
      (List.mem_append_right _ (List.mem_append_left _ ?_))))
    exact List.mem_cons_self
  · rintro ⟨c', hport, -, word, pos, hphase, -⟩
    obtain ⟨rfl, -⟩ := Prod.mk.inj (Option.some.inj ((decodePort_ioBase c).1.symm.trans hport))
    have hchannel : (s₂.bus.channel c).phase = .dataIn false a.word 0 := by
      rw [hready]
      exact congrArg Channel.phase (AtaBus.setChannel_channel _ _ _)
    rw [hchannel] at hphase
    cases hphase

end Routines

/-! ### The calls -/

namespace DriverOp

/-- The accesses of a call, each with the ports that it finds. -/
def visits : DriverOp → Ports → List (Access × Ports)
  | readSectorDisk budget c d lba buffer m =>
    (Driver.ataReadSectorDisk budget c d lba buffer m).visits
  | writeSectorDisk budget c d lba buffer m =>
    (Driver.ataWriteSectorDisk budget c d lba buffer m).visits
  | readSector budget lba buffer m => (Driver.ataReadSector budget lba buffer m).visits
  | writeSector budget lba buffer m => (Driver.ataWriteSector budget lba buffer m).visits
  | identifyDrive budget c d => (Driver.identifyDrive budget c d).visits

variable {s s' : Ports}

/-- A program that is guarded for its channel, on an idle bus. -/
theorem obeys_of_guarded {α : Type} {c : Fin 2} {p : PortProgram α} (hidle : s.bus.Idle)
    (h : s.Stands c s.bus Rests → Guarded Ports.Allows (fun _ s' => s'.Stands c s.bus Rests) p s) :
    (∀ v ∈ p.visits s, Ports.Allows v.1 v.2) ∧
      ∀ a s', p.run s = some (a, s') → s'.bus.Idle := by
  have hguarded := h ⟨hidle c, fun _ _ => rfl⟩
  refine ⟨hguarded.visits, fun a s' hrun c' => ?_⟩
  have hstands := hguarded.result a s' hrun
  by_cases hc : c' = c
  · rw [hc]
    exact hstands.channel
  · rw [hstands.others c' hc]
    exact hidle c'

/-- How many IDENTIFY commands a call gives. -/
def identifies : DriverOp → ℕ
  | .identifyDrive _ _ _ => 1
  | _ => 0

/-- The answers to IDENTIFY are taken one by one. -/
theorem exec_scanned {op : DriverOp} {u : Unit} (hexec : op.exec.run s = some (u, s')) :
    s'.bus.identify = s.bus.identify ∧ s'.bus.scanned = s.bus.scanned + op.identifies := by
  have hread {budget : ℕ} {c d : Fin 2} {lba : UInt32} {buffer : ℕ} {m : Memory}
      (hexec : (readSectorDisk budget c d lba buffer m).exec.run s = some (u, s')) :
      s'.bus.identify = s.bus.identify ∧ s'.bus.scanned = s.bus.scanned := by
    obtain ⟨r, hrun, heq⟩ := Option.map_eq_some_iff.mp hexec
    cases heq
    rw [ataReadSectorDisk_value hrun]
    split <;> exact ⟨rfl, rfl⟩
  have hwrite {budget : ℕ} {c d : Fin 2} {lba : UInt32} {buffer : ℕ} {m : Memory}
      (hexec : (writeSectorDisk budget c d lba buffer m).exec.run s = some (u, s')) :
      s'.bus.identify = s.bus.identify ∧ s'.bus.scanned = s.bus.scanned := by
    obtain ⟨r, hrun, heq⟩ := Option.map_eq_some_iff.mp hexec
    cases heq
    have hrest := (Ports.afterWrite_rest c d lba s (Sector.ofMemory m buffer)).2.2
    rw [ataWriteSectorDisk_value hrun]
    split
    · exact hrest
    · split <;> exact hrest
  cases op with
  | readSectorDisk => exact hread hexec
  | writeSectorDisk => exact hwrite hexec
  | readSector =>
    rw [exec_readSector] at hexec
    exact hread hexec
  | writeSector =>
    rw [exec_writeSector] at hexec
    exact hwrite hexec
  | identifyDrive =>
    obtain ⟨r, hrun, heq⟩ := Option.map_eq_some_iff.mp hexec
    cases heq
    rw [identifyDrive_value hrun]
    exact ⟨rfl, rfl⟩

/-- An IDENTIFY exchange leaves no data due, be it refused or not. -/
theorem afterIdentify_idle (hidle : s.bus.Idle) (c d : Fin 2) :
    (s.afterIdentify c d).bus.Idle := by
  intro c'
  by_cases hc : c' = c
  · rw [hc, Ports.afterIdentify, Ports.doing, AtaBus.setChannel_channel]
    refine ⟨rfl, ?_⟩
    dsimp only [Channel.doing]
    cases s.bus.identify s.bus.scanned with
    | none => trivial
    | some a => exact fun _ => le_rfl
  · have hother : (s.afterIdentify c d).bus.channel c' = s.bus.channel c' :=
      Function.update_of_ne hc _ _
    rw [hother]
    exact hidle c'

/-- On an idle bus every access of a call keeps to the protocol exactly if no drive refuses
an IDENTIFY of the call, and the bus is idle again when the call comes back. -/
theorem obeys_iff {op : DriverOp} {u : Unit} (hidle : s.bus.Idle)
    (hexec : op.exec.run s = some (u, s')) :
    ((∀ v ∈ op.visits s, Ports.Allows v.1 v.2) ↔
        ∀ n, s.bus.scanned ≤ n → n < s'.bus.scanned → ¬s.bus.Refuses n) ∧ s'.bus.Idle := by
  have hscanned := (exec_scanned hexec).2
  have hsector {α : Type} {p : PortProgram α} (hnone : s'.bus.scanned = s.bus.scanned)
      (hexec : ((p.run s).map fun r => ((), r.2)) = some (u, s'))
      (h : (∀ v ∈ p.visits s, Ports.Allows v.1 v.2) ∧
        ∀ a s', p.run s = some (a, s') → s'.bus.Idle) :
      ((∀ v ∈ p.visits s, Ports.Allows v.1 v.2) ↔
        ∀ n, s.bus.scanned ≤ n → n < s'.bus.scanned → ¬s.bus.Refuses n) ∧ s'.bus.Idle := by
    obtain ⟨⟨a, s₁⟩, hrun, heq⟩ := Option.map_eq_some_iff.mp hexec
    cases heq
    exact ⟨iff_of_true h.1 fun n hle hlt => by omega, h.2 a _ hrun⟩
  cases op with
  | readSectorDisk budget c d lba buffer m =>
    exact hsector hscanned hexec (obeys_of_guarded hidle fun h => ataReadSectorDisk_guarded h _ _ _ _ _)
  | writeSectorDisk budget c d lba buffer m =>
    exact hsector hscanned hexec
      (obeys_of_guarded hidle fun h => ataWriteSectorDisk_guarded h _ _ _ _ _)
  | readSector budget lba buffer m =>
    rw [exec_readSector] at hexec
    rw [visits, ataReadSector_eq]
    exact hsector hscanned hexec (obeys_of_guarded hidle fun h => ataReadSectorDisk_guarded h _ _ _ _ _)
  | writeSector budget lba buffer m =>
    rw [exec_writeSector] at hexec
    rw [visits, ataWriteSector_eq]
    exact hsector hscanned hexec
      (obeys_of_guarded hidle fun h => ataWriteSectorDisk_guarded h _ _ _ _ _)
  | identifyDrive budget c d =>
    obtain ⟨r, hrun, heq⟩ := Option.map_eq_some_iff.mp hexec
    have hafter : s' = s.afterIdentify c d := by
      cases heq
      rw [identifyDrive_value hrun]
    rw [identifies] at hscanned
    refine ⟨?_, hafter ▸ afterIdentify_idle hidle c d⟩
    by_cases hrefused : s.bus.Refuses s.bus.scanned
    · refine iff_of_false (fun hall => ?_) fun hnone => hnone _ le_rfl (by omega) hrefused
      obtain ⟨v, hv, hforbidden⟩ := identifyDrive_refused hrefused hrun
      exact hforbidden (hall v hv)
    · refine iff_of_true (obeys_of_guarded hidle fun h => identifyDrive_guarded h hrefused _ _).1
        fun n hle hlt => ?_
      have hn : n = s.bus.scanned := by omega
      rwa [hn]

end DriverOp

end EtyOS
