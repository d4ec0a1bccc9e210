import EtyOS.Ata.Driver

/-!
# What the driver does on the modelled device

Each routine is executed symbolically once. Its result is a function of the
answer the drive has in store for the command, and the state it leaves is
`afterRead`, `afterWrite` or `afterIdentify`: the later layers use these
equations and never open the port programs again.
-/

namespace EtyOS

open Library PortProgram

section Words

theorem toNat_joinBytes (lo hi : UInt8) :
    (lo.toUInt16 ||| (hi.toUInt16 <<< 8)).toNat = 2 ^ 8 * hi.toNat + lo.toNat := by
  have hlo := lo.toNat_lt
  have hhi := hi.toNat_lt
  have hshift : hi.toNat <<< 8 % 2 ^ 16 = 2 ^ 8 * hi.toNat := by
    rw [Nat.shiftLeft_eq]
    omega
  have hor := Nat.two_pow_add_eq_or_of_lt (i := 8) hlo hi.toNat
  rw [UInt16.toNat_or, UInt16.toNat_shiftLeft, UInt8.toNat_toUInt16, UInt8.toNat_toUInt16,
    show (8 : UInt16).toNat % 16 = 8 from rfl, hshift, Nat.or_comm, ← hor]

theorem joinBytes_low (lo hi : UInt8) : (lo.toUInt16 ||| (hi.toUInt16 <<< 8)).toUInt8 = lo := by
  have hlo := lo.toNat_lt
  apply UInt8.toNat_inj.mp
  rw [UInt16.toNat_toUInt8, toNat_joinBytes]
  omega

theorem joinBytes_high (lo hi : UInt8) :
    ((lo.toUInt16 ||| (hi.toUInt16 <<< 8)) >>> 8).toUInt8 = hi := by
  have hlo := lo.toNat_lt
  have hhi := hi.toNat_lt
  apply UInt8.toNat_inj.mp
  rw [UInt16.toNat_toUInt8, UInt16.toNat_shiftRight, toNat_joinBytes, Nat.shiftRight_eq_div_pow,
    show (8 : UInt16).toNat % 16 = 8 from rfl]
  omega

/-- The 512 bytes of a memory from `buffer` on. -/
def Sector.ofMemory (m : Memory) (buffer : ℕ) : Sector := fun i => m (buffer + i.val)

/-- A memory with the 512 bytes from `buffer` on replaced by a sector. -/
def Sector.toMemory (x : Sector) (m : Memory) (buffer : ℕ) : Memory := fun a =>
  if h : buffer ≤ a ∧ a < buffer + 512 then x ⟨a - buffer, by omega⟩ else m a

/-- The words the write loop sends are the sector that starts at `buffer`. -/
theorem ofWords_packWord (m : Memory) (buffer : ℕ) {w : ℕ → UInt16}
    (hw : ∀ j < 256, w j = packWord m buffer j) :
    Sector.ofWords w = Sector.ofMemory m buffer := by
  funext i
  have hi := i.isLt
  have hword := hw (i.val / 2) (by omega)
  unfold Sector.ofWords Sector.ofMemory
  by_cases heven : i.val % 2 = 0
  · rw [if_pos heven, hword, packWord, joinBytes_low]
    congr 1
    omega
  · rw [if_neg heven, hword, packWord, joinBytes_high]
    congr 1
    omega

/-- The buffer after the first `n` words of a sector have been read into it. -/
def Sector.readInto (x : Sector) (m : Memory) (buffer n : ℕ) : Memory := fun a =>
  if h : buffer ≤ a ∧ a < buffer + 2 * n ∧ a < buffer + 512 then x ⟨a - buffer, by omega⟩ else m a

theorem Sector.readInto_succ (x : Sector) (m : Memory) (buffer : ℕ) {n : ℕ} (hn : n < 256) :
    unpackWord (x.readInto m buffer n) buffer n (x.word n) = x.readInto m buffer (n + 1) := by
  funext a
  have hword : x.word n = (x ⟨2 * n, by omega⟩).toUInt16 |||
      ((x ⟨2 * n + 1, by omega⟩).toUInt16 <<< 8) := dif_pos (by omega)
  rw [unpackWord, hword, joinBytes_low, joinBytes_high]
  by_cases hhigh : a = buffer + (n * 2 + 1)
  · subst hhigh
    rw [Function.update_self, readInto, dif_pos (by omega)]
    congr 2
    omega
  · rw [Function.update_of_ne hhigh]
    by_cases hlow : a = buffer + n * 2
    · subst hlow
      rw [Function.update_self, readInto, dif_pos (by omega)]
      congr 2
      omega
    · rw [Function.update_of_ne hlow]
      unfold readInto
      by_cases hin : buffer ≤ a ∧ a < buffer + 2 * n ∧ a < buffer + 512
      · rw [dif_pos hin, dif_pos (by omega)]
      · rw [dif_neg hin, dif_neg (by omega)]

theorem Sector.readInto_zero (x : Sector) (m : Memory) (buffer : ℕ) :
    x.readInto m buffer 0 = m := by
  funext a
  exact dif_neg (by omega)

theorem Sector.readInto_all (x : Sector) (m : Memory) (buffer : ℕ) :
    x.readInto m buffer 256 = x.toMemory m buffer := by
  funext a
  unfold readInto toMemory
  by_cases h : buffer ≤ a ∧ a < buffer + 512
  · rw [dif_pos h, dif_pos (by omega)]
  · rw [dif_neg h, dif_neg (by omega)]

theorem Sector.toMemory_frame (x : Sector) (m : Memory) {buffer a : ℕ}
    (h : a < buffer ∨ buffer + 512 ≤ a) : x.toMemory m buffer a = m a :=
  dif_neg (by omega)

end Words

section Address

/-- The sector number the device sees: the driver keeps the low 28 bits. -/
def deviceLba (lba : UInt32) : ℕ := lba.toNat % 2 ^ 28

theorem head_eq (lba : UInt32) :
    ((lba >>> 24) &&& 0x0F).toUInt8 = UInt8.ofNat (lba.toNat / 2 ^ 24 % 2 ^ 4) := by
  apply UInt8.toNat_inj.mp
  rw [UInt32.toNat_toUInt8, UInt32.toNat_and, UInt32.toNat_shiftRight,
    show (0x0F : UInt32).toNat = 2 ^ 4 - 1 from rfl, Nat.and_two_pow_sub_one_eq_mod,
    show (24 : UInt32).toNat % 32 = 24 from rfl, Nat.shiftRight_eq_div_pow, UInt8.toNat_ofNat']

/-- The select byte, computed in 8 bits. -/
theorem selectByte_eq (d : Fin 2) (lba : UInt32) :
    selectByte d lba = (0xE0 : UInt8) ||| ((UInt8.ofNat d.val <<< 4) &&& (0x10 : UInt8)) |||
      ((lba >>> 24) &&& 0x0F).toUInt8 := by
  have hdrive : ((Int32.ofNat d <<< 4) &&& 0x10).toUInt32.toUInt8 =
      (UInt8.ofNat d.val <<< 4) &&& (0x10 : UInt8) := by
    revert d
    decide
  rw [selectByte, UInt32.toUInt8_or, UInt32.toUInt8_or, hdrive]
  rfl

theorem selectMaster_eq (lba : UInt32) : selectMaster lba = selectByte 0 lba := by
  rw [selectByte_eq, selectMaster, UInt32.toUInt8_or]
  rfl

/-- The head nibble and the drive bit do not disturb each other. -/
theorem select_fields : ∀ (d : Fin 2) (head : Fin 16),
    ((0xE0 : UInt8) ||| ((UInt8.ofNat d.val <<< 4) &&& (0x10 : UInt8)) |||
        UInt8.ofNat head.val) &&& 0x0F = UInt8.ofNat head.val ∧
      (((0xE0 : UInt8) ||| ((UInt8.ofNat d.val <<< 4) &&& (0x10 : UInt8)) |||
        UInt8.ofNat head.val) &&& 0x10 = 0 ↔ d = 0) := by
  decide

theorem selectByte_head (d : Fin 2) (lba : UInt32) :
    (selectByte d lba &&& 0x0F).toNat = lba.toNat / 2 ^ 24 % 2 ^ 4 := by
  rw [selectByte_eq, head_eq, (select_fields d ⟨lba.toNat / 2 ^ 24 % 2 ^ 4, by omega⟩).1,
    UInt8.toNat_ofNat']
  exact Nat.mod_eq_of_lt (lt_trans (Nat.mod_lt _ (by omega)) (by omega))

theorem selectByte_drive (d : Fin 2) (lba : UInt32) : selectByte d lba &&& 0x10 = 0 ↔ d = 0 := by
  rw [selectByte_eq, head_eq]
  exact (select_fields d ⟨lba.toNat / 2 ^ 24 % 2 ^ 4, by omega⟩).2

/-- A channel with the registers as the driver latches them. -/
def Channel.latch (ch : Channel) (d : Fin 2) (lba : UInt32) : Channel :=
  { ch with
    select := selectByte d lba
    low := lba.toUInt8
    mid := (lba >>> 8).toUInt8
    high := (lba >>> 16).toUInt8 }

@[simp] theorem Channel.latch_drive (ch : Channel) (d : Fin 2) (lba : UInt32) :
    (ch.latch d lba).drive = d := by
  have hiff := selectByte_drive d lba
  unfold Channel.drive Channel.latch
  by_cases hd : d = 0
  · rw [if_pos (hiff.mpr hd), hd]
  · rw [if_neg (fun h => hd (hiff.mp h))]
    omega

/-- The four register fields reassemble to the low 28 bits. -/
@[simp] theorem Channel.latch_lba (ch : Channel) (d : Fin 2) (lba : UInt32) :
    (ch.latch d lba).lba = deviceLba lba := by
  have hlow : lba.toUInt8.toNat = lba.toNat % 2 ^ 8 := UInt32.toNat_toUInt8 lba
  have hmid : (lba >>> 8).toUInt8.toNat = lba.toNat / 2 ^ 8 % 2 ^ 8 := by
    rw [UInt32.toNat_toUInt8, UInt32.toNat_shiftRight, Nat.shiftRight_eq_div_pow]
    rfl
  have hhigh : (lba >>> 16).toUInt8.toNat = lba.toNat / 2 ^ 16 % 2 ^ 8 := by
    rw [UInt32.toNat_toUInt8, UInt32.toNat_shiftRight, Nat.shiftRight_eq_div_pow]
    rfl
  have hhead := selectByte_head d lba
  simp only [Channel.lba, Channel.latch, deviceLba, hlow, hmid, hhigh, hhead]
  omega

end Address

section Bus

variable (b : AtaBus) (c : Fin 2)

theorem decodePort_ioBase : ∀ c : Fin 2,
    AtaBus.decodePort (ioBase c) = some (c, 0) ∧ AtaBus.decodePort (ioBase c + 2) = some (c, 2) ∧
      AtaBus.decodePort (ioBase c + 3) = some (c, 3) ∧
      AtaBus.decodePort (ioBase c + 4) = some (c, 4) ∧
      AtaBus.decodePort (ioBase c + 5) = some (c, 5) ∧
      AtaBus.decodePort (ioBase c + 6) = some (c, 6) ∧
      AtaBus.decodePort (ioBase c + 7) = some (c, 7) := by
  decide

@[simp] theorem AtaBus.setChannel_channel (ch : Channel) : (b.setChannel c ch).channel c = ch :=
  Function.update_self _ _ _

@[simp] theorem AtaBus.setChannel_setChannel (ch ch' : Channel) :
    (b.setChannel c ch).setChannel c ch' = b.setChannel c ch' := by
  simp [setChannel]

theorem AtaBus.outb_select (v : UInt8) :
    b.outb (ioBase c + 6) v = b.setChannel c { b.channel c with select := v } := by
  rw [outb, (decodePort_ioBase c).2.2.2.2.2.1]
  rfl

theorem AtaBus.outb_count (v : UInt8) : b.outb (ioBase c + 2) v = b := by
  rw [outb, (decodePort_ioBase c).2.1]
  rfl

theorem AtaBus.outb_low (v : UInt8) :
    b.outb (ioBase c + 3) v = b.setChannel c { b.channel c with low := v } := by
  rw [outb, (decodePort_ioBase c).2.2.1]
  rfl

theorem AtaBus.outb_mid (v : UInt8) :
    b.outb (ioBase c + 4) v = b.setChannel c { b.channel c with mid := v } := by
  rw [outb, (decodePort_ioBase c).2.2.2.1]
  rfl

theorem AtaBus.outb_high (v : UInt8) :
    b.outb (ioBase c + 5) v = b.setChannel c { b.channel c with high := v } := by
  rw [outb, (decodePort_ioBase c).2.2.2.2.1]
  rfl

theorem AtaBus.outb_command (v : UInt8) : b.outb (ioBase c + 7) v = b.command c v := by
  rw [outb, (decodePort_ioBase c).2.2.2.2.2.2]
  rfl

theorem AtaBus.inb_status : b.inb (ioBase c + 7) =
    ((b.channel c).status,
      b.setChannel c ((b.channel c).doing ((b.channel c).busy - 1) (b.channel c).phase)) := by
  rw [inb, (decodePort_ioBase c).2.2.2.2.2.2]
  rfl

@[simp] theorem AtaBus.setChannel_answered (ch : Channel) :
    (b.setChannel c ch).answered = b.answered.setChannel c ch := rfl

@[simp] theorem AtaBus.setChannel_identified (ch : Channel) :
    (b.setChannel c ch).identified = b.identified.setChannel c ch := rfl

theorem AtaBus.command_read (ch : Channel) :
    (b.setChannel c ch).command c ataCmdReadSectors =
      b.answered.setChannel c (ch.doing b.next.busy
        (if b.next.abort then .failed else .dataIn true (b.media c ch.drive ch.lba).word 0)) := by
  rw [command, if_pos (by rfl), setChannel_answered, setChannel_setChannel, setChannel_channel]
  rfl

theorem AtaBus.command_write (ch : Channel) :
    (b.setChannel c ch).command c ataCmdWriteSectors =
      b.answered.setChannel c (ch.doing b.next.busy
        (if b.next.abort then .failed else .dataOut b.next (fun _ => 0) 0)) := by
  rw [command, if_neg (by decide), if_pos (by rfl), setChannel_answered, setChannel_setChannel,
    setChannel_channel]
  rfl

theorem AtaBus.command_identify (ch : Channel) :
    (b.setChannel c ch).command c ataCmdIdentify =
      b.identified.setChannel c (match b.identify b.scanned with
        | none => ch.doing 0 .absent
        | some d => ch.doing d.busy (.dataIn (!d.refused) d.word 0)) := by
  rw [command, if_neg (by decide), if_neg (by decide), if_pos (by rfl), setChannel_identified,
    setChannel_setChannel, setChannel_channel]
  rfl

/-- Channel `c` with the address of a sector command latched. -/
def AtaBus.latch (d : Fin 2) (lba : UInt32) : AtaBus :=
  b.setChannel c ((b.channel c).latch d lba)

/-- The register writes latch the address and start the command. -/
theorem run_issueCommand (s : Ports) (d : Fin 2) (lba : UInt32) (code : UInt8) {α : Type}
    (f : PortProgram α) :
    (do
      writeByte (ioBase c + 6) (selectByte d lba)
      writeByte (ioBase c + 2) 1
      writeByte (ioBase c + 3) lba.toUInt8
      writeByte (ioBase c + 4) (lba >>> 8).toUInt8
      writeByte (ioBase c + 5) (lba >>> 16).toUInt8
      writeByte (ioBase c + 7) code
      f : PortProgram α).run s =
    f.run { s with bus := (s.bus.latch c d lba).command c code } := by
  simp only [run_bind, run_writeByte, Option.bind_some, PortDevice.outb,
    AtaBus.outb_select, AtaBus.outb_count, AtaBus.outb_low, AtaBus.outb_mid, AtaBus.outb_high,
    AtaBus.outb_command, AtaBus.setChannel_channel, AtaBus.setChannel_setChannel]
  rfl

/-- A bus on which channel `c` is in the given activity. -/
def Ports.doing (s : Ports) (ch : Channel) (busy : ℕ) (phase : Phase) : Ports :=
  { s with bus := s.bus.setChannel c (ch.doing busy phase) }

theorem inb_doing (s : Ports) (ch : Channel) (busy : ℕ) (phase : Phase) :
    PortDevice.inb (ioBase c + 7) (s.doing c ch busy phase) =
      ((ch.doing busy phase).status, s.doing c ch (busy - 1) phase) := by
  simp only [PortDevice.inb, Ports.doing, AtaBus.inb_status, AtaBus.setChannel_channel,
    AtaBus.setChannel_setChannel]
  rfl

/-- What a drive that is there shows. -/
theorem Channel.status_doing (ch : Channel) (busy : ℕ) {phase : Phase} (hdrive : phase ≠ .absent) :
    (ch.doing busy phase).status =
      if 0 < busy then 0x80 else if phase.err then 0x41 else 0x58 := by
  cases phase with
  | absent => exact absurd rfl hdrive
  | _ => rfl

theorem Channel.status_ne_zero {ch : Channel} (hdrive : ch.phase ≠ .absent) : ch.status ≠ 0 := by
  have hshown := ch.status_doing ch.busy hdrive
  change ch.status = _ at hshown
  rw [hshown]
  split
  · decide
  · split <;> decide

/-- Polling drains the busy count of a channel that has a drive. -/
theorem run_poll (s : Ports) (ch : Channel) {phase : Phase} (hdrive : phase ≠ .absent)
    {k budget : ℕ} (hk : k < budget) :
    (pollUntilClear (ioBase c + 7) 0x80 budget).run (s.doing c ch k phase) =
      some ((), s.doing c ch 0 phase) := by
  have hbusy (k : ℕ) : (ch.doing (k + 1) phase).status &&& 0x80 ≠ 0 := by
    rw [Channel.status_doing _ _ hdrive, if_pos k.succ_pos]
    decide
  have hclear : (ch.doing 0 phase).status &&& 0x80 = 0 := by
    rw [Channel.status_doing _ _ hdrive, if_neg (lt_irrefl 0)]
    cases phase.err <;> decide
  refine run_pollUntilClear (fun k => s.doing c ch k phase) (fun k => ?_) ?_ hk
  · rw [inb_doing]
    exact ⟨hbusy k, rfl⟩
  · rw [inb_doing]
    exact ⟨hclear, rfl⟩

/-- A status read of a channel that is not busy changes nothing. -/
theorem run_status (s : Ports) (ch : Channel) (phase : Phase) :
    (readByte (ioBase c + 7)).run (s.doing c ch 0 phase) =
      some ((ch.doing 0 phase).status, s.doing c ch 0 phase) := by
  rw [run_readByte, inb_doing]

/-- ERR shows in the status of a failed or refused command only. -/
theorem status_err (ch : Channel) (phase : Phase) :
    (ch.doing 0 phase).status &&& 0x01 ≠ 0 ↔ phase.err = true := by
  by_cases hdrive : phase = .absent
  · rw [hdrive]
    simp [Channel.status, Channel.doing]
  · rw [Channel.status_doing _ _ hdrive, if_neg (lt_irrefl 0)]
    cases phase.err <;> decide

/-- One word comes in. -/
theorem run_receiveWord (s : Ports) (ch : Channel) (drq : Bool) (word : ℕ → UInt16) (pos : ℕ) :
    (readWord (ioBase c)).run (s.doing c ch 0 (.dataIn drq word pos)) =
      some (word pos, s.doing c ch 0 (.dataIn drq word (pos + 1))) := by
  simp only [run_readWord, PortDevice.inw, AtaBus.inw, (decodePort_ioBase c).1, Ports.doing,
    Channel.doing, AtaBus.setChannel_channel, AtaBus.setChannel_setChannel]

/-- Reading `count` words out of a transfer. -/
theorem run_readWords {α : Type} (s : Ports) (ch : Channel) (drq : Bool) (word : ℕ → UInt16)
    (step : ℕ → α → UInt16 → α) (val : ℕ → α) (count : ℕ)
    (hval : ∀ i < count, step i (val i) (word i) = val (i + 1)) :
    (forRange (fun i a => do
      let data ← readWord (ioBase c)
      return step i a data) count 0 (val 0)).run (s.doing c ch 0 (.dataIn drq word 0)) =
      some (val count, s.doing c ch 0 (.dataIn drq word count)) := by
  have h := run_forRange (fun i a => do
      let data ← readWord (ioBase c)
      return step i a data) (fun i => s.doing c ch 0 (.dataIn drq word i)) val count 0
      (fun i _ hi => by
        have hstep := hval i (by omega)
        rw [run_bind_of_run _ (run_receiveWord c s ch drq word i), run_pure, hstep])
  simpa using h

end Bus

section Read

variable (c d : Fin 2) (lba : UInt32)

/-- One more sector command has its answer. -/
def Ports.answered (s : Ports) : Ports := { s with bus := s.bus.answered }

/-- The ports after a read command has run its course. -/
def Ports.afterRead (s : Ports) : Ports :=
  s.answered.doing c ((s.bus.channel c).latch d lba) 0
    (if s.bus.next.abort then .failed else .dataIn true (s.bus.media c d (deviceLba lba)).word 256)

theorem command_latch_read (s : Ports) :
    ({ s with bus := (s.bus.latch c d lba).command c ataCmdReadSectors } : Ports) =
      s.answered.doing c ((s.bus.channel c).latch d lba) s.bus.next.busy
        (if s.bus.next.abort then .failed
          else .dataIn true (s.bus.media c d (deviceLba lba)).word 0) := by
  rw [AtaBus.latch, AtaBus.command_read, Channel.latch_drive, Channel.latch_lba]
  rfl

/-- The driver reads the sector `deviceLba lba` of drive `(c, d)`, or reports
the error the drive answers with and leaves the buffer as it was. -/
theorem run_ataReadSectorDisk (s : Ports) {budget : ℕ} (hbudget : s.bus.next.busy < budget)
    (buffer : ℕ) (m : Memory) :
    (Driver.ataReadSectorDisk budget c d lba buffer m).run s =
      if s.bus.next.abort then
        some ((-1, m), PortDevice.say "Error reading from disk." (s.afterRead c d lba))
      else
        some ((0, (s.bus.media c d (deviceLba lba)).toMemory m buffer), s.afterRead c d lba) := by
  rw [Driver.ataReadSectorDisk, run_issueCommand, command_latch_read, Ports.afterRead]
  by_cases habort : s.bus.next.abort = true
  · simp only [habort, if_true]
    rw [run_bind_of_run _ (run_poll c _ _ (by simp) hbudget),
      run_bind_of_run _ (run_status c _ _ _), if_pos ((status_err _ _).mpr rfl),
      run_bind_of_run _ (run_emit _ _), run_pure]
  · simp only [habort]
    rw [if_neg (by simp), if_neg (by simp), if_neg (by simp),
      run_bind_of_run _ (run_poll c _ _ (by simp) hbudget),
      run_bind_of_run _ (run_status c _ _ _), if_neg (by simp [status_err])]
    have hwords := run_readWords c s.answered ((s.bus.channel c).latch d lba) true
      (s.bus.media c d (deviceLba lba)).word (fun i m data => unpackWord m buffer i data)
      (fun i => (s.bus.media c d (deviceLba lba)).readInto m buffer i) 256
      (fun i hi => Sector.readInto_succ _ _ _ hi)
    rw [Sector.readInto_zero, Sector.readInto_all] at hwords
    rw [sectorSize, run_bind_of_run _ hwords, run_pure]

/-- The legacy routine is the general one at the primary master. -/
theorem ataReadSector_eq (budget : ℕ) (buffer : ℕ) (m : Memory) :
    Driver.ataReadSector budget lba buffer m =
      Driver.ataReadSectorDisk budget 0 0 lba buffer m := by
  rw [Driver.ataReadSector, selectMaster_eq]
  rfl

end Read

section Write

variable (c d : Fin 2) (lba : UInt32)

/-- The ports after a write of the sector `x`: the medium holds it unless the
drive refused the command or failed without keeping it. -/
def Ports.afterWrite (s : Ports) (x : Sector) : Ports :=
  let ch := (s.bus.channel c).latch d lba
  if s.bus.next.abort then s.answered.doing c ch 0 .failed
  else
    let s' := s.answered.doing c ch 0 (if s.bus.next.failed then .failed else .idle)
    if s.bus.next.failed = false ∨ s.bus.next.kept = true then
      { s' with bus := s'.bus.storeSector c d (deviceLba lba) x }
    else s'

theorem command_latch_write (s : Ports) :
    ({ s with bus := (s.bus.latch c d lba).command c ataCmdWriteSectors } : Ports) =
      s.answered.doing c ((s.bus.channel c).latch d lba) s.bus.next.busy
        (if s.bus.next.abort then .failed else .dataOut s.bus.next (fun _ => 0) 0) := by
  rw [AtaBus.latch, AtaBus.command_write]
  rfl

/-- The words of `m` from `buffer` on that the first `n` iterations send. -/
def sentWords (m : Memory) (buffer n : ℕ) : ℕ → UInt16 :=
  fun j => if j < n then packWord m buffer j else 0

theorem sentWords_succ (m : Memory) (buffer n : ℕ) :
    Function.update (sentWords m buffer n) n (packWord m buffer n) = sentWords m buffer (n + 1) := by
  funext j
  by_cases hj : j = n
  · subst hj
    simp [sentWords]
  · rw [Function.update_of_ne hj]
    exact if_congr (by omega) rfl rfl

/-- The state once all 256 words of a write are out: the transfer is over. -/
def Ports.transferred (s : Ports) (a : Answer) (ch : Channel) (x : Sector) : Ports :=
  let s' := s.doing c ch a.busyAfter (if a.failed then .failed else .idle)
  if a.failed = false ∨ a.kept = true then
    { s' with bus := s'.bus.storeSector c ch.drive ch.lba x }
  else s'

/-- One word goes out: the drive waits for the next one or stores the sector. -/
theorem run_sendWord (s : Ports) (a : Answer) (ch : Channel) (word : ℕ → UInt16) (pos : ℕ)
    (v : UInt16) :
    (writeWord (ioBase c) v).run (s.doing c ch 0 (.dataOut a word pos)) =
      some ((), if pos + 1 < 256 then
          s.doing c ch 0 (.dataOut a (Function.update word pos v) (pos + 1))
        else s.transferred c a ch (Sector.ofWords (Function.update word pos v))) := by
  have hsend : ∀ b : AtaBus, b.outw (ioBase c) v = _ := fun b => by
    rw [AtaBus.outw, (decodePort_ioBase c).1]
  simp only [run_writeWord, PortDevice.outw, hsend, Ports.doing, Channel.doing,
    AtaBus.setChannel_channel, AtaBus.setChannel_setChannel]
  by_cases hlast : pos + 1 < 256
  · simp only [if_pos hlast]
  · simp only [if_neg hlast, Ports.transferred, Ports.doing, Channel.doing]
    split <;> rfl

theorem run_writeWords (s : Ports) (a : Answer) (ch : Channel) (buffer : ℕ) (m : Memory) :
    (forRange (fun i _ => writeWord (ioBase c) (packWord m buffer i)) 256 0 ()).run
        (s.doing c ch 0 (.dataOut a (fun _ => 0) 0)) =
      some ((), s.transferred c a ch (Sector.ofMemory m buffer)) := by
  -- before iteration `i` the drive waits for word `i`, after the last one the sector is out
  let state : ℕ → Ports := fun i =>
    if i < 256 then s.doing c ch 0 (.dataOut a (sentWords m buffer i) i)
    else s.transferred c a ch (Sector.ofMemory m buffer)
  have hstep : ∀ i, 0 ≤ i → i < 0 + 256 →
      (writeWord (ioBase c) (packWord m buffer i)).run (state i) = some ((), state (i + 1)) := by
    intro i _ hi
    have hstate : state i = s.doing c ch 0 (.dataOut a (sentWords m buffer i) i) :=
      if_pos (by omega)
    rw [hstate, run_sendWord, sentWords_succ]
    by_cases hlast : i + 1 < 256
    · simp only [state, if_pos hlast]
    · have hwords : Sector.ofWords (sentWords m buffer (i + 1)) = Sector.ofMemory m buffer :=
        ofWords_packWord m buffer fun j hj => if_pos (by omega)
      simp only [state, if_neg hlast, hwords]
  have hnone : sentWords m buffer 0 = fun _ => 0 := by
    funext j
    simp [sentWords]
  have hloop := run_forRange (fun i _ => writeWord (ioBase c) (packWord m buffer i)) state
    (fun _ => ()) 256 0 hstep
  simpa [state, hnone] using hloop

/-- The driver stores the 512 bytes of `m` from `buffer` on as the sector
`deviceLba lba` of drive `(c, d)`, or reports the error the drive answers with. -/
theorem run_ataWriteSectorDisk (s : Ports) {budget : ℕ}
    (hbudget : s.bus.next.busy < budget) (hafter : s.bus.next.busyAfter < budget)
    (buffer : ℕ) (m : Memory) :
    (Driver.ataWriteSectorDisk budget c d lba buffer m).run s =
      let s' := s.afterWrite c d lba (Sector.ofMemory m buffer)
      if s.bus.next.abort then
        some (-1, PortDevice.say "Error: Disk reported an error before writing." s')
      else if s.bus.next.failed then
        some (-1, PortDevice.say "Error: Disk reported an error after writing." s')
      else some (0, s') := by
  rw [Driver.ataWriteSectorDisk, run_issueCommand, command_latch_write]
  by_cases habort : s.bus.next.abort = true
  · simp only [habort, if_true, Ports.afterWrite]
    rw [run_bind_of_run _ (run_poll c _ _ (by simp) hbudget),
      run_bind_of_run _ (run_status c _ _ _), if_pos ((status_err _ _).mpr rfl),
      run_bind_of_run _ (run_emit _ _), run_pure]
  · simp only [habort, Ports.afterWrite, Bool.false_eq_true, if_false]
    rw [run_bind_of_run _ (run_poll c _ _ (by simp) hbudget),
      run_bind_of_run _ (run_status c _ _ _), if_neg (by simp [status_err]), sectorSize,
      run_bind_of_run _ (run_writeWords c _ _ _ _ _)]
    -- what the medium keeps is settled; the channel is still busy
    set s₁ : Ports := if s.bus.next.failed = false ∨ s.bus.next.kept = true then
      { s.answered with
        bus := s.answered.bus.storeSector c d (deviceLba lba) (Sector.ofMemory m buffer) }
      else s.answered with hs₁
    have hsent : s.answered.transferred c s.bus.next ((s.bus.channel c).latch d lba)
        (Sector.ofMemory m buffer) = s₁.doing c ((s.bus.channel c).latch d lba)
          s.bus.next.busyAfter (if s.bus.next.failed then .failed else .idle) := by
      rw [Ports.transferred, Channel.latch_drive, Channel.latch_lba, hs₁]
      split <;> rfl
    rw [hsent, run_bind_of_run _ (run_poll c _ _ (by split <;> simp) hafter),
      run_bind_of_run _ (run_status c _ _ _)]
    by_cases hfailed : s.bus.next.failed = true
    · simp only [hfailed, if_true] at hs₁ ⊢
      rw [if_pos ((status_err _ _).mpr rfl), run_bind_of_run _ (run_emit _ _), run_pure, hs₁]
      split <;> rfl
    · simp only [hfailed, Bool.false_eq_true, if_false] at hs₁ ⊢
      rw [if_neg (by simp [status_err]), run_pure, hs₁]
      split <;> rfl

/-- The medium after a write, whether or not it succeeded. -/
theorem Ports.afterWrite_media (s : Ports) (x : Sector) :
    (s.afterWrite c d lba x).bus.media =
      if s.bus.next.abort = false ∧ (s.bus.next.failed = false ∨ s.bus.next.kept = true) then
        Function.update s.bus.media c (Function.update (s.bus.media c) d
          (Function.update (s.bus.media c d) (deviceLba lba) x))
      else s.bus.media := by
  unfold afterWrite
  by_cases habort : s.bus.next.abort = true
  · simp only [habort, if_true, Bool.true_eq_false, false_and, if_false]
    rfl
  · by_cases hstored : s.bus.next.failed = false ∨ s.bus.next.kept = true
    · simp only [habort, hstored, Bool.false_eq_true, if_false, true_and, if_true]
      rfl
    · simp only [habort, hstored, Bool.false_eq_true, if_false, and_false]
      rfl

/-- Apart from the medium a write only takes one answer. -/
theorem Ports.afterWrite_rest (s : Ports) (x : Sector) :
    (s.afterWrite c d lba x).bus.answers = s.bus.answers ∧
      (s.afterWrite c d lba x).bus.issued = s.bus.issued + 1 ∧
      (s.afterWrite c d lba x).bus.identify = s.bus.identify ∧
      (s.afterWrite c d lba x).bus.scanned = s.bus.scanned := by
  unfold afterWrite
  dsimp only
  split
  · exact ⟨rfl, rfl, rfl, rfl⟩
  · split
    · exact ⟨rfl, rfl, rfl, rfl⟩
    · exact ⟨rfl, rfl, rfl, rfl⟩

/-- A write touches no sector but its own. -/
theorem Ports.afterWrite_other (s : Ports) (x : Sector) {c' d' : Fin 2} {a : ℕ}
    (h : (c', d', a) ≠ (c, d, deviceLba lba)) :
    (s.afterWrite c d lba x).bus.media c' d' a = s.bus.media c' d' a := by
  rw [afterWrite_media]
  split
  · exact AtaBus.media_update_of_ne _ _ h
  · rfl

theorem ataWriteSector_eq (budget : ℕ) (buffer : ℕ) (m : Memory) :
    Driver.ataWriteSector budget lba buffer m =
      Driver.ataWriteSectorDisk budget 0 0 lba buffer m := by
  rw [Driver.ataWriteSector, selectMaster_eq]
  rfl

end Write

section Identify

variable (c d : Fin 2)

/-- A channel with the drive selected for IDENTIFY. -/
def Channel.selectDrive (ch : Channel) (d : Fin 2) : Channel :=
  { ch with select := (0xA0 : UInt8) ||| (UInt8.ofNat d.val <<< 4) }

/-- The ports after an IDENTIFY exchange. -/
def Ports.afterIdentify (s : Ports) : Ports :=
  { s with bus := s.bus.identified }.doing c ((s.bus.channel c).selectDrive d) 0
    (match s.bus.identify s.bus.scanned with
      | none => .absent
      | some a => .dataIn (!a.refused) a.word 256)

/-- The first 256 words of an IDENTIFY answer, as the buffer holds them. -/
def identifyBuffer (word : ℕ → UInt16) : ℕ → UInt16 := fun j => if j < 256 then word j else 0

/-- The ports while a drive prepares its answer to IDENTIFY. -/
def Ports.identifying (s : Ports) : Ports :=
  let ch := (s.bus.channel c).selectDrive d
  let s₁ : Ports := { s with bus := s.bus.identified }
  match s.bus.identify s.bus.scanned with
  | none => s₁.doing c ch 0 .absent
  | some a => s₁.doing c ch a.busy (.dataIn (!a.refused) a.word 0)

/-- The register writes that start an IDENTIFY. -/
theorem outb_identify (s : Ports) :
    PortDevice.outb (ioBase c + 7) ataCmdIdentify (PortDevice.outb (ioBase c + 6)
      ((0xA0 : UInt8) ||| (UInt8.ofNat d.val <<< 4)) s) = s.identifying c d := by
  simp only [PortDevice.outb, AtaBus.outb_select, AtaBus.outb_command]
  rw [AtaBus.command_identify, Ports.identifying]
  cases s.bus.identify s.bus.scanned <;> rfl

theorem run_issueIdentify (s : Ports) {α : Type} (f : PortProgram α) :
    (do
      writeByte (ioBase c + 6) ((0xA0 : UInt8) ||| (UInt8.ofNat d.val <<< 4))
      writeByte (ioBase c + 7) ataCmdIdentify
      f : PortProgram α).run s =
    f.run (s.identifying c d) := by
  rw [run_bind_of_run _ (run_writeByte _ _ _), run_bind_of_run _ (run_writeByte _ _ _),
    outb_identify]

/-- A drive position is skipped exactly when no drive answers; otherwise its
256 words are in the buffer. -/
theorem run_identifyDrive (s : Ports) {budget : ℕ}
    (hbudget : ∀ a, s.bus.identify s.bus.scanned = some a → a.busy < budget) :
    (Driver.identifyDrive budget c d).run s =
      some ((s.bus.identify s.bus.scanned).map (fun a => identifyBuffer a.word),
        s.afterIdentify c d) := by
  rw [Driver.identifyDrive, run_issueIdentify, Ports.identifying, Ports.afterIdentify]
  set s₁ : Ports := { s with bus := s.bus.identified }
  set ch := (s.bus.channel c).selectDrive d
  cases hanswer : s.bus.identify s.bus.scanned with
  | none =>
    rw [run_bind_of_run _ (run_status c _ _ _), if_pos (by rfl), run_pure]
    rfl
  | some a =>
    have hbusy := hbudget a hanswer
    have hpresent : (ch.doing a.busy (.dataIn (!a.refused) a.word 0)).status ≠ 0 :=
      Channel.status_ne_zero (by simp [Channel.doing])
    have hwords := run_readWords c s₁ ch (!a.refused) a.word
      (fun i (buffer : ℕ → UInt16) data => Function.update buffer i data)
      (fun i j => if j < i then a.word j else 0) 256 (fun i hi => by
        funext j
        by_cases hj : j = i
        · subst hj
          simp
        · rw [Function.update_of_ne hj]
          exact if_congr (by omega) rfl rfl)
    rw [run_bind_of_run _ (run_readByte _ _), inb_doing, if_neg hpresent,
      run_bind_of_run _ (run_poll c _ _ (by simp) (by omega : a.busy - 1 < budget))]
    simp only [Nat.not_lt_zero, if_false] at hwords
    rw [run_bind_of_run _ hwords, run_pure]
    rfl

end Identify

end EtyOS
