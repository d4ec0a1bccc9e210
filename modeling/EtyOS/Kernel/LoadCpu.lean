import EtyOS.Kernel.BootPageTables

/-!
# The processor while the kernel is loaded

The instructions of `main.asm` and `main64.asm` on the registers they use. `cpuid`, the
flags that `popfd` can change and the flags after a logical operation are the
processor's. Once paging is on every address is translated by the tables in memory,
and the code can go on only where it is mapped to itself.
-/

namespace EtyOS

open Library Paging

structure CpuidResult where
  eax : UInt32
  ebx : UInt32
  ecx : UInt32
  edx : UInt32

/-- CF, PF, AF, ZF, SF and OF. -/
def arithmeticFlags : UInt32 := 0x8D5

def directionFlag : UInt32 := 0x400
def idFlag : UInt32 := 0x200000

/-- The processor. `popfd` can change the arithmetic flags on all of them, and the ID flag
on those that have `cpuid`. -/
structure Processor where
  writableFlags : UInt32
  logicFlags : UInt32 → UInt32
  cpuid : UInt32 → CpuidResult
  arithmetic : arithmeticFlags &&& writableFlags = arithmeticFlags

section Bits

def bit (x : UInt32) (i : ℕ) : Bool := x.toBitVec.getLsbD i

variable {x y : UInt32} {i : ℕ}

theorem bit_ext (h : ∀ i < 32, bit x i = bit y i) : x = y :=
  UInt32.toBitVec_inj.mp (BitVec.eq_of_getLsbD_eq fun i hi => h i hi)

@[simp] theorem bit_and : bit (x &&& y) i = (bit x i && bit y i) := BitVec.getLsbD_and

@[simp] theorem bit_or : bit (x ||| y) i = (bit x i || bit y i) := BitVec.getLsbD_or

@[simp] theorem bit_xor : bit (x ^^^ y) i = (bit x i ^^ bit y i) := BitVec.getLsbD_xor

theorem bit_not (hi : i < 32) : bit (~~~x) i = !bit x i := by
  rw [bit, UInt32.toBitVec_not, BitVec.getLsbD_not]
  simp [hi, bit]

theorem bit_idFlag : ∀ i < 32, bit idFlag i = decide (i = 21) := by decide

theorem and_directionFlag_congr (h : bit x 10 = bit y 10) :
    x &&& directionFlag = y &&& directionFlag := by
  have hmask : ∀ i < 32, bit directionFlag i = decide (i = 10) := by decide
  apply bit_ext
  intro i hi
  rw [bit_and, bit_and, hmask i hi]
  by_cases hi10 : i = 10
  · rw [hi10, h]
  · simp [hi10]

theorem or_and_ne_zero {mask : UInt32} (hmask : mask ≠ 0) : (x ||| mask) &&& mask ≠ 0 := by
  have habsorb : (x ||| mask) &&& mask = mask := by
    apply bit_ext
    intro i _
    rw [bit_and, bit_or]
    cases bit mask i <;> simp
  rwa [habsorb]

theorem or_and_ne_zero_of_left {mask : UInt32} (h : x &&& mask ≠ 0) : (x ||| y) &&& mask ≠ 0 := by
  intro heq
  apply h
  apply bit_ext
  intro i _
  have hbit := congrArg (bit · i) heq
  have hzero : bit 0 i = false := by simp [bit]
  simp only [bit_and, bit_or, hzero, Bool.and_eq_false_iff, Bool.or_eq_false_iff] at hbit ⊢
  tauto

theorem uint64_or_and_ne_zero {v mask : UInt64} (hmask : mask ≠ 0) : (v ||| mask) &&& mask ≠ 0 := by
  have habsorb : (v ||| mask) &&& mask = mask := by
    rw [← UInt64.toBitVec_inj, UInt64.toBitVec_and, UInt64.toBitVec_or]
    apply BitVec.eq_of_getLsbD_eq
    intro i _
    rw [BitVec.getLsbD_and, BitVec.getLsbD_or]
    cases mask.toBitVec.getLsbD i <;> simp
  rwa [habsorb]

/-- `edx:eax` as `rdmsr` has filled them. -/
theorem uint64_halves (v : UInt64) :
    ((v >>> 32).toUInt32.toUInt64 <<< 32) ||| v.toUInt32.toUInt64 = v := by
  have hv := v.toNat_lt
  have hor := Nat.two_pow_add_eq_or_of_lt (Nat.mod_lt v.toNat (by decide : 0 < 2 ^ 32))
    (v.toNat / 2 ^ 32)
  have hhigh : ((v >>> 32).toUInt32.toUInt64 <<< 32).toNat = 2 ^ 32 * (v.toNat / 2 ^ 32) := by
    simp [Nat.shiftRight_eq_div_pow, Nat.shiftLeft_eq]
    omega
  rw [← UInt64.toNat_inj, UInt64.toNat_or, hhigh, UInt32.toNat_toUInt64, UInt64.toNat_toUInt32,
    ← hor]
  omega

end Bits

namespace Processor

variable (p : Processor)

/-- The flags after `popfd`. -/
def popFlags (flags image : UInt32) : UInt32 :=
  (flags &&& ~~~p.writableFlags) ||| (image &&& p.writableFlags)

theorem bit_popFlags {flags image : UInt32} {i : ℕ} (hi : i < 32) :
    bit (p.popFlags flags image) i = if bit p.writableFlags i then bit image i else bit flags i := by
  rw [popFlags, bit_or, bit_and, bit_and, bit_not hi]
  cases bit p.writableFlags i <;> simp

theorem bit_writable {i : ℕ} (h : bit arithmeticFlags i = true) :
    bit p.writableFlags i = true := by
  have hi := congrArg (bit · i) p.arithmetic
  simpa [h] using hi

/-- The flags that `check_cpuid` reads back differ exactly if the ID flag can be changed. -/
theorem readBack_iff (flags result : UInt32) :
    p.popFlags ((flags &&& ~~~arithmeticFlags) ||| (result &&& arithmeticFlags))
        ((flags &&& 0x00FCFFFF) ^^^ idFlag) &&& 0x00FCFFFF = flags &&& 0x00FCFFFF ↔
      bit p.writableFlags 21 = false := by
  constructor
  · intro h
    have hbit := congrArg (bit · 21) h
    have hid : bit idFlag 21 = true := by decide
    have hpushed : bit 0x00FCFFFF 21 = true := by decide
    simp only [bit_and, p.bit_popFlags (by decide : 21 < 32), bit_xor, hid, hpushed] at hbit
    cases hw : bit p.writableFlags 21
    · rfl
    · simp [hw] at hbit
  · intro h
    apply bit_ext
    intro i hi
    rw [bit_and, bit_and, p.bit_popFlags hi]
    by_cases hw : bit p.writableFlags i = true
    · have hid : bit idFlag i = false := by
        rw [bit_idFlag i hi, decide_eq_false_iff_not]
        rintro rfl
        simp [h] at hw
      simp [hw, hid]
    · have harith : bit arithmeticFlags i = false :=
        Bool.eq_false_iff.mpr fun h => hw (p.bit_writable h)
      simp [hw, harith, bit_not hi]

/-- A flag that is pushed, and is not touched in between, has its value again when what was
pushed first is popped. -/
theorem bit_restored (flags result : UInt32) {changed : UInt32} {i : ℕ} (hi : i < 32)
    (hpushed : bit 0x00FCFFFF i = true) (harith : bit arithmeticFlags i = false) :
    bit (p.popFlags (p.popFlags ((flags &&& ~~~arithmeticFlags) ||| (result &&& arithmeticFlags))
      changed) (flags &&& 0x00FCFFFF)) i = bit flags i := by
  rw [p.bit_popFlags hi, p.bit_popFlags hi]
  cases bit p.writableFlags i <;> simp [hpushed, harith, bit_not hi]

/-- The ID flag can be changed. -/
def HasCpuid : Prop := bit p.writableFlags 21 = true

instance : Decidable p.HasCpuid := inferInstanceAs (Decidable (_ = _))

end Processor

def cr0PE : UInt32 := 1
def cr0PG : UInt32 := 0x80000000
def cr4PAE : UInt32 := 0x20
def cr4LA57 : UInt32 := 0x1000
def eferLME : UInt64 := 0x100
def eferLMA : UInt64 := 0x400

/-- The registers while the kernel is loaded. `flags` follows `popfd` and the one logical
operation whose flags are pushed. -/
structure LoadCpu extends Cpu where
  ebx : UInt32
  esi : UInt32
  edi : UInt32
  esp : UInt32
  flags : UInt32
  cr0 : UInt32
  cr3 : UInt32
  cr4 : UInt32
  efer : UInt64
  gdtLimit : ℕ
  gdtBase : ℕ

/-- Where the code goes: on, to `error`, or to a fault. -/
inductive Flow (α : Type) where
  | next (a : α)
  | error (s : LoadCpu)
  | fault

namespace Flow

variable {α β : Type}

instance : Monad Flow where
  pure := next
  bind
    | next a, f => f a
    | error s, _ => error s
    | fault, _ => fault

@[simp] theorem pure_eq (a : α) : (pure a : Flow α) = next a := rfl

@[simp] theorem next_bind (a : α) (f : α → Flow β) : next a >>= f = f a := rfl

theorem bind_assoc {γ : Type} (x : Flow α) (f : α → Flow β) (g : β → Flow γ) :
    x >>= f >>= g = x >>= fun a => f a >>= g := by
  cases x <;> rfl

@[simp] theorem error_bind (s : LoadCpu) (f : α → Flow β) : error s >>= f = error s := rfl

end Flow

namespace LoadCpu

/-! ### Memory -/

/-- The physical address; walks of five levels are not modelled. -/
def linear (s : LoadCpu) (a : ℕ) : Flow ℕ :=
  if s.cr0 &&& cr0PG = 0 then .next a
  else if s.cr4 &&& cr4LA57 ≠ 0 then .fault
  else
    match walk s.memory s.cr3.toNat a with
    | .page physical _ _ => .next physical
    | _ => .fault

/-- The `n`-byte word at `a`, each byte through its own translation. -/
def read (s : LoadCpu) (a : ℕ) : ℕ → Flow ℕ
  | 0 => .next 0
  | n + 1 => do
    let physical ← s.linear a
    let rest ← s.read (a + 1) n
    return (s.memory physical).toNat + 256 * rest

/-- An aligned store, which stays in its page. -/
def store (s : LoadCpu) (a n v : ℕ) : Flow LoadCpu := do
  let physical ← s.linear a
  return { s with memory := s.memory.store physical n v }

/-! ### The stack -/

def push (v : UInt32) (s : LoadCpu) : Flow LoadCpu := do
  let s := { s with esp := s.esp - 4 }
  s.store s.esp.toNat 4 v.toNat

def pop (s : LoadCpu) : Flow (UInt32 × LoadCpu) := do
  let v ← s.read s.esp.toNat 4
  return (UInt32.ofNat v, { s with esp := s.esp + 4 })

/-- The next instruction is fetched from `a`. -/
def fetch (a : UInt32) (s : LoadCpu) : Flow LoadCpu := do
  let physical ← s.linear a.toNat
  if physical = a.toNat then return s else .fault

/-- `ret`, behind a `call` that has pushed `back`. -/
def ret (back : UInt32) (s : LoadCpu) : Flow LoadCpu := do
  let (v, s) ← s.pop
  if v = back then s.fetch back else .fault

def call (back : UInt32) (body : LoadCpu → Flow LoadCpu) (s : LoadCpu) : Flow LoadCpu := do
  let s ← s.push back
  let s ← body s
  s.ret back

/-- `pushfd`: RF and VM are pushed as 0. -/
def pushfd (s : LoadCpu) : Flow LoadCpu := s.push (s.flags &&& 0x00FCFFFF)

def popfd (p : Processor) (s : LoadCpu) : Flow LoadCpu := do
  let (v, s) ← s.pop
  return { s with flags := p.popFlags s.flags v }

def popEax (s : LoadCpu) : Flow LoadCpu := do
  let (v, s) ← s.pop
  return { s with eax := v }

def popEcx (s : LoadCpu) : Flow LoadCpu := do
  let (v, s) ← s.pop
  return { s with ecx := v }

/-! ### Registers -/

def al (s : LoadCpu) : ℕ := s.eax.toNat % 256

def ax (s : LoadCpu) : ℕ := s.eax.toNat % 65536

def movAl (v : UInt8) (s : LoadCpu) : LoadCpu :=
  { s with eax := UInt32.ofNat (s.eax.toNat / 256 * 256 + v.toNat) }

def movAh (v : UInt8) (s : LoadCpu) : LoadCpu :=
  { s with eax := UInt32.ofNat (s.eax.toNat / 65536 * 65536 + v.toNat * 256 + s.al) }

def movAx (v : UInt16) (s : LoadCpu) : LoadCpu :=
  { s with eax := UInt32.ofNat (s.eax.toNat / 65536 * 65536 + v.toNat) }

def xorEax (p : Processor) (v : UInt32) (s : LoadCpu) : LoadCpu :=
  { s with
    eax := s.eax ^^^ v
    flags := (s.flags &&& ~~~arithmeticFlags) ||| (p.logicFlags (s.eax ^^^ v) &&& arithmeticFlags) }

def cpuid (p : Processor) (s : LoadCpu) : LoadCpu :=
  let result := p.cpuid s.eax
  { s with eax := result.eax, ebx := result.ebx, ecx := result.ecx, edx := result.edx }

/-! ### Strings -/

/-- The address behind a string instruction of `n` bytes. -/
def advance (s : LoadCpu) (a n : UInt32) : UInt32 :=
  if s.flags &&& directionFlag = 0 then a + n else a - n

def stosw (s : LoadCpu) : Flow LoadCpu := do
  let s ← s.store s.edi.toNat 2 s.ax
  return { s with edi := s.advance s.edi 2 }

/-- `rep stosw` with `ecx` at `n`. -/
def repStosw : ℕ → LoadCpu → Flow LoadCpu
  | 0, s => .next s
  | n + 1, s => do
    let s ← s.stosw
    repStosw n { s with ecx := s.ecx - 1 }

def lodsb (s : LoadCpu) : Flow LoadCpu := do
  let v ← s.read s.esi.toNat 1
  return { (s.movAl (UInt8.ofNat v)) with esi := s.advance s.esi 1 }

/-! ### Control registers -/

/-- `rdmsr` and `wrmsr` with `EFER` in `ecx`; other registers are not modelled. -/
def rdmsr (s : LoadCpu) : Flow LoadCpu :=
  if s.ecx = 0xC0000080 then
    .next { s with eax := s.efer.toUInt32, edx := (s.efer >>> 32).toUInt32 }
  else .fault

def wrmsr (s : LoadCpu) : Flow LoadCpu :=
  if s.ecx = 0xC0000080 then
    .next { s with efer := (s.edx.toUInt64 <<< 32) ||| s.eax.toUInt64 }
  else .fault

/-- `mov cr0, eax`. To turn paging on takes protected mode and, with `EFER.LME`, PAE; then
long mode becomes active. -/
def movCr0 (s : LoadCpu) : Flow LoadCpu :=
  if s.eax &&& cr0PG = 0 ∨ s.cr0 &&& cr0PG ≠ 0 then .next { s with cr0 := s.eax }
  else if s.eax &&& cr0PE = 0 then .fault
  else if s.efer &&& eferLME = 0 then .next { s with cr0 := s.eax }
  else if s.cr4 &&& cr4PAE = 0 then .fault
  else .next { s with cr0 := s.eax, efer := s.efer ||| eferLMA }

/-- `lgdt [a]`: the limit and a base of 32 bits. -/
def lgdt (a : UInt32) (s : LoadCpu) : Flow LoadCpu := do
  let limit ← s.read a.toNat 2
  let base ← s.read (a.toNat + 2) 4
  return { s with gdtLimit := limit, gdtBase := base }

/-- A segment of 64-bit code: code segment, present, of the highest privilege, and L
without D. -/
def Is64BitCode (descriptor : ℕ) : Prop :=
  descriptor / 2 ^ 43 % 4 = 3 ∧ descriptor / 2 ^ 45 % 4 = 0 ∧ descriptor / 2 ^ 47 % 2 = 1 ∧
    descriptor / 2 ^ 53 % 4 = 1

instance (descriptor : ℕ) : Decidable (Is64BitCode descriptor) :=
  inferInstanceAs (Decidable (_ ∧ _ ∧ _ ∧ _))

/-- `jmp selector:a` into 64-bit mode. -/
def farJump (selector : ℕ) (a : UInt32) (s : LoadCpu) : Flow LoadCpu := do
  let descriptor ← s.read (s.gdtBase + selector) 8
  if selector + 7 ≤ s.gdtLimit ∧ Is64BitCode descriptor ∧ s.efer &&& eferLMA ≠ 0 then s.fetch a
  else .fault

/-! ### Where addresses lead -/

/-- These addresses are translated to themselves. -/
def Direct (s : LoadCpu) (a n : ℕ) : Prop := ∀ b, a ≤ b → b < a + n → s.linear b = .next b

def Unpaged (s : LoadCpu) : Prop := s.cr0 &&& cr0PG = 0

variable {s : LoadCpu} {a n : ℕ} {β : Type}

theorem Unpaged.linear (h : s.Unpaged) (a : ℕ) : s.linear a = .next a := if_pos h

theorem Unpaged.withEsp (h : s.Unpaged) (v : UInt32) : Unpaged { s with esp := v } := h

theorem Unpaged.direct (h : s.Unpaged) (a n : ℕ) : s.Direct a n := fun b _ _ => h.linear b

theorem Direct.mono (h : s.Direct a n) {b k : ℕ} (hb : a ≤ b) (hk : b + k ≤ a + n) :
    s.Direct b k := fun c hc hc' => h c (by omega) (by omega)

theorem Direct.congr {s' : LoadCpu} (h : s.Direct a n) (hcr0 : s'.cr0 = s.cr0)
    (hcr3 : s'.cr3 = s.cr3) (hcr4 : s'.cr4 = s.cr4) (hmemory : s'.memory = s.memory) :
    s'.Direct a n := by
  intro b hb hb'
  have hlinear := h b hb hb'
  rw [LoadCpu.linear] at hlinear ⊢
  rw [hcr0, hcr3, hcr4, hmemory]
  exact hlinear

theorem Direct.read (h : s.Direct a n) : s.read a n = .next (s.memory.load a n) := by
  induction n generalizing a with
  | zero => rfl
  | succ n ih =>
    have hrest := ih (h.mono (b := a + 1) (by omega) (by omega))
    rw [LoadCpu.read, h a le_rfl (by omega), Flow.next_bind, hrest]
    rfl

theorem Direct.store (h : s.Direct a n) (hn : 0 < n) (v : ℕ) :
    s.store a n v = .next { s with memory := s.memory.store a n v } := by
  rw [LoadCpu.store, h a le_rfl (by omega)]
  rfl

theorem Direct.fetch {a : UInt32} (h : s.Direct a.toNat 1) : s.fetch a = .next s := by
  rw [LoadCpu.fetch, h a.toNat le_rfl (by omega)]
  exact if_pos rfl

theorem esp_sub {d : UInt32} (hd : d.toNat ≤ s.esp.toNat) :
    (s.esp - d).toNat = s.esp.toNat - d.toNat :=
  UInt32.toNat_sub_of_le _ _ (UInt32.le_iff_toNat_le.mpr hd)

theorem Unpaged.push (h : s.Unpaged) (hesp : 4 ≤ s.esp.toNat) (v : UInt32) :
    s.push v = .next { s with
      esp := s.esp - 4, memory := s.memory.store (s.esp.toNat - 4) 4 v.toNat } := by
  have hdirect : Direct { s with esp := s.esp - 4 } (s.esp - 4).toNat 4 :=
    Unpaged.direct (s := { s with esp := s.esp - 4 }) h _ _
  have hsub : (s.esp - 4).toNat = s.esp.toNat - 4 := esp_sub hesp
  rw [LoadCpu.push]
  dsimp only
  rw [hdirect.store (by decide), hsub]

theorem Direct.pop (h : s.Direct s.esp.toNat 4) :
    s.pop = .next (UInt32.ofNat (s.memory.load s.esp.toNat 4), { s with esp := s.esp + 4 }) := by
  rw [LoadCpu.pop, h.read]
  rfl

/-- The word that has been pushed last. -/
theorem Direct.pop_of_load (h : s.Direct s.esp.toNat 4) {v : UInt32}
    (hv : s.memory.load s.esp.toNat 4 = v.toNat) : s.pop = .next (v, { s with esp := s.esp + 4 }) := by
  rw [h.pop, hv, UInt32.ofNat_toNat]

/-- The word that has just been pushed. -/
theorem Unpaged.push_pop (h : s.Unpaged) (hesp : 4 ≤ s.esp.toNat) (v : UInt32)
    (f : UInt32 × LoadCpu → Flow β) :
    (s.push v >>= fun s => s.pop >>= f) =
      f (v, { s with memory := s.memory.store (s.esp.toNat - 4) 4 v.toNat }) := by
  have hsub : (s.esp - 4).toNat = s.esp.toNat - 4 := esp_sub hesp
  set pushed : LoadCpu := { s with
    esp := s.esp - 4, memory := s.memory.store (s.esp.toNat - 4) 4 v.toNat } with hpushed
  have hdirect : pushed.Direct pushed.esp.toNat 4 := Unpaged.direct (s := pushed) h _ _
  have hload : pushed.memory.load pushed.esp.toNat 4 = v.toNat := by
    rw [hpushed]
    dsimp only
    rw [hsub, Memory.load_store_of_lt _ (Nat.lt_of_lt_of_le v.toNat_lt (by decide))]
  rw [h.push hesp, Flow.next_bind, hdirect.pop_of_load hload, Flow.next_bind, hpushed,
    UInt32.sub_add_cancel]

theorem Unpaged.pushfd_popEax (h : s.Unpaged) (hesp : 4 ≤ s.esp.toNat)
    (f : LoadCpu → Flow β) :
    (s.pushfd >>= fun s => s.popEax >>= f) = f { s with
      eax := s.flags &&& 0x00FCFFFF
      memory := s.memory.store (s.esp.toNat - 4) 4 (s.flags &&& 0x00FCFFFF).toNat } := by
  have hpop := h.push_pop hesp (s.flags &&& 0x00FCFFFF) fun r => f { r.2 with eax := r.1 }
  simp only [popEax, Flow.bind_assoc]
  exact hpop

theorem Unpaged.push_popfd (h : s.Unpaged) (hesp : 4 ≤ s.esp.toNat) (p : Processor) (v : UInt32)
    (f : LoadCpu → Flow β) :
    (s.push v >>= fun s => s.popfd p >>= f) = f { s with
      flags := p.popFlags s.flags v
      memory := s.memory.store (s.esp.toNat - 4) 4 v.toNat } := by
  have hpop := h.push_pop hesp v fun r => f { r.2 with flags := p.popFlags r.2.flags r.1 }
  simp only [popfd, Flow.bind_assoc]
  exact hpop

/-- A procedure that leaves its return address where it is comes back. -/
theorem call_next {back : UInt32} {body : LoadCpu → Flow LoadCpu} {s' : LoadCpu} (h : s.Unpaged)
    (hesp : 4 ≤ s.esp.toNat)
    (hbody : body { s with
      esp := s.esp - 4, memory := s.memory.store (s.esp.toNat - 4) 4 back.toNat } = .next s')
    (hstack : s'.esp = s.esp - 4) (hload : s'.memory.load (s.esp.toNat - 4) 4 = back.toNat)
    (hdirect : s'.Direct (s.esp.toNat - 4) 4) (hback : s'.Direct back.toNat 1) :
    s.call back body = .next { s' with esp := s.esp } := by
  have hsub : s'.esp.toNat = s.esp.toNat - 4 := hstack ▸ esp_sub hesp
  have hpop : s'.pop = .next (back, { s' with esp := s'.esp + 4 }) := by
    rw [← hsub] at hload hdirect
    exact hdirect.pop_of_load hload
  have hesp' : s'.esp + 4 = s.esp := by
    rw [hstack, UInt32.sub_add_cancel]
  have hfetch : Direct { s' with esp := s.esp } back.toNat 1 := hback.congr rfl rfl rfl rfl
  rw [call, h.push hesp, Flow.next_bind, hbody, Flow.next_bind, LoadCpu.ret, hpop, Flow.next_bind]
  dsimp only
  rw [if_pos rfl, hesp', hfetch.fetch]

theorem call_error {back : UInt32} {body : LoadCpu → Flow LoadCpu} {s' : LoadCpu} (h : s.Unpaged)
    (hesp : 4 ≤ s.esp.toNat)
    (hbody : body { s with
      esp := s.esp - 4, memory := s.memory.store (s.esp.toNat - 4) 4 back.toNat } = .error s') :
    s.call back body = .error s' := by
  rw [call, h.push hesp, Flow.next_bind, hbody, Flow.error_bind]

end LoadCpu

end EtyOS
