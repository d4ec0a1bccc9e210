import EtyOS.Console.CString
import EtyOS.Kernel.LoadCpu

/-!
# Loading the kernel

`start` of `main.asm` and `longmode_start` of `main64.asm`, which lead from the boot
loader to `kernel_main` or to an error message on the screen. The three checks decide
which; on the one way long mode is active and the first gigabyte is mapped to itself, on
the other the screen shows which check has failed and nothing has been set up.
-/

namespace EtyOS

open Library Paging LoadCpu

/-- The instructions behind the calls. -/
inductive CodeLabel where
  | checkMultiboot | checkCpuid | checkLongmode | setupPageTables | enablePaging
  | displayError | errorPrefix | errorMessage | longmodeStart
  deriving DecidableEq

def errPrefix : List UInt8 := chars "etyOS2 Kernel Load Error: "
def multibootErr : List UInt8 := chars "Multiboot check failed"
def cpuidErr : List UInt8 := chars "CPUID not supported"
def longmodeErr : List UInt8 := chars "Long mode not supported"

/-- The sections as the linker has placed them: from 1 MB on, and not beyond the first
gigabyte. The stack of 16 KB lies in `.bss` behind the tables. -/
structure BootImage where
  tables : BootTables
  data : UInt32
  gdt64 : UInt32
  code : CodeLabel → UInt32
  bss_low : 0x100000 ≤ tables.pageTableL4.toNat
  bss_high : tables.pageTableL4.toNat + 28672 ≤ 2 ^ 30
  data_low : 0x100000 ≤ data.toNat
  data_high : data.toNat + 94 ≤ 2 ^ 30
  data_apart : data.toNat + 94 ≤ tables.pageTableL4.toNat ∨
    tables.pageTableL4.toNat + 28672 ≤ data.toNat
  gdt_high : gdt64.toNat + 26 ≤ 2 ^ 30
  gdt_apart : gdt64.toNat + 26 ≤ tables.pageTableL4.toNat ∨
    tables.pageTableL4.toNat + 28672 ≤ gdt64.toNat
  code_high : ∀ label, (code label).toNat < 2 ^ 30

namespace BootImage

variable (image : BootImage)

def stackTop : UInt32 := image.tables.pageTableL4 + 28672

def errPrefixAt : UInt32 := image.data
def multibootErrAt : UInt32 := image.data + 27
def cpuidErrAt : UInt32 := image.data + 50
def longmodeErrAt : UInt32 := image.data + 70

def gdt64Pointer : UInt32 := image.gdt64 + 16

end BootImage

/-- `(1 << 43) | (1 << 44) | (1 << 47) | (1 << 53)`. -/
def codeSegment : ℕ := 2 ^ 43 + 2 ^ 44 + 2 ^ 47 + 2 ^ 53

/-! ### `main.asm` -/

def checkMultiboot (s : LoadCpu) : Flow LoadCpu :=
  if s.eax ≠ 0x36d76289 then .error (s.movAl 77)
  else return s

def checkCpuid (p : Processor) (s : LoadCpu) : Flow LoadCpu := do
  let s ← s.pushfd
  let s ← s.popEax
  let s := { s with ecx := s.eax }
  let s := s.xorEax p idFlag
  let s ← s.push s.eax
  let s ← s.popfd p
  let s ← s.pushfd
  let s ← s.popEax
  let s ← s.push s.ecx
  let s ← s.popfd p
  if s.eax = s.ecx then .error (s.movAl 67)
  else return s

def checkLongmode (p : Processor) (s : LoadCpu) : Flow LoadCpu :=
  let s := ({ s with eax := 0x80000000 } : LoadCpu).cpuid p
  if s.eax < 0x80000001 then .error (s.movAl 76)
  else
    let s := ({ s with eax := 0x80000001 } : LoadCpu).cpuid p
    if s.edx &&& 0x20000000 = 0 then .error (s.movAl 76)
    else return s

def setupPageTables (image : BootImage) (s : LoadCpu) : Flow LoadCpu :=
  return { s with toCpu := image.tables.setupPageTables s.toCpu }

def enablePaging (image : BootImage) (s : LoadCpu) : Flow LoadCpu := do
  let s := { s with eax := image.tables.pageTableL4 }
  let s := { s with cr3 := s.eax }
  let s := { s with eax := s.cr4 }
  let s := { s with eax := s.eax ||| cr4PAE }
  let s := { s with cr4 := s.eax }
  let s := { s with ecx := 0xC0000080 }
  let s ← s.rdmsr
  let s := { s with eax := s.eax ||| 0x100 }
  let s ← s.wrmsr
  let s := { s with eax := s.cr0 }
  let s := { s with eax := s.eax ||| cr0PG }
  s.movCr0

def start (p : Processor) (image : BootImage) (s : LoadCpu) : Flow LoadCpu := do
  let s := { s with esp := image.stackTop }
  let s ← s.call (image.code .checkMultiboot) checkMultiboot
  let s ← s.call (image.code .checkCpuid) (checkCpuid p)
  let s ← s.call (image.code .checkLongmode) (checkLongmode p)
  let s ← s.call (image.code .setupPageTables) (setupPageTables image)
  let s ← s.call (image.code .enablePaging) (enablePaging image)
  let s ← s.lgdt image.gdt64Pointer
  s.farJump 8 (image.code .longmodeStart)

/-- The loop of `print_string`; a string is followed for at most `steps` characters. -/
def printLoop : ℕ → LoadCpu → Flow LoadCpu
  | 0, _ => .fault
  | steps + 1, s => do
    let s ← s.lodsb
    if s.al = 0 then return s
    else
      let s ← s.store s.edi.toNat 2 s.ax
      printLoop steps { s with edi := s.edi + 2 }

def printString (steps : ℕ) (s : LoadCpu) : Flow LoadCpu := do
  let s ← s.push s.eax
  let s ← s.push s.ecx
  let s := s.movAh 0x4F
  let s ← printLoop steps s
  let s ← s.popEcx
  s.popEax

/-- The choice of the message in `display_error`. -/
def errorMessage (image : BootImage) (s : LoadCpu) : LoadCpu :=
  let s := { s with esi := image.multibootErrAt }
  if s.al = 77 then s
  else if s.al = 67 then { s with esi := image.cpuidErrAt }
  else if s.al = 76 then { s with esi := image.longmodeErrAt }
  else s

def displayError (image : BootImage) (steps : ℕ) (s : LoadCpu) : Flow LoadCpu := do
  let s := { s with edi := 0xb8000 }
  let s ← s.push s.eax
  let s := { s with ecx := 80 * 25 }
  let s := s.movAx 0x4020
  let s ← repStosw s.ecx.toNat s
  let s ← s.popEax
  let s := { s with edi := 0xb8000 }
  let s := { s with esi := image.errPrefixAt }
  let s ← s.call (image.code .errorPrefix) (printString steps)
  let s := errorMessage image s
  s.call (image.code .errorMessage) (printString steps)

/-- `error`, up to the endless `jmp $`. -/
def error (image : BootImage) (steps : ℕ) (s : LoadCpu) : Flow LoadCpu := do
  let s ← s.push s.eax
  s.call (image.code .displayError) (displayError image steps)

/-! ### `main64.asm` -/

/-- `longmode_start` up to the call of `kernel_main`: the selectors are null, and a return
address of 8 bytes is on the stack. -/
def longmodeStart (back : ℕ) (s : LoadCpu) : Flow LoadCpu := do
  let s := s.movAx 0
  let s := { s with esp := s.esp - 8 }
  s.store s.esp.toNat 8 back

/-- What becomes of the machine: `kernel_main` is called, or it stops behind an error. -/
inductive Loading where
  | kernelMain (s : LoadCpu)
  | stopped (s : LoadCpu)
  | fault

def load (p : Processor) (image : BootImage) (steps back : ℕ) (s : LoadCpu) : Loading :=
  match start p image s with
  | .next s =>
    match longmodeStart back s with
    | .next s => .kernelMain s
    | _ => .fault
  | .error s =>
    match error image steps s with
    | .next s => .stopped s
    | _ => .fault
  | .fault => .fault

/-! ### The checks -/

/-- What a check leaves: it uses registers and one word of the stack. -/
structure Leaves (s s' : LoadCpu) : Prop where
  esp : s'.esp = s.esp
  cr0 : s'.cr0 = s.cr0
  cr3 : s'.cr3 = s.cr3
  cr4 : s'.cr4 = s.cr4
  efer : s'.efer = s.efer
  direction : s'.flags &&& directionFlag = s.flags &&& directionFlag
  memory : s'.memory.SameOutside s.memory (s.esp.toNat - 4) 4

section Checks

variable {s : LoadCpu}

theorem checkMultiboot_spec (s : LoadCpu) : ∃ s', Leaves s s' ∧
    checkMultiboot s = if s.eax = 0x36d76289 then .next s' else .error (s'.movAl 77) := by
  refine ⟨s, ⟨rfl, rfl, rfl, rfl, rfl, rfl, Memory.SameOutside.refl _ _ _⟩, ?_⟩
  by_cases hmagic : s.eax = 0x36d76289 <;> simp [checkMultiboot, hmagic]

/-- `check_cpuid` comes back exactly if the ID flag can be changed. -/
theorem checkCpuid_spec (h : s.Unpaged) (hesp : 4 ≤ s.esp.toNat) (p : Processor) :
    ∃ s', Leaves s s' ∧
      checkCpuid p s = if p.HasCpuid then .next s' else .error (s'.movAl 67) := by
  have hsame {m : Memory} (v : ℕ) (hm : m.SameOutside s.memory (s.esp.toNat - 4) 4) :
      (m.store (s.esp.toNat - 4) 4 v).SameOutside s.memory (s.esp.toNat - 4) 4 := fun b hb =>
    (Memory.store_frame m v (by omega)).trans (hm b hb)
  let s₁ : LoadCpu := { s with
    eax := s.flags &&& 0x00FCFFFF
    memory := s.memory.store (s.esp.toNat - 4) 4 (s.flags &&& 0x00FCFFFF).toNat }
  let s₂ : LoadCpu := ({ s₁ with ecx := s₁.eax } : LoadCpu).xorEax p idFlag
  let s₃ : LoadCpu := { s₂ with
    flags := p.popFlags s₂.flags s₂.eax
    memory := s₂.memory.store (s.esp.toNat - 4) 4 s₂.eax.toNat }
  let s₄ : LoadCpu := { s₃ with
    eax := s₃.flags &&& 0x00FCFFFF
    memory := s₃.memory.store (s.esp.toNat - 4) 4 (s₃.flags &&& 0x00FCFFFF).toNat }
  let s₅ : LoadCpu := { s₄ with
    flags := p.popFlags s₄.flags s₄.ecx
    memory := s₄.memory.store (s.esp.toNat - 4) 4 s₄.ecx.toNat }
  have hrun : checkCpuid p s = if s₅.eax = s₅.ecx then .error (s₅.movAl 67) else .next s₅ := by
    refine (h.pushfd_popEax hesp _).trans ?_
    refine (Unpaged.push_popfd (s := s₂) h hesp p s₂.eax _).trans ?_
    refine (Unpaged.pushfd_popEax (s := s₃) h hesp _).trans ?_
    exact Unpaged.push_popfd (s := s₄) h hesp p s₄.ecx _
  have hread : s₅.eax = s₅.ecx ↔ ¬p.HasCpuid := by
    rw [Processor.HasCpuid, Bool.not_eq_true]
    exact p.readBack_iff s.flags (p.logicFlags ((s.flags &&& 0x00FCFFFF) ^^^ idFlag))
  refine ⟨s₅, ⟨rfl, rfl, rfl, rfl, rfl, ?_, ?_⟩, ?_⟩
  · exact and_directionFlag_congr (p.bit_restored s.flags
      (p.logicFlags ((s.flags &&& 0x00FCFFFF) ^^^ idFlag)) (by decide) (by decide) (by decide))
  · exact hsame _ (hsame _ (hsame _ (hsame _ (Memory.SameOutside.refl _ _ _))))
  · rw [hrun]
    by_cases hcpuid : p.HasCpuid
    · rw [if_neg (by simpa [hread] using hcpuid), if_pos hcpuid]
    · rw [if_pos (hread.mpr hcpuid), if_neg hcpuid]

/-- There are extended leaves, and they say that the processor has long mode. -/
def Processor.HasLongmode (p : Processor) : Prop :=
  0x80000001 ≤ (p.cpuid 0x80000000).eax ∧ (p.cpuid 0x80000001).edx &&& 0x20000000 ≠ 0

instance (p : Processor) : Decidable p.HasLongmode := inferInstanceAs (Decidable (_ ∧ _))

theorem checkLongmode_spec (s : LoadCpu) (p : Processor) : ∃ s', Leaves s s' ∧
    checkLongmode p s = if p.HasLongmode then .next s' else .error (s'.movAl 76) := by
  have hleaves (eax ebx ecx edx : UInt32) :
      Leaves s { s with eax := eax, ebx := ebx, ecx := ecx, edx := edx } :=
    ⟨rfl, rfl, rfl, rfl, rfl, rfl, Memory.SameOutside.refl _ _ _⟩
  let s₁ : LoadCpu := ({ s with eax := 0x80000000 } : LoadCpu).cpuid p
  let s₂ : LoadCpu := ({ s₁ with eax := 0x80000001 } : LoadCpu).cpuid p
  by_cases hleaf : (p.cpuid 0x80000000).eax < 0x80000001
  · have hnot : ¬p.HasLongmode := fun h => UInt32.not_le.mpr hleaf h.1
    exact ⟨s₁, hleaves _ _ _ _, (if_pos hleaf).trans (if_neg hnot).symm⟩
  by_cases hbit : (p.cpuid 0x80000001).edx &&& 0x20000000 = 0
  · have hnot : ¬p.HasLongmode := fun h => h.2 hbit
    have hrun : checkLongmode p s = .error (s₂.movAl 76) := (if_neg hleaf).trans (if_pos hbit)
    exact ⟨s₂, hleaves _ _ _ _, hrun.trans (if_neg hnot).symm⟩
  · have hlong : p.HasLongmode := ⟨UInt32.not_lt.mp hleaf, hbit⟩
    have hrun : checkLongmode p s = .next s₂ := (if_neg hleaf).trans (if_neg hbit)
    exact ⟨s₂, hleaves _ _ _ _, hrun.trans (if_pos hlong).symm⟩

end Checks

/-! ### From the first check to the last -/

namespace BootImage

variable {image : BootImage} {s₀ s s' : LoadCpu}

theorem stackTop_toNat : image.stackTop.toNat = image.tables.pageTableL4.toNat + 28672 := by
  have hhigh := image.bss_high
  rw [stackTop, UInt32.toNat_add]
  exact Nat.mod_eq_of_lt (by simp only [UInt32.reduceToNat]; omega)

/-- Since `s₀` checks have been made: two words of the stack have been used. -/
structure Checking (image : BootImage) (s₀ s : LoadCpu) : Prop where
  cr0 : s.cr0 = s₀.cr0
  cr3 : s.cr3 = s₀.cr3
  cr4 : s.cr4 = s₀.cr4
  efer : s.efer = s₀.efer
  direction : s.flags &&& directionFlag = s₀.flags &&& directionFlag
  memory : s.memory.SameOutside s₀.memory (image.stackTop.toNat - 8) 8

theorem Checking.unpaged (h : image.Checking s₀ s) (h₀ : s₀.Unpaged) : s.Unpaged := by
  rw [Unpaged, h.cr0]
  exact h₀

/-- A call of a check comes back if its condition holds, and goes to `error` otherwise. -/
theorem Checking.call (h : image.Checking s₀ s) (h₀ : s₀.Unpaged) (hesp : s.esp = image.stackTop)
    {body : LoadCpu → Flow LoadCpu} {c : Prop} [Decidable c] {k : UInt8} (back : UInt32)
    (hbody : ∀ t : LoadCpu, t.Unpaged → 4 ≤ t.esp.toNat → t.eax = s.eax → ∃ t', Leaves t t' ∧
      body t = if c then .next t' else .error (t'.movAl k)) :
    (c → ∃ s', s.call back body = .next s' ∧ image.Checking s₀ s' ∧ s'.esp = image.stackTop) ∧
      (¬c → ∃ s', s.call back body = .error (s'.movAl k) ∧ image.Checking s₀ s' ∧
        s'.esp = image.stackTop - 4) := by
  have htop := image.stackTop_toNat
  have hunpaged := h.unpaged h₀
  have hdeep : 8 ≤ s.esp.toNat := by
    rw [hesp]
    omega
  have hroom : 4 ≤ s.esp.toNat := by omega
  set pushed : LoadCpu := { s with
    esp := s.esp - 4, memory := s.memory.store (s.esp.toNat - 4) 4 back.toNat } with hpushed
  have hsub : pushed.esp.toNat = s.esp.toNat - 4 := esp_sub hroom
  obtain ⟨t', hleaves, hrun⟩ := hbody pushed hunpaged (by omega) rfl
  have hchecking : image.Checking s₀ t' := by
    refine ⟨hleaves.cr0.trans h.cr0, hleaves.cr3.trans h.cr3, hleaves.cr4.trans h.cr4,
      hleaves.efer.trans h.efer, hleaves.direction.trans h.direction, fun b hb => ?_⟩
    rw [hleaves.memory b (by rw [hsub, hesp]; omega), hpushed]
    dsimp only
    rw [Memory.store_frame _ _ (by rw [hesp]; omega)]
    exact h.memory b hb
  constructor
  · intro hc
    rw [if_pos hc] at hrun
    have hunpaged' : t'.Unpaged := hchecking.unpaged h₀
    have hload : t'.memory.load (s.esp.toNat - 4) 4 = back.toNat := by
      rw [Memory.load_congr fun b hb _ => hleaves.memory b (by rw [hsub]; omega), hpushed]
      exact Memory.load_store_of_lt _ (Nat.lt_of_lt_of_le back.toNat_lt (by decide))
    have hcall := call_next hunpaged hroom hrun hleaves.esp hload (hunpaged'.direct _ _)
      (hunpaged'.direct _ _)
    exact ⟨_, hcall, ⟨hchecking.cr0, hchecking.cr3, hchecking.cr4, hchecking.efer,
      hchecking.direction, hchecking.memory⟩, hesp⟩
  · intro hc
    rw [if_neg hc] at hrun
    exact ⟨t', call_error hunpaged hroom hrun, hchecking, by rw [hleaves.esp, hpushed, hesp]⟩

/-- The three checks of `start`. -/
def checks (p : Processor) (image : BootImage) (s : LoadCpu) : Flow LoadCpu := do
  let s ← s.call (image.code .checkMultiboot) checkMultiboot
  let s ← s.call (image.code .checkCpuid) (checkCpuid p)
  s.call (image.code .checkLongmode) (checkLongmode p)

/-- The code of the first check that fails, and its message. -/
def firstFailure (p : Processor) (eax : UInt32) : Option (UInt8 × List UInt8) :=
  if eax ≠ 0x36d76289 then some (77, multibootErr)
  else if ¬p.HasCpuid then some (67, cpuidErr)
  else if ¬p.HasLongmode then some (76, longmodeErr)
  else none

theorem checks_spec (p : Processor) (h₀ : s₀.Unpaged) (hesp : s₀.esp = image.stackTop) :
    match firstFailure p s₀.eax with
    | none => ∃ s', checks p image s₀ = .next s' ∧ image.Checking s₀ s' ∧ s'.esp = image.stackTop
    | some (code, _) => ∃ s', checks p image s₀ = .error (s'.movAl code) ∧ image.Checking s₀ s' ∧
        s'.esp = image.stackTop - 4 := by
  have hstart : image.Checking s₀ s₀ := ⟨rfl, rfl, rfl, rfl, rfl, Memory.SameOutside.refl _ _ _⟩
  have hmultiboot := hstart.call h₀ hesp (c := s₀.eax = 0x36d76289)
    (image.code .checkMultiboot) fun t _ _ heax => heax ▸ checkMultiboot_spec t
  unfold firstFailure
  by_cases hmagic : s₀.eax = 0x36d76289
  · obtain ⟨s₁, hrun₁, hs₁, hesp₁⟩ := hmultiboot.1 hmagic
    have hcpuid := hs₁.call h₀ hesp₁ (image.code .checkCpuid) fun t ht hroom _ =>
      checkCpuid_spec ht hroom p
    rw [if_neg (not_not.mpr hmagic)]
    by_cases hid : p.HasCpuid
    · obtain ⟨s₂, hrun₂, hs₂, hesp₂⟩ := hcpuid.1 hid
      have hlongmode := hs₂.call h₀ hesp₂ (image.code .checkLongmode) fun t _ _ _ =>
        checkLongmode_spec t p
      rw [if_neg (not_not.mpr hid)]
      by_cases hlong : p.HasLongmode
      · obtain ⟨s₃, hrun₃, hs₃⟩ := hlongmode.1 hlong
        rw [if_neg (not_not.mpr hlong)]
        exact ⟨s₃, by rw [checks, hrun₁, Flow.next_bind, hrun₂, Flow.next_bind, hrun₃], hs₃⟩
      · obtain ⟨s₃, hrun₃, hs₃⟩ := hlongmode.2 hlong
        rw [if_pos hlong]
        exact ⟨s₃, by rw [checks, hrun₁, Flow.next_bind, hrun₂, Flow.next_bind, hrun₃], hs₃⟩
    · obtain ⟨s₂, hrun₂, hs₂⟩ := hcpuid.2 hid
      rw [if_pos hid]
      exact ⟨s₂, by rw [checks, hrun₁, Flow.next_bind, hrun₂, Flow.error_bind], hs₂⟩
  · obtain ⟨s₁, hrun₁, hs₁⟩ := hmultiboot.2 hmagic
    rw [if_pos hmagic]
    exact ⟨s₁, by rw [checks, hrun₁, Flow.error_bind], hs₁⟩

theorem checks_of_none {p : Processor} {eax : UInt32} (h₀ : s₀.Unpaged)
    (hesp : s₀.esp = image.stackTop) (heax : s₀.eax = eax) (hchecks : firstFailure p eax = none) :
    ∃ s', checks p image s₀ = .next s' ∧ image.Checking s₀ s' ∧ s'.esp = image.stackTop := by
  have hspec := checks_spec p h₀ hesp
  rw [heax, hchecks] at hspec
  exact hspec

theorem checks_of_some {p : Processor} {eax : UInt32} {code : UInt8} {message : List UInt8}
    (h₀ : s₀.Unpaged) (hesp : s₀.esp = image.stackTop) (heax : s₀.eax = eax)
    (hchecks : firstFailure p eax = some (code, message)) :
    ∃ s', checks p image s₀ = .error (s'.movAl code) ∧ image.Checking s₀ s' ∧
      s'.esp = image.stackTop - 4 := by
  have hspec := checks_spec p h₀ hesp
  rw [heax, hchecks] at hspec
  exact hspec

/-! ### Long mode -/

/-- The strings of `.data`. -/
structure Texts (image : BootImage) (m : Memory) : Prop where
  errPrefix : m.HoldsString image.errPrefixAt.toNat errPrefix
  multibootErr : m.HoldsString image.multibootErrAt.toNat multibootErr
  cpuidErr : m.HoldsString image.cpuidErrAt.toNat cpuidErr
  longmodeErr : m.HoldsString image.longmodeErrAt.toNat longmodeErr

/-- What the boot loader leaves: the sections in memory with `.bss` zero, protected mode
without paging, and the direction flag clear. -/
structure Entry (image : BootImage) (s : LoadCpu) : Prop where
  bss : image.tables.Zeroed s.memory
  texts : image.Texts s.memory
  codeSegment : s.memory.load (image.gdt64.toNat + 8) 8 = codeSegment
  gdtLimit : s.memory.load image.gdt64Pointer.toNat 2 = 15
  gdtBase : s.memory.load (image.gdt64Pointer.toNat + 2) 4 = image.gdt64.toNat
  protectedMode : s.cr0 &&& cr0PE ≠ 0
  unpaged : s.Unpaged
  fourLevels : s.cr4 &&& cr4LA57 = 0
  direction : s.flags &&& directionFlag = 0

/-- `enable_paging` turns paging and long mode on, and keeps the other bits. -/
theorem enablePaging_spec (image : BootImage) (h : s.Unpaged) (hprotected : s.cr0 &&& cr0PE ≠ 0) :
    enablePaging image s = .next { s with
      eax := s.cr0 ||| cr0PG
      ecx := 0xC0000080
      edx := (s.efer >>> 32).toUInt32
      cr3 := image.tables.pageTableL4
      cr4 := s.cr4 ||| cr4PAE
      efer := s.efer ||| eferLME ||| eferLMA
      cr0 := s.cr0 ||| cr0PG } := by
  let s₁ : LoadCpu := { s with
    eax := s.cr0 ||| cr0PG
    ecx := 0xC0000080
    edx := (s.efer >>> 32).toUInt32
    cr3 := image.tables.pageTableL4
    cr4 := s.cr4 ||| cr4PAE
    efer := ((s.efer >>> 32).toUInt32.toUInt64 <<< 32) ||| (s.efer.toUInt32 ||| 0x100).toUInt64 }
  have hefer : s₁.efer = s.efer ||| eferLME := by
    change ((s.efer >>> 32).toUInt32.toUInt64 <<< 32) ||| (s.efer.toUInt32 ||| 0x100).toUInt64 = _
    rw [UInt32.toUInt64_or, ← UInt64.or_assoc, uint64_halves]
    rfl
  have hrun : enablePaging image s = s₁.movCr0 := rfl
  have hturned : ¬(s₁.eax &&& cr0PG = 0 ∨ s₁.cr0 &&& cr0PG ≠ 0) :=
    not_or.mpr ⟨or_and_ne_zero (by decide), not_not.mpr h⟩
  have hpe : s₁.eax &&& cr0PE ≠ 0 := or_and_ne_zero_of_left hprotected
  have hlme : s₁.efer &&& eferLME ≠ 0 := by
    rw [hefer]
    exact uint64_or_and_ne_zero (by decide)
  have hpae : s₁.cr4 &&& cr4PAE ≠ 0 := or_and_ne_zero (by decide)
  rw [hrun, movCr0, if_neg hturned, if_neg hpe, if_neg hlme, if_neg hpae, hefer]

/-- With the tables filled and paging on, the first gigabyte is where it was. -/
theorem paged_direct {t : BootTables} {a n : ℕ} (h : t.Filled s.memory)
    (hcr3 : s.cr3 = t.pageTableL4) (hcr4 : s.cr4 &&& cr4LA57 = 0) (ha : a + n ≤ 2 ^ 30) :
    s.Direct a n := by
  intro b hb hb'
  rw [linear]
  split
  · rfl
  · rw [if_neg (not_not.mpr hcr4), hcr3, h.walk_low (by omega)]

/-- An address outside the tables and the stack. -/
def OutsideBss (image : BootImage) (a : ℕ) : Prop :=
  a < image.tables.pageTableL4.toNat ∨ image.tables.pageTableL4.toNat + 28672 ≤ a

/-- The call of `setup_page_tables`. -/
theorem call_setupPageTables (h : s.Unpaged) (hesp : s.esp = image.stackTop)
    (hzero : image.tables.Zeroed s.memory) (back : UInt32) :
    ∃ cpu : Cpu, s.call back (setupPageTables image) = .next { s with toCpu := cpu } ∧
      image.tables.Filled cpu.memory ∧
      ∀ a, image.OutsideBss a → cpu.memory a = s.memory a := by
  have htop := image.stackTop_toNat
  have hroom : 4 ≤ s.esp.toNat := by
    rw [hesp]
    omega
  set pushed : LoadCpu := { s with
    esp := s.esp - 4, memory := s.memory.store (s.esp.toNat - 4) 4 back.toNat } with hpushed
  have hstored : ∀ a, a < s.esp.toNat - 4 ∨ s.esp.toNat ≤ a → pushed.memory a = s.memory a :=
    fun a ha => Memory.store_frame _ _ (by omega)
  have hzero' : image.tables.Zeroed pushed.memory := fun a ha ha' => by
    rw [hstored a (by rw [hesp]; omega)]
    exact hzero a ha ha'
  have hframe (a : ℕ) (ha : a < image.tables.pageTableL4.toNat ∨
      image.tables.pageTableL4.toNat + 3 * 4096 ≤ a) :
      (image.tables.setupPageTables pushed.toCpu).memory a = pushed.memory a :=
    BootTables.setupPageTables_frame hzero' ha
  have hload : (image.tables.setupPageTables pushed.toCpu).memory.load (s.esp.toNat - 4) 4 =
      back.toNat := by
    rw [Memory.load_congr fun b hb _ => hframe b (by rw [hesp] at hb; omega), hpushed]
    exact Memory.load_store_of_lt _ (Nat.lt_of_lt_of_le back.toNat_lt (by decide))
  let done : LoadCpu := { pushed with toCpu := image.tables.setupPageTables pushed.toCpu }
  have hdone : done.Unpaged := h
  have hrun : setupPageTables image pushed = .next done := rfl
  have hesp' : done.esp = s.esp - 4 := rfl
  have hcall := call_next h hroom hrun hesp' hload (hdone.direct _ _) (hdone.direct _ _)
  refine ⟨_, hcall, BootTables.filled_setupPageTables hzero', fun a ha => ?_⟩
  unfold OutsideBss at ha
  rw [hframe a (by omega), hstored a (by rw [hesp]; omega)]

/-- The call of `enable_paging`, whose `ret` goes through the new tables. -/
theorem call_enablePaging (h : s.Unpaged) (hesp : s.esp = image.stackTop)
    (hfilled : image.tables.Filled s.memory) (hprotected : s.cr0 &&& cr0PE ≠ 0)
    (hlevels : (s.cr4 ||| cr4PAE) &&& cr4LA57 = 0) :
    ∃ eax ecx edx m, s.call (image.code .enablePaging) (enablePaging image) = .next { s with
        eax := eax
        ecx := ecx
        edx := edx
        cr3 := image.tables.pageTableL4
        cr4 := s.cr4 ||| cr4PAE
        efer := s.efer ||| eferLME ||| eferLMA
        cr0 := s.cr0 ||| cr0PG
        memory := m } ∧
      image.tables.Filled m ∧ ∀ a, image.OutsideBss a → m a = s.memory a := by
  have htop := image.stackTop_toNat
  have hhigh := image.bss_high
  have hroom : 4 ≤ s.esp.toNat := by
    rw [hesp]
    omega
  set pushed : LoadCpu := { s with
    esp := s.esp - 4
    memory := s.memory.store (s.esp.toNat - 4) 4 (image.code .enablePaging).toNat } with hpushed
  have hstored : ∀ a, a < s.esp.toNat - 4 ∨ s.esp.toNat ≤ a → pushed.memory a = s.memory a :=
    fun a ha => Memory.store_frame _ _ (by omega)
  have hfilled' : image.tables.Filled pushed.memory :=
    hfilled.congr fun a ha ha' => hstored a (by rw [hesp]; omega)
  have hload : pushed.memory.load (s.esp.toNat - 4) 4 = (image.code .enablePaging).toNat :=
    Memory.load_store_of_lt _ (Nat.lt_of_lt_of_le (UInt32.toNat_lt _) (by decide))
  have hcode := image.code_high .enablePaging
  have hcall := call_next h hroom (enablePaging_spec (s := pushed) image h hprotected) rfl hload
    (paged_direct hfilled' rfl hlevels (by rw [hesp]; omega))
    (paged_direct hfilled' rfl hlevels (by omega))
  refine ⟨_, _, _, _, hcall, hfilled', fun a ha => hstored a ?_⟩
  unfold OutsideBss at ha
  rw [hesp]
  omega

/-- The tables are filled and in effect, long mode is active, and nothing has been stored
outside the tables and the stack. -/
structure LongMode (image : BootImage) (s s' : LoadCpu) : Prop where
  cr0 : s'.cr0 = s.cr0 ||| cr0PG
  cr3 : s'.cr3 = image.tables.pageTableL4
  cr4 : s'.cr4 = s.cr4 ||| cr4PAE
  efer : s'.efer = s.efer ||| eferLME ||| eferLMA
  filled : image.tables.Filled s'.memory
  memory : ∀ a, image.OutsideBss a → s'.memory a = s.memory a

theorem start_eq (p : Processor) (image : BootImage) (s : LoadCpu) :
    start p image s = (checks p image { s with esp := image.stackTop } >>= fun s => do
      let s ← s.call (image.code .setupPageTables) (setupPageTables image)
      let s ← s.call (image.code .enablePaging) (enablePaging image)
      let s ← s.lgdt image.gdt64Pointer
      s.farJump 8 (image.code .longmodeStart)) := by
  simp only [checks, Flow.bind_assoc]
  rfl

theorem Entry.fourLevels_pae (h : image.Entry s) : (s.cr4 ||| cr4PAE) &&& cr4LA57 = 0 := by
  have hapart : ∀ i < 32, (bit cr4PAE i && bit cr4LA57 i) = false := by decide
  have hzero : ∀ i < 32, bit 0 i = false := by decide
  apply bit_ext
  intro i hi
  have hbit := congrArg (bit · i) h.fourLevels
  simp only [bit_and, bit_or, hzero i hi, Bool.and_or_distrib_right, hapart i hi] at hbit ⊢
  rw [hbit]
  rfl

theorem gdt64Pointer_toNat : image.gdt64Pointer.toNat = image.gdt64.toNat + 16 := by
  have hhigh := image.gdt_high
  rw [gdt64Pointer, UInt32.toNat_add]
  exact Nat.mod_eq_of_lt (by simp only [UInt32.reduceToNat]; omega)

theorem LongMode.direct (h : image.LongMode s s') (hs : image.Entry s) {a n : ℕ}
    (ha : a + n ≤ 2 ^ 30) : s'.Direct a n :=
  paged_direct h.filled h.cr3 (h.cr4 ▸ hs.fourLevels_pae) ha

/-- What the sections hold is read through the new tables. -/
theorem LongMode.read (h : image.LongMode s s') (hs : image.Entry s) {a n : ℕ}
    (ha : image.gdt64.toNat ≤ a) (ha' : a + n ≤ image.gdt64.toNat + 26) :
    s'.read a n = .next (s.memory.load a n) := by
  have hhigh := image.gdt_high
  have hapart := image.gdt_apart
  have hsame : s'.memory.load a n = s.memory.load a n :=
    Memory.load_congr fun b hb hb' => h.memory b (by unfold OutsideBss; omega)
  rw [(h.direct hs (by omega)).read, hsame]

/-- `lgdt` and the jump into the segment of 64-bit code. -/
theorem LongMode.jump (h : image.LongMode s s') (hs : image.Entry s) :
    (s'.lgdt image.gdt64Pointer >>= fun s => s.farJump 8 (image.code .longmodeStart)) =
      .next { s' with gdtLimit := 15, gdtBase := image.gdt64.toNat } := by
  have hpointer := image.gdt64Pointer_toNat
  set loaded : LoadCpu := { s' with gdtLimit := 15, gdtBase := image.gdt64.toNat } with hloaded
  have hlong : image.LongMode s loaded := ⟨h.cr0, h.cr3, h.cr4, h.efer, h.filled, h.memory⟩
  have hlgdt : s'.lgdt image.gdt64Pointer = .next loaded := by
    rw [lgdt, h.read hs (by omega) (by omega), Flow.next_bind, h.read hs (by omega) (by omega),
      Flow.next_bind, hs.gdtLimit, hs.gdtBase]
    rfl
  have hdescriptor : loaded.read (image.gdt64.toNat + 8) 8 = .next EtyOS.codeSegment := by
    rw [hlong.read hs (by omega) (by omega), hs.codeSegment]
  have hallowed : 8 + 7 ≤ loaded.gdtLimit ∧ Is64BitCode EtyOS.codeSegment ∧
      loaded.efer &&& eferLMA ≠ 0 := by
    refine ⟨le_rfl, by decide, ?_⟩
    rw [hlong.efer]
    exact uint64_or_and_ne_zero (by decide)
  have hfetch : loaded.Direct (image.code .longmodeStart).toNat 1 :=
    hlong.direct hs (image.code_high .longmodeStart)
  rw [hlgdt, Flow.next_bind, farJump, hdescriptor, Flow.next_bind, if_pos hallowed, hfetch.fetch]

/-- When no check fails, `start` comes to `longmode_start`. -/
theorem start_next {p : Processor} (h : image.Entry s) (hchecks : firstFailure p s.eax = none) :
    ∃ s', start p image s = .next s' ∧ image.LongMode s s' ∧ s'.esp = image.stackTop := by
  have htop := image.stackTop_toNat
  obtain ⟨s₁, hrun₁, hchecking, hesp₁⟩ :=
    checks_of_none (h.unpaged.withEsp image.stackTop) rfl rfl hchecks
  have hunpaged : s₁.Unpaged := hchecking.unpaged (h.unpaged.withEsp image.stackTop)
  have houtside₁ (a : ℕ) (ha : a < image.stackTop.toNat - 8 ∨ image.stackTop.toNat ≤ a) :
      s₁.memory a = s.memory a := hchecking.memory a (by omega)
  have hzero : image.tables.Zeroed s₁.memory := fun a ha ha' => by
    rw [houtside₁ a (by omega)]
    exact h.bss a ha ha'
  obtain ⟨cpu, hrun₂, hfilled₂, hmemory₂⟩ :=
    call_setupPageTables hunpaged hesp₁ hzero (image.code .setupPageTables)
  have hprotected : s₁.cr0 &&& cr0PE ≠ 0 := by
    rw [hchecking.cr0]
    exact h.protectedMode
  have hlevels : (s₁.cr4 ||| cr4PAE) &&& cr4LA57 = 0 := by
    rw [hchecking.cr4]
    exact h.fourLevels_pae
  obtain ⟨eax, ecx, edx, m, hrun₃, hfilled₃, hmemory₃⟩ :=
    call_enablePaging (s := { s₁ with toCpu := cpu }) hunpaged hesp₁ hfilled₂ hprotected hlevels
  set s₃ : LoadCpu := { s₁ with
    eax := eax
    ecx := ecx
    edx := edx
    cr3 := image.tables.pageTableL4
    cr4 := s₁.cr4 ||| cr4PAE
    efer := s₁.efer ||| eferLME ||| eferLMA
    cr0 := s₁.cr0 ||| cr0PG
    memory := m } with hs₃
  have hlong : image.LongMode s s₃ :=
    { cr0 := congrArg (· ||| cr0PG) hchecking.cr0
      cr3 := rfl
      cr4 := congrArg (· ||| cr4PAE) hchecking.cr4
      efer := congrArg (· ||| eferLME ||| eferLMA) hchecking.efer
      filled := hfilled₃
      memory := fun a ha => by
        refine ((hmemory₃ a ha).trans (hmemory₂ a ha)).trans (houtside₁ a ?_)
        unfold OutsideBss at ha
        omega }
  refine ⟨{ s₃ with gdtLimit := 15, gdtBase := image.gdt64.toNat }, ?_,
    ⟨hlong.cr0, hlong.cr3, hlong.cr4, hlong.efer, hlong.filled, hlong.memory⟩, hesp₁⟩
  rw [start_eq, hrun₁, Flow.next_bind, hrun₂, Flow.next_bind, hrun₃, Flow.next_bind]
  exact hlong.jump h

theorem stackTop_sub : (image.stackTop - 8).toNat = image.stackTop.toNat - 8 := by
  have htop := image.stackTop_toNat
  refine UInt32.toNat_sub_of_le _ _ (UInt32.le_iff_toNat_le.mpr ?_)
  rw [htop]
  exact Nat.le_trans (by decide : 8 ≤ 28672) (Nat.le_add_left _ _)

/-- `longmode_start` calls `kernel_main` with a stack that is aligned as C wants it. -/
theorem LongMode.longmodeStart (h : image.LongMode s s') (hs : image.Entry s)
    (hesp : s'.esp = image.stackTop) (back : ℕ) :
    ∃ s'', longmodeStart back s' = .next s'' ∧ image.LongMode s s'' ∧
      s''.esp = image.stackTop - 8 := by
  have htop := image.stackTop_toNat
  have hhigh := image.bss_high
  let called : LoadCpu := { s'.movAx 0 with esp := s'.esp - 8 }
  have hsub : called.esp.toNat = image.stackTop.toNat - 8 := by
    rw [← image.stackTop_sub, ← hesp]
  have hdirect : called.Direct called.esp.toNat 8 :=
    (h.direct hs (by rw [hsub]; omega)).congr rfl rfl rfl rfl
  refine ⟨{ called with memory := s'.memory.store called.esp.toNat 8 back }, ?_,
    { cr0 := h.cr0
      cr3 := h.cr3
      cr4 := h.cr4
      efer := h.efer
      filled := h.filled.congr fun a ha ha' => Memory.store_frame _ _ (by rw [hsub]; omega)
      memory := fun a ha => ?_ }, congrArg (· - 8) hesp⟩
  · exact hdirect.store (by decide) back
  · unfold OutsideBss at ha
    rw [← h.memory a ha]
    exact Memory.store_frame _ _ (by rw [hsub]; omega)

theorem load_kernelMain {p : Processor} (h : image.Entry s) (steps back : ℕ)
    (hchecks : firstFailure p s.eax = none) :
    ∃ s', load p image steps back s = .kernelMain s' ∧ image.LongMode s s' ∧
      s'.esp = image.stackTop - 8 := by
  obtain ⟨s₁, hstart, hlong, hesp⟩ := start_next h hchecks
  obtain ⟨s₂, hcalled, hlong₂, hesp₂⟩ := hlong.longmodeStart h hesp back
  refine ⟨s₂, ?_, hlong₂, hesp₂⟩
  rw [load, hstart]
  dsimp only
  rw [hcalled]

end BootImage

end EtyOS
