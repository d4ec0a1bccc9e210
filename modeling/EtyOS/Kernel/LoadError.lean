import EtyOS.Console.Screen
import EtyOS.Kernel.LoadKernel

/-!
# The error message of the boot code

`error` of `main.asm`: the screen is filled with spaces on red, and then shows
"etyOS2 Kernel Load Error: " and the message of the check that has failed. The stack
lies away from the screen and from the strings, so each of the nested calls finds its
return address and its registers again.
-/

namespace EtyOS

open Library LoadCpu

/-- The words of a text, white on red. -/
def redWords (str : List UInt8) : List ℕ := str.map fun c => c.toNat + 0x4F00

theorem redWords_append (str str' : List UInt8) :
    redWords (str ++ str') = redWords str ++ redWords str' := List.map_append

namespace LoadCpu

variable {s : LoadCpu}

theorem movAl_toNat (v : UInt8) (s : LoadCpu) :
    (s.movAl v).eax.toNat = s.eax.toNat / 256 * 256 + v.toNat := by
  have heax := s.eax.toNat_lt
  have hv := v.toNat_lt
  rw [movAl, UInt32.toNat_ofNat']
  exact Nat.mod_eq_of_lt (by omega)

theorem movAh_toNat (v : UInt8) (s : LoadCpu) :
    (s.movAh v).eax.toNat = s.eax.toNat / 65536 * 65536 + v.toNat * 256 + s.eax.toNat % 256 := by
  have heax := s.eax.toNat_lt
  have hv := v.toNat_lt
  rw [movAh, UInt32.toNat_ofNat', al]
  exact Nat.mod_eq_of_lt (by omega)

theorem movAx_toNat (v : UInt16) (s : LoadCpu) :
    (s.movAx v).eax.toNat = s.eax.toNat / 65536 * 65536 + v.toNat := by
  have heax := s.eax.toNat_lt
  have hv := v.toNat_lt
  rw [movAx, UInt32.toNat_ofNat']
  exact Nat.mod_eq_of_lt (by omega)

theorem advance_toNat (h : s.flags &&& directionFlag = 0) {a n : UInt32}
    (hroom : a.toNat + n.toNat < 2 ^ 32) : (s.advance a n).toNat = a.toNat + n.toNat := by
  rw [advance, if_pos h, UInt32.toNat_add]
  exact Nat.mod_eq_of_lt hroom

/-- `rep stosw` stores the same word `n` times. -/
theorem repStosw_spec (n : ℕ) (h : s.Unpaged) (hforward : s.flags &&& directionFlag = 0)
    (hroom : s.edi.toNat + 2 * n < 2 ^ 32) :
    ∃ ecx edi, repStosw n s = .next { s with
      ecx := ecx
      edi := edi
      memory := s.memory.storeWords s.edi.toNat 2 (List.replicate n s.ax) } := by
  induction n generalizing s with
  | zero => exact ⟨s.ecx, s.edi, rfl⟩
  | succ n ih =>
    have hstore := (h.direct s.edi.toNat 2).store (by decide) s.ax
    have hnext : (s.advance s.edi 2).toNat = s.edi.toNat + 2 :=
      advance_toNat hforward (by simp only [UInt32.reduceToNat]; omega)
    let s₁ : LoadCpu := { s with
      ecx := s.ecx - 1
      edi := s.advance s.edi 2
      memory := s.memory.store s.edi.toNat 2 s.ax }
    obtain ⟨ecx, edi, hrest⟩ := ih (s := s₁) h hforward (by change (s.advance s.edi 2).toNat + _ < _; omega)
    refine ⟨ecx, edi, ?_⟩
    have hfirst : repStosw (n + 1) s = repStosw n s₁ := by
      rw [repStosw, stosw, hstore]
      rfl
    have haddr : s₁.edi.toNat = s.edi.toNat + 2 := hnext
    rw [hfirst, hrest, haddr]
    rfl

/-- `lodsb`. -/
theorem lodsb_next (h : s.Unpaged) {c : UInt8} (hc : s.memory s.esi.toNat = c) :
    s.lodsb = .next { s.movAl c with esi := s.advance s.esi 1 } := by
  have hload : s.memory.load s.esi.toNat 1 = c.toNat := by
    rw [Memory.load, Memory.load, hc]
    omega
  rw [lodsb, (h.direct s.esi.toNat 1).read, hload, Flow.next_bind, UInt8.ofNat_toNat]
  rfl

/-- The loop of `print_string` copies a string to the screen; the induction is on its
characters, and `ah` holds the colour. -/
theorem printLoop_spec {str : List UInt8} {steps : ℕ} (hsteps : str.length < steps)
    (hchars : ∀ c ∈ str, c ≠ 0) (h : s.Unpaged) (hforward : s.flags &&& directionFlag = 0)
    (hah : s.eax.toNat / 256 % 256 = 0x4F) (hstr : s.memory.HoldsString s.esi.toNat str)
    (hesi : s.esi.toNat + str.length + 1 < 2 ^ 32) (hedi : s.edi.toNat + 2 * str.length < 2 ^ 32)
    (hapart : s.edi.toNat + 2 * str.length ≤ s.esi.toNat) :
    ∃ eax esi edi, edi.toNat = s.edi.toNat + 2 * str.length ∧ printLoop steps s = .next { s with
      eax := eax
      esi := esi
      edi := edi
      memory := s.memory.storeWords s.edi.toNat 2 (redWords str) } := by
  induction str generalizing s steps with
  | nil =>
    obtain ⟨steps, rfl⟩ := Nat.exists_eq_succ_of_ne_zero (by omega : steps ≠ 0)
    have hal : ({ s.movAl 0 with esi := s.advance s.esi 1 } : LoadCpu).al = 0 := by
      rw [al, movAl_toNat]
      simp
    refine ⟨(s.movAl 0).eax, s.advance s.esi 1, s.edi, rfl, ?_⟩
    rw [printLoop, lodsb_next h hstr, Flow.next_bind, if_pos hal]
    rfl
  | cons c str ih =>
    obtain ⟨steps, rfl⟩ := Nat.exists_eq_succ_of_ne_zero (by omega : steps ≠ 0)
    obtain ⟨hc, hrest⟩ := hstr
    obtain ⟨hc₀, hothers⟩ := List.forall_mem_cons.mp hchars
    rw [List.length_cons] at hsteps hesi hedi hapart
    have hlt := c.toNat_lt
    have heax : (s.movAl c).eax.toNat = s.eax.toNat / 256 * 256 + c.toNat := movAl_toNat c s
    let s₁ : LoadCpu := { s.movAl c with esi := s.advance s.esi 1 }
    have hal : ¬s₁.al = 0 := by
      change ¬(s.movAl c).eax.toNat % 256 = 0
      have hpos : c.toNat ≠ 0 := fun h0 => hc₀ (UInt8.toNat_inj.mp h0)
      omega
    have hax : s₁.ax = c.toNat + 0x4F00 := by
      change (s.movAl c).eax.toNat % 65536 = _
      omega
    have hstore := (Unpaged.direct (s := s₁) h s.edi.toNat 2).store (by decide) s₁.ax
    let s₂ : LoadCpu := { s₁ with
      edi := s.edi + 2, memory := s.memory.store s.edi.toNat 2 (c.toNat + 0x4F00) }
    have hfirst : printLoop (steps + 1) s = printLoop steps s₂ := by
      rw [printLoop, lodsb_next h hc, Flow.next_bind, if_neg hal]
      change s₁.store s.edi.toNat 2 s₁.ax >>= _ = _
      rw [hstore, Flow.next_bind, hax]
      rfl
    have hesi₂ : s₂.esi.toNat = s.esi.toNat + 1 :=
      advance_toNat hforward (by simp only [UInt32.reduceToNat]; omega)
    have hedi₂ : s₂.edi.toNat = s.edi.toNat + 2 := by
      change (s.edi + 2).toNat = _
      rw [UInt32.toNat_add]
      exact Nat.mod_eq_of_lt (by simp only [UInt32.reduceToNat]; omega)
    have hah₂ : s₂.eax.toNat / 256 % 256 = 0x4F := by
      change (s.movAl c).eax.toNat / 256 % 256 = _
      omega
    have hholds₂ : s₂.memory.HoldsString s₂.esi.toNat str := by
      rw [hesi₂]
      exact hrest.congr fun b hb _ => Memory.store_frame _ _ (by omega)
    obtain ⟨eax, esi, edi, hedi', hrun⟩ := ih (s := s₂)
      (show str.length < steps by omega) hothers h hforward hah₂ hholds₂ (by omega) (by omega) (by omega)
    refine ⟨eax, esi, edi, by rw [hedi', hedi₂, List.length_cons]; omega, ?_⟩
    rw [hfirst, hrun, hedi₂]
    rfl

end LoadCpu

namespace BootImage

variable {image : BootImage} {s₀ s : LoadCpu} {M : Memory}

/-- The words of the stack that the error path uses. -/
def stackArea (image : BootImage) : ℕ := image.stackTop.toNat - 64

/-- Outside the stack the memory is `M`; the control registers are those of `s₀`. -/
structure Showing (image : BootImage) (s₀ : LoadCpu) (M : Memory) (s : LoadCpu) : Prop where
  cr0 : s.cr0 = s₀.cr0
  cr3 : s.cr3 = s₀.cr3
  cr4 : s.cr4 = s₀.cr4
  efer : s.efer = s₀.efer
  direction : s.flags &&& directionFlag = 0
  memory : s.memory.SameOutside M image.stackArea 64

/-- `s'` comes from `s` by code that leaves the stack from `esp` on as it is. -/
structure Returns (image : BootImage) (s s' : LoadCpu) : Prop where
  esp : s'.esp = s.esp
  eax : s'.eax = s.eax
  kept : ∀ a, s.esp.toNat ≤ a → a < image.stackTop.toNat → s'.memory a = s.memory a

theorem Showing.unpaged (h : image.Showing s₀ M s) (h₀ : s₀.Unpaged) : s.Unpaged := by
  rw [Unpaged, h.cr0]
  exact h₀

theorem Showing.push (h : image.Showing s₀ M s) (hlow : image.stackArea + 4 ≤ s.esp.toNat)
    (htop : s.esp.toNat ≤ image.stackTop.toNat) (v : UInt32) :
    image.Showing s₀ M { s with
      esp := s.esp - 4, memory := s.memory.store (s.esp.toNat - 4) 4 v.toNat } where
  cr0 := h.cr0
  cr3 := h.cr3
  cr4 := h.cr4
  efer := h.efer
  direction := h.direction
  memory := fun b hb => by
    have hroom := image.stackTop_toNat
    unfold stackArea at hlow hb
    exact (Memory.store_frame _ _ (by omega)).trans (h.memory b (by unfold stackArea; omega))

theorem Showing.movAx (h : image.Showing s₀ M s) (ecx : UInt32) (v : UInt16) :
    image.Showing s₀ M (({ s with ecx := ecx } : LoadCpu).movAx v) :=
  ⟨h.cr0, h.cr3, h.cr4, h.efer, h.direction, h.memory⟩

theorem Showing.withPointers (h : image.Showing s₀ M s) (esi edi : UInt32) :
    image.Showing s₀ M { s with esi := esi, edi := edi } :=
  ⟨h.cr0, h.cr3, h.cr4, h.efer, h.direction, h.memory⟩

theorem Showing.update (h : image.Showing s₀ M s) (eax ecx edi esp : UInt32) {m M' : Memory}
    (hm : m.SameOutside M' image.stackArea 64) :
    image.Showing s₀ M' { s with
      eax := eax, ecx := ecx, edi := edi, esp := esp, memory := m } :=
  ⟨h.cr0, h.cr3, h.cr4, h.efer, h.direction, hm⟩

/-- A call whose body leaves the stack as it is. -/
theorem Showing.call (h : image.Showing s₀ M s) (h₀ : s₀.Unpaged)
    (hlow : image.stackArea + 4 ≤ s.esp.toNat) (htop : s.esp.toNat ≤ image.stackTop.toNat)
    {body : LoadCpu → Flow LoadCpu} (back : UInt32) {M' : Memory} {Q : UInt32 → Prop}
    (hbody : ∀ t, image.Showing s₀ M t → t.esp = s.esp - 4 → t.eax = s.eax → t.esi = s.esi →
      t.edi = s.edi → ∃ t', body t = .next t' ∧ image.Showing s₀ M' t' ∧ image.Returns t t' ∧
        Q t'.edi) :
    ∃ s', s.call back body = .next s' ∧ image.Showing s₀ M' s' ∧ image.Returns s s' ∧
      Q s'.edi := by
  have hunpaged := h.unpaged h₀
  have hroom : 4 ≤ s.esp.toNat := by omega
  set pushed : LoadCpu := { s with
    esp := s.esp - 4, memory := s.memory.store (s.esp.toNat - 4) 4 back.toNat } with hpushed
  have hsub : pushed.esp.toNat = s.esp.toNat - 4 := esp_sub hroom
  obtain ⟨t', hrun, hshowing, hreturns, hedi⟩ := hbody pushed (h.push hlow htop back) rfl rfl rfl rfl
  have hload : t'.memory.load (s.esp.toNat - 4) 4 = back.toNat := by
    rw [Memory.load_congr fun b hb hb' => hreturns.kept b (by omega) (by omega)]
    exact Memory.load_store_of_lt _ (Nat.lt_of_lt_of_le back.toNat_lt (by decide))
  have hunpaged' : t'.Unpaged := hshowing.unpaged h₀
  have hcall := call_next hunpaged hroom hrun hreturns.esp hload (hunpaged'.direct _ _)
    (hunpaged'.direct _ _)
  refine ⟨_, hcall, ⟨hshowing.cr0, hshowing.cr3, hshowing.cr4, hshowing.efer, hshowing.direction,
    hshowing.memory⟩, ⟨rfl, hreturns.eax, fun a ha ha' => ?_⟩, hedi⟩
  exact (hreturns.kept a (by omega) ha').trans (Memory.store_frame _ _ (by omega))

/-- `eax` and `ecx` pushed. -/
def saved (s : LoadCpu) : LoadCpu :=
  { s with
    esp := s.esp - 4 - 4
    memory := (s.memory.store (s.esp.toNat - 4) 4 s.eax.toNat).store (s.esp.toNat - 8) 4
      s.ecx.toNat }

theorem saved_esp (hroom : 8 ≤ s.esp.toNat) : (saved s).esp.toNat = s.esp.toNat - 8 := by
  change (s.esp - 4 - 4).toNat = _
  have hfirst : (s.esp - 4).toNat = s.esp.toNat - 4 :=
    esp_sub (by simp only [UInt32.reduceToNat]; omega)
  rw [UInt32.toNat_sub_of_le _ _ (UInt32.le_iff_toNat_le.mpr ?_), hfirst]
  · simp only [UInt32.reduceToNat]
    omega
  · rw [hfirst]
    simp only [UInt32.reduceToNat]
    omega

theorem Showing.pushes (h : image.Showing s₀ M s) (hlow : image.stackArea + 8 ≤ s.esp.toNat)
    (htop : s.esp.toNat ≤ image.stackTop.toNat) : image.Showing s₀ M (saved s) := by
  have hsub : (s.esp - 4).toNat = s.esp.toNat - 4 :=
    esp_sub (by simp only [UInt32.reduceToNat]; omega)
  have hpushed := (h.push (by omega) htop s.eax).push (by dsimp only; omega) (by dsimp only; omega)
    s.ecx
  dsimp only at hpushed
  rw [hsub, Nat.sub_sub] at hpushed
  exact hpushed

/-- Code between two pushes and their pops, which leaves the stack behind it as it is. -/
theorem saved_run (h : s.Unpaged) (hroom : 8 ≤ s.esp.toNat)
    (htop : s.esp.toNat ≤ image.stackTop.toNat) (body : LoadCpu → Flow LoadCpu) {t : LoadCpu}
    (hbody : body (saved s) = .next t) (ht : t.Unpaged) (hesp : t.esp = (saved s).esp)
    (hkept : ∀ a, (saved s).esp.toNat ≤ a → a < image.stackTop.toNat →
      t.memory a = (saved s).memory a) :
    (do
      let s ← s.push s.eax
      let s ← s.push s.ecx
      let s ← body s
      let s ← s.popEcx
      s.popEax) = .next { t with ecx := s.ecx, eax := s.eax, esp := s.esp } := by
  have hsub : (s.esp - 4).toNat = s.esp.toNat - 4 :=
    esp_sub (by simp only [UInt32.reduceToNat]; omega)
  have hsaved := saved_esp hroom
  have hesp₁ : t.esp + 4 = s.esp - 4 := by
    rw [hesp]
    exact UInt32.sub_add_cancel _ _
  have hecx : t.memory.load t.esp.toNat 4 = s.ecx.toNat := by
    rw [hesp, hsaved, Memory.load_congr fun b hb hb' => hkept b (by omega) (by omega)]
    exact Memory.load_store_of_lt _ (Nat.lt_of_lt_of_le s.ecx.toNat_lt (by decide))
  have heax : t.memory.load (s.esp - 4).toNat 4 = s.eax.toNat := by
    rw [hsub, Memory.load_congr fun b hb hb' => hkept b (by omega) (by omega)]
    refine (Memory.load_store_disjoint _ _ (by omega)).trans ?_
    exact Memory.load_store_of_lt _ (Nat.lt_of_lt_of_le s.eax.toNat_lt (by decide))
  have hpop := (ht.direct t.esp.toNat 4).pop_of_load hecx
  let t₁ : LoadCpu := { t with esp := s.esp - 4, ecx := s.ecx }
  have ht₁ : t₁.Unpaged := ht
  have hpop₁ := (ht₁.direct t₁.esp.toNat 4).pop_of_load (v := s.eax) heax
  have hpushes : (s.push s.eax >>= fun s' => s'.push s'.ecx) = .next (saved s) := by
    have hunpaged : Unpaged { s with
        esp := s.esp - 4, memory := s.memory.store (s.esp.toNat - 4) 4 s.eax.toNat } := h
    rw [h.push (by omega), Flow.next_bind, hunpaged.push (by dsimp only; omega)]
    dsimp only
    rw [hsub, Nat.sub_sub]
    rfl
  have hpopEcx : t.popEcx = .next t₁ := by
    rw [popEcx, hpop, Flow.next_bind, hesp₁]
    rfl
  have hpopEax : t₁.popEax = .next { t with ecx := s.ecx, eax := s.eax, esp := s.esp } := by
    have hback : t₁.esp + 4 = s.esp := UInt32.sub_add_cancel _ _
    rw [popEax, hpop₁, Flow.next_bind, hback]
    rfl
  rw [← Flow.bind_assoc, hpushes, Flow.next_bind, hbody, Flow.next_bind, hpopEcx, Flow.next_bind,
    hpopEax]

/-- What `print_string` does with a string outside the stack and a place before it. -/
theorem Showing.printString (h : image.Showing s₀ M s) (h₀ : s₀.Unpaged)
    (hlow : image.stackArea + 8 ≤ s.esp.toNat) (htop : s.esp.toNat ≤ image.stackTop.toNat)
    {str : List UInt8} {steps : ℕ} (hsteps : str.length < steps) (hchars : ∀ c ∈ str, c ≠ 0)
    (hstr : M.HoldsString s.esi.toNat str)
    (hapart : s.esi.toNat + str.length < image.stackArea ∨ image.stackTop.toNat ≤ s.esi.toNat)
    (hesi : s.esi.toNat + str.length + 1 < 2 ^ 32)
    (hedi : s.edi.toNat + 2 * str.length ≤ 0x100000) (hbefore : 0x100000 ≤ s.esi.toNat) :
    ∃ s', printString steps s = .next s' ∧
      image.Showing s₀ (M.storeWords s.edi.toNat 2 (redWords str)) s' ∧ image.Returns s s' ∧
      s'.edi.toNat = s.edi.toNat + 2 * str.length := by
  have hbss := image.bss_low
  have hstack := image.stackTop_toNat
  have harea : image.stackArea + 64 = image.stackTop.toNat := by
    unfold stackArea
    omega
  have hsaved := h.pushes hlow htop
  have hesp := saved_esp (s := s) (by omega)
  let s₁ : LoadCpu := (saved s).movAh 0x4F
  have hah : s₁.eax.toNat / 256 % 256 = 0x4F := by
    change ((saved s).movAh 0x4F).eax.toNat / 256 % 256 = _
    rw [movAh_toNat]
    simp only [UInt8.reduceToNat]
    omega
  have hholds : s₁.memory.HoldsString s₁.esi.toNat str :=
    hstr.congr fun b hb hb' => hsaved.memory b (by change s.esi.toNat ≤ b at hb; omega)
  obtain ⟨eax, esi, edi, hedi', hloop⟩ := printLoop_spec (s := s₁) hsteps hchars
    (hsaved.unpaged h₀) hsaved.direction hah hholds hesi (by change s.edi.toNat + _ < _; omega)
    (by change s.edi.toNat + _ ≤ s.esi.toNat; omega)
  let t : LoadCpu := { s₁ with
    eax := eax
    esi := esi
    edi := edi
    memory := (saved s).memory.storeWords s.edi.toNat 2 (redWords str) }
  have hlength : (redWords str).length = str.length := List.length_map _
  have hscreen (a : ℕ) (ha : 0x100000 ≤ a) : t.memory a = (saved s).memory a :=
    Memory.storeWords_frame _ _ (by rw [hlength]; omega)
  have hrun := saved_run (h.unpaged h₀) (by omega) htop
    (fun s => printLoop steps (s.movAh 0x4F)) (t := t) hloop (hsaved.unpaged h₀) rfl
    fun a ha _ => hscreen a (by omega)
  refine ⟨_, hrun, ⟨h.cr0, h.cr3, h.cr4, h.efer, h.direction, fun b hb => ?_⟩,
    ⟨rfl, rfl, fun a ha ha' => ?_⟩, hedi'⟩
  · exact Memory.storeWords_congr _ _ _ (hsaved.memory b hb)
  · refine (hscreen a (by omega)).trans ?_
    refine (Memory.store_frame _ _ (by omega)).trans ?_
    exact Memory.store_frame _ _ (by omega)

/-! ### The message -/

theorem data_add_toNat (d : UInt32) (hd : d.toNat ≤ 94) :
    (image.data + d).toNat = image.data.toNat + d.toNat := by
  have hhigh := image.data_high
  rw [UInt32.toNat_add]
  exact Nat.mod_eq_of_lt (by omega)

/-- The strings lie above the screen. -/
theorem Texts.storeWords (h : image.Texts M) {a : ℕ} (ws : List ℕ)
    (ha : a + 2 * ws.length ≤ 0x100000) : image.Texts (M.storeWords a 2 ws) := by
  have hlow := image.data_low
  have hkept {b : ℕ} {str : List UInt8} (hb : image.data.toNat ≤ b) (hstr : M.HoldsString b str) :
      (M.storeWords a 2 ws).HoldsString b str :=
    hstr.congr fun c hc _ => Memory.storeWords_frame _ _ (by omega)
  have hat (d : UInt32) (hd : d.toNat ≤ 94) : image.data.toNat ≤ (image.data + d).toNat := by
    rw [data_add_toNat d hd]
    exact Nat.le_add_right _ _
  exact ⟨hkept le_rfl h.errPrefix, hkept (hat 27 (by decide)) h.multibootErr,
    hkept (hat 50 (by decide)) h.cpuidErr, hkept (hat 70 (by decide)) h.longmodeErr⟩

/-- The string that `display_error` chooses for the code of a check. -/
theorem errorMessage_spec {p : Processor} {eax : UInt32} {code : UInt8} {message : List UInt8}
    (htexts : image.Texts M) (hfail : firstFailure p eax = some (code, message))
    (hal : s.al = code.toNat) :
    ∃ e : UInt32, errorMessage image s = { s with esi := e } ∧ M.HoldsString e.toNat message ∧
      image.data.toNat ≤ e.toNat ∧ e.toNat + message.length < image.data.toNat + 94 ∧
      message.length ≤ 23 ∧ ∀ c ∈ message, c ≠ 0 := by
  unfold firstFailure at hfail
  split at hfail
  · obtain ⟨rfl, rfl⟩ := Prod.mk.inj (Option.some.inj hfail)
    refine ⟨image.multibootErrAt, if_pos hal, htexts.multibootErr, ?_, ?_, by decide,
      fun c hc => ne_of_mem_of_not_mem hc (by decide)⟩
    all_goals
      rw [multibootErrAt, data_add_toNat 27 (by decide)]
      simp [multibootErr, chars]
  split at hfail
  · obtain ⟨rfl, rfl⟩ := Prod.mk.inj (Option.some.inj hfail)
    have hchoice : errorMessage image s = { s with esi := image.cpuidErrAt } :=
      (if_neg (by change ¬s.al = 77; rw [hal]; decide)).trans (if_pos hal)
    refine ⟨image.cpuidErrAt, hchoice, htexts.cpuidErr, ?_, ?_, by decide,
      fun c hc => ne_of_mem_of_not_mem hc (by decide)⟩
    all_goals
      rw [cpuidErrAt, data_add_toNat 50 (by decide)]
      simp [cpuidErr, chars]
  split at hfail
  · obtain ⟨rfl, rfl⟩ := Prod.mk.inj (Option.some.inj hfail)
    have hchoice : errorMessage image s = { s with esi := image.longmodeErrAt } :=
      (if_neg (by change ¬s.al = 77; rw [hal]; decide)).trans
        ((if_neg (by change ¬s.al = 67; rw [hal]; decide)).trans (if_pos hal))
    refine ⟨image.longmodeErrAt, hchoice, htexts.longmodeErr, ?_, ?_, by decide,
      fun c hc => ne_of_mem_of_not_mem hc (by decide)⟩
    all_goals
      rw [longmodeErrAt, data_add_toNat 70 (by decide)]
      simp [longmodeErr, chars]
  · exact absurd hfail (by simp)

/-- The screen with spaces on red. -/
def redScreen (M : Memory) : Memory := M.storeWords videoBuffer 2 (List.replicate 2000 0x4020)

theorem redScreen_frame (M : Memory) {a : ℕ} (ha : a < videoBuffer ∨ videoBuffer + 4000 ≤ a) :
    redScreen M a = M a := by
  refine Memory.storeWords_frame _ _ ?_
  rw [List.length_replicate]
  exact ha

theorem redScreen_congr {m : Memory} {a : ℕ} (h : m a = M a) : redScreen m a = redScreen M a :=
  Memory.storeWords_congr _ _ _ h

/-- The beginning of `display_error`: the screen is cleared, and `eax` is as before. -/
theorem Showing.clear (h : image.Showing s₀ M s) (h₀ : s₀.Unpaged)
    (hlow : image.stackArea + 4 ≤ s.esp.toNat) (htop : s.esp.toNat ≤ image.stackTop.toNat) :
    ∃ s', (do
        let s ← ({ s with edi := 0xb8000 } : LoadCpu).push s.eax
        let s := ({ s with ecx := 80 * 25 } : LoadCpu).movAx 0x4020
        let s ← repStosw s.ecx.toNat s
        s.popEax) = .next s' ∧ image.Showing s₀ (redScreen M) s' ∧ image.Returns s s' := by
  have hbss := image.bss_low
  have hstack := image.stackTop_toNat
  have harea : image.stackArea + 64 = image.stackTop.toNat := by
    unfold stackArea
    omega
  let s₁ : LoadCpu := { s with edi := 0xb8000 }
  have hs₁ : image.Showing s₀ M s₁ := h.withPointers s.esi 0xb8000
  have hunpaged : s₁.Unpaged := hs₁.unpaged h₀
  let s₂ : LoadCpu := { s₁ with
    esp := s.esp - 4, memory := s.memory.store (s.esp.toNat - 4) 4 s.eax.toNat }
  have hs₂ : image.Showing s₀ M s₂ := hs₁.push hlow htop s.eax
  have hesp : s₂.esp.toNat = s.esp.toNat - 4 := esp_sub (by simp only [UInt32.reduceToNat]; omega)
  let s₃ : LoadCpu := ({ s₂ with ecx := 80 * 25 } : LoadCpu).movAx 0x4020
  have hax : s₃.ax = 0x4020 := by
    change (({ s₂ with ecx := 80 * 25 } : LoadCpu).movAx 0x4020).eax.toNat % 65536 = _
    rw [movAx_toNat]
    simp only [UInt16.reduceToNat]
    omega
  have hs₃ : image.Showing s₀ M s₃ := hs₂.movAx (80 * 25) 0x4020
  obtain ⟨ecx, edi, hstosw⟩ := repStosw_spec 2000 (hs₃.unpaged h₀) hs₃.direction
    (by change (0xb8000 : UInt32).toNat + _ < _; simp only [UInt32.reduceToNat]; omega)
  have hedi : s₃.edi.toNat = videoBuffer := (by decide : (0xb8000 : UInt32).toNat = videoBuffer)
  obtain ⟨m, hm⟩ : ∃ m, m = redScreen s₃.memory := ⟨_, rfl⟩
  rw [hax, hedi, ← redScreen, ← hm] at hstosw
  have hscreen (a : ℕ) (ha : 0x100000 ≤ a) : m a = s₂.memory a := by
    rw [hm]
    exact redScreen_frame s₃.memory (Or.inr (by rw [videoBuffer]; omega))
  have hsame : m.SameOutside (redScreen M) image.stackArea 64 := fun b hb => by
    rw [hm]
    exact redScreen_congr (hs₃.memory b hb)
  have hesp₃ : s₃.esp = s₂.esp := rfl
  have hload : m.load s₃.esp.toNat 4 = s.eax.toNat := by
    rw [hesp₃, Memory.load_congr fun b hb _ => hscreen b (by omega), hesp]
    exact Memory.load_store_of_lt _ (Nat.lt_of_lt_of_le s.eax.toNat_lt (by decide))
  have hs₄ := hs₃.update s₃.eax ecx edi s₃.esp hsame
  have hpop := ((hs₄.unpaged h₀).direct s₃.esp.toNat 4).pop_of_load hload
  have hback : s₃.esp + 4 = s.esp := UInt32.sub_add_cancel _ _
  dsimp only at hpop
  rw [hback] at hpop
  refine ⟨_, ?_, hs₃.update s.eax ecx edi s.esp hsame, ⟨rfl, rfl, fun a ha ha' => ?_⟩⟩
  · rw [Unpaged.push hunpaged (by change 4 ≤ s.esp.toNat; omega), Flow.next_bind]
    change (repStosw 2000 s₃ >>= popEax) = _
    rw [hstosw, Flow.next_bind, popEax, hpop]
    rfl
  · exact (hscreen a (by omega)).trans (Memory.store_frame _ _ (by omega))

/-- What the screen shows in the end. -/
def errorScreen (M : Memory) (message : List UInt8) : Memory :=
  (redScreen M).storeWords videoBuffer 2 (redWords (errPrefix ++ message))

theorem errPrefix_length : errPrefix.length = 26 := by decide

theorem errorScreen_eq (M : Memory) (message : List UInt8) :
    ((redScreen M).storeWords videoBuffer 2 (redWords errPrefix)).storeWords (videoBuffer + 52) 2
      (redWords message) = errorScreen M message := by
  have hlength : (redWords errPrefix).length = 26 := by
    rw [redWords, List.length_map, errPrefix_length]
  rw [errorScreen, redWords_append, Memory.storeWords_append, hlength]

theorem displayError_eq (image : BootImage) (steps : ℕ) (s : LoadCpu) :
    displayError image steps s = ((do
        let s ← ({ s with edi := 0xb8000 } : LoadCpu).push s.eax
        let s := ({ s with ecx := 80 * 25 } : LoadCpu).movAx 0x4020
        let s ← repStosw s.ecx.toNat s
        s.popEax) >>= fun s => do
      let s ← ({ s with edi := 0xb8000, esi := image.errPrefixAt } : LoadCpu).call
        (image.code .errorPrefix) (printString steps)
      (errorMessage image s).call (image.code .errorMessage) (printString steps)) := by
  simp only [Flow.bind_assoc]
  rfl

/-- A call of `print_string` with a string of `.data`. -/
theorem Showing.callPrintString (h : image.Showing s₀ M s) (h₀ : s₀.Unpaged)
    (hlow : image.stackArea + 12 ≤ s.esp.toNat) (htop : s.esp.toNat ≤ image.stackTop.toNat)
    {str : List UInt8} (steps : ℕ) (hsteps : str.length < steps) (hchars : ∀ c ∈ str, c ≠ 0)
    (hstr : M.HoldsString s.esi.toNat str) (hstart : image.data.toNat ≤ s.esi.toNat)
    (hend : s.esi.toNat + str.length < image.data.toNat + 94)
    (hedi : s.edi.toNat + 2 * str.length ≤ 0x100000) (back : UInt32) :
    ∃ s', s.call back (EtyOS.printString steps) = .next s' ∧
      image.Showing s₀ (M.storeWords s.edi.toNat 2 (redWords str)) s' ∧ image.Returns s s' ∧
      s'.edi.toNat = s.edi.toNat + 2 * str.length := by
  have hstack := image.stackTop_toNat
  have hdata := image.data_low
  have hdata' := image.data_high
  have hapart := image.data_apart
  refine h.call h₀ (by omega) htop back (Q := fun edi => edi.toNat = _)
    fun t ht hesp _ hesi hedi' => ?_
  have hsub : t.esp.toNat = s.esp.toNat - 4 :=
    hesp ▸ esp_sub (by simp only [UInt32.reduceToNat]; omega)
  have hrun := ht.printString h₀ (by omega) (by omega) hsteps hchars (hesi ▸ hstr)
    (by rw [hesi]; unfold stackArea; omega) (by rw [hesi]; omega) (by rw [hedi']; omega)
    (by rw [hesi]; omega)
  rw [hedi'] at hrun
  exact hrun

theorem errPrefix_chars : ∀ c ∈ errPrefix, c ≠ 0 :=
  fun _ hc => ne_of_mem_of_not_mem hc (by decide)

/-- `display_error` shows the message of the check whose code is in `al`. -/
theorem Showing.displayError (h : image.Showing s₀ M s) (h₀ : s₀.Unpaged)
    (hlow : image.stackArea + 12 ≤ s.esp.toNat) (htop : s.esp.toNat ≤ image.stackTop.toNat)
    (htexts : image.Texts M) {p : Processor} {eax : UInt32} {code : UInt8} {message : List UInt8}
    (hfail : firstFailure p eax = some (code, message)) (hal : s.al = code.toNat) {steps : ℕ}
    (hsteps : 26 < steps) :
    ∃ s', EtyOS.displayError image steps s = .next s' ∧
      image.Showing s₀ (errorScreen M message) s' ∧ image.Returns s s' := by
  have hvideo : (0xb8000 : UInt32).toNat = videoBuffer := by decide
  have hlength : (redWords errPrefix).length = 26 := by
    rw [redWords, List.length_map, errPrefix_length]
  have hstart := errPrefix_length
  have hbuffer : videoBuffer = 0xb8000 := rfl
  obtain ⟨s₁, hclear, hs₁, hreturns₁⟩ := h.clear h₀ (by omega) htop
  have htexts₁ : image.Texts (redScreen M) :=
    htexts.storeWords _ (by rw [List.length_replicate, videoBuffer]; omega)
  -- the beginning of the message
  have hs₂ := hs₁.withPointers image.errPrefixAt 0xb8000
  obtain ⟨s₃, hrun₃, hs₃, hreturns₃, hedi₃⟩ := hs₂.callPrintString h₀
    (by dsimp only; rw [hreturns₁.esp]; omega) (by dsimp only; rw [hreturns₁.esp]; omega) steps
    (by rw [errPrefix_length]; omega) errPrefix_chars htexts₁.errPrefix le_rfl
    (by rw [errPrefix_length]; dsimp only [errPrefixAt]; omega)
    (by dsimp only; rw [hvideo]; omega) (image.code .errorPrefix)
  dsimp only at hs₃ hreturns₃ hedi₃
  rw [hvideo] at hs₃ hedi₃
  have heax₃ : s₃.eax = s.eax := hreturns₃.eax.trans hreturns₁.eax
  have hesp₃ : s₃.esp = s.esp := hreturns₃.esp.trans hreturns₁.esp
  -- the message of the check
  obtain ⟨e, hmessage, hholds, hfrom, hbefore, hshort, hchars⟩ := errorMessage_spec (s := s₃)
    (htexts₁.storeWords (redWords errPrefix) (a := videoBuffer) (by omega)) hfail
    (by rw [al, heax₃]; exact hal)
  have hs₄ := hs₃.withPointers e s₃.edi
  obtain ⟨s₅, hrun₅, hs₅, hreturns₅, -⟩ := hs₄.callPrintString h₀
    (by dsimp only; rw [hesp₃]; omega) (by dsimp only; rw [hesp₃]; omega) steps (by omega) hchars
    hholds hfrom hbefore (by dsimp only; omega) (image.code .errorMessage)
  dsimp only at hs₅ hreturns₅
  rw [hedi₃, hstart, errorScreen_eq] at hs₅
  refine ⟨s₅, ?_, hs₅, hreturns₅.esp.trans hesp₃, hreturns₅.eax.trans heax₃, fun a ha ha' => ?_⟩
  · rw [displayError_eq, hclear, Flow.next_bind, hrun₃, Flow.next_bind, hmessage]
    exact hrun₅
  · refine (hreturns₅.kept a (by dsimp only; rw [hesp₃]; exact ha) ha').trans ?_
    refine (hreturns₃.kept a (by dsimp only; rw [hreturns₁.esp]; exact ha) ha').trans ?_
    exact hreturns₁.kept a ha ha'

/-- `error` comes to its endless loop with the message on the screen. -/
theorem Showing.error (h : image.Showing s₀ M s) (h₀ : s₀.Unpaged)
    (hesp : s.esp = image.stackTop - 4) (htexts : image.Texts M) {p : Processor} {eax : UInt32}
    {code : UInt8} {message : List UInt8} (hfail : firstFailure p eax = some (code, message))
    (hal : s.al = code.toNat) {steps : ℕ} (hsteps : 26 < steps) :
    ∃ s', EtyOS.error image steps s = .next s' ∧
      image.Showing s₀ (errorScreen M message) s' := by
  have hstack := image.stackTop_toNat
  have hbss := image.bss_low
  have hfour : (4 : UInt32).toNat = 4 := rfl
  have htop : s.esp.toNat = image.stackTop.toNat - 4 := by
    rw [hesp]
    exact UInt32.toNat_sub_of_le _ _ (UInt32.le_iff_toNat_le.mpr (by omega))
  have harea : image.stackArea + 64 = image.stackTop.toNat := by
    unfold stackArea
    omega
  have hpush := Unpaged.push (h.unpaged h₀) (by omega) s.eax
  have hpushed := h.push (by omega) (by omega) s.eax
  set pushed : LoadCpu := { s with
    esp := s.esp - 4, memory := s.memory.store (s.esp.toNat - 4) 4 s.eax.toNat } with hdef
  have hsub : pushed.esp.toNat = s.esp.toNat - 4 := esp_sub (by omega)
  obtain ⟨s', hcall, hs', -, -⟩ := hpushed.call h₀ (by omega) (by omega)
    (image.code .displayError) (Q := fun _ => True) fun t ht hesp' heax _ _ => by
      have hdeep : t.esp.toNat = pushed.esp.toNat - 4 := hesp' ▸ esp_sub (by omega)
      obtain ⟨t', hrun, ht', hreturns⟩ := ht.displayError h₀ (by omega) (by omega) htexts hfail
        (by rw [al, heax]; exact hal) hsteps
      exact ⟨t', hrun, ht', hreturns, trivial⟩
  refine ⟨s', ?_, hs'⟩
  rw [EtyOS.error, hpush, Flow.next_bind, hcall]

/-! ### What becomes of the machine -/

/-- When a check fails, `start` comes to `error` with its code in `al`. -/
theorem start_error {p : Processor} (h : image.Entry s) {code : UInt8} {message : List UInt8}
    (hfail : firstFailure p s.eax = some (code, message)) :
    ∃ s', start p image s = .error s' ∧ image.Showing s s.memory s' ∧
      s'.esp = image.stackTop - 4 ∧ s'.al = code.toNat := by
  have hstack := image.stackTop_toNat
  obtain ⟨s₁, hrun, hchecking, hesp⟩ :=
    checks_of_some (h.unpaged.withEsp image.stackTop) rfl rfl hfail
  have hal : (s₁.movAl code).al = code.toNat := by
    have hcode := code.toNat_lt
    rw [al, movAl_toNat]
    omega
  refine ⟨s₁.movAl code, ?_, ⟨hchecking.cr0, hchecking.cr3, hchecking.cr4, hchecking.efer,
    hchecking.direction.trans h.direction, fun b hb => hchecking.memory b ?_⟩, hesp, hal⟩
  · rw [start_eq, hrun, Flow.error_bind]
  · unfold stackArea at hb
    omega

theorem load_of_failure {p : Processor} (h : image.Entry s) {code : UInt8} {message : List UInt8}
    (hfail : firstFailure p s.eax = some (code, message)) (steps back : ℕ) (s' : LoadCpu) :
    load p image steps back s ≠ .kernelMain s' := by
  obtain ⟨s₁, hstart, -⟩ := start_error h hfail
  rw [load, hstart]
  dsimp only
  split <;> exact Loading.noConfusion

theorem firstFailure_eq_none {p : Processor} {eax : UInt32} :
    firstFailure p eax = none ↔ eax = 0x36d76289 ∧ p.HasCpuid ∧ p.HasLongmode := by
  unfold firstFailure
  by_cases hmagic : eax = 0x36d76289 <;> by_cases hid : p.HasCpuid <;>
    by_cases hlong : p.HasLongmode <;> simp [hmagic, hid, hlong]

/-- The strings at 1 MB, the descriptors behind them, and the tables at 2 MB. -/
def imageAt1M : BootImage where
  tables := BootTables.tablesAt2M
  data := 0x100000
  gdt64 := 0x100060
  code := fun _ => 0x110000
  bss_low := by decide
  bss_high := by decide
  data_low := by decide
  data_high := by decide
  data_apart := Or.inl (by decide)
  gdt_high := by decide
  gdt_apart := Or.inl (by decide)
  code_high := fun _ => by decide

def sectionBytes : List UInt8 :=
  errPrefix ++ 0 :: multibootErr ++ 0 :: cpuidErr ++ 0 :: longmodeErr ++ [0, 0, 0] ++
    [0, 0, 0, 0, 0, 0, 0, 0] ++ [0, 0, 0, 0, 0, 0x98, 0x20, 0] ++ [15, 0] ++ [0x60, 0, 0x10]

def loadedMemory : Memory := fun a => if a < 0x100000 then 0 else sectionBytes.getD (a - 0x100000) 0

/-- The machine as the loader leaves it, with `magic` in `eax`. -/
def loaderExit (magic : UInt32) : LoadCpu where
  eax := magic
  ecx := 0
  edx := 0
  memory := loadedMemory
  ebx := 0x9500
  esi := 0
  edi := 0
  esp := 0
  flags := 2
  cr0 := 0x11
  cr3 := 0
  cr4 := 0
  efer := 0
  gdtLimit := 0
  gdtBase := 0

theorem entry_loaderExit (magic : UInt32) : imageAt1M.Entry (loaderExit magic) where
  bss := fun a ha _ => by
    have hfar : 0x200000 ≤ a := ha
    have hlength : sectionBytes.length = 117 := by decide
    change loadedMemory a = 0
    rw [loadedMemory, if_neg (by omega)]
    rw [List.getD_eq_getElem?_getD, List.getElem?_eq_none (by omega), Option.getD_none]
  texts := by
    change imageAt1M.Texts loadedMemory
    constructor <;> decide
  codeSegment := by
    change loadedMemory.load _ 8 = _
    decide
  gdtLimit := by
    change loadedMemory.load _ 2 = _
    decide
  gdtBase := by
    change loadedMemory.load _ 4 = _
    decide
  protectedMode := by
    change (0x11 : UInt32) &&& cr0PE ≠ 0
    decide
  unpaged := by
    change (0x11 : UInt32) &&& cr0PG = 0
    decide
  fourLevels := by
    change (0 : UInt32) &&& cr4LA57 = 0
    decide
  direction := by
    change (2 : UInt32) &&& directionFlag = 0
    decide

/-- A processor with long mode. -/
def longProcessor : Processor where
  writableFlags := arithmeticFlags ||| idFlag
  logicFlags := id
  cpuid := fun _ => ⟨0x80000008, 0, 0, 0x20000000⟩
  arithmetic := by decide

/-- A processor without `cpuid`. -/
def oldProcessor : Processor := { longProcessor with
  writableFlags := arithmeticFlags, arithmetic := by decide }

/-- `kernel_main` is called exactly if the loader's magic is in `eax` and the processor has
`cpuid` and long mode. Then paging is on in long mode, every address of the first
gigabyte is where it was and no other of 48 bits is present, and nothing has been stored
outside the tables and the stack. -/
theorem kernel_loaded_iff (p : Processor) (h : image.Entry s) (steps back : ℕ) :
    ((∃ s', load p image steps back s = .kernelMain s') ↔
        s.eax = 0x36d76289 ∧ p.HasCpuid ∧ p.HasLongmode) ∧
      ∀ s', load p image steps back s = .kernelMain s' →
        s'.cr0 &&& cr0PG ≠ 0 ∧ s'.efer &&& eferLMA ≠ 0 ∧ s'.esp = image.stackTop - 8 ∧
          (∀ a < 2 ^ 30, s'.linear a = .next a) ∧
          (∀ a, 2 ^ 30 ≤ a → a < 2 ^ 48 → s'.linear a = .fault) ∧
          ∀ a, image.OutsideBss a → s'.memory a = s.memory a := by
  have hchecks (s' : LoadCpu) (hload : load p image steps back s = .kernelMain s') :
      firstFailure p s.eax = none := by
    rcases hfail : firstFailure p s.eax with - | ⟨code, message⟩
    · rfl
    · exact absurd hload (load_of_failure h hfail steps back s')
  constructor
  · constructor
    · rintro ⟨s', hload⟩
      exact firstFailure_eq_none.mp (hchecks s' hload)
    · intro hcond
      obtain ⟨s', hload, -⟩ := load_kernelMain h steps back (firstFailure_eq_none.mpr hcond)
      exact ⟨s', hload⟩
  · intro s' hload
    obtain ⟨t, ht, hlong, hesp⟩ := load_kernelMain h steps back (hchecks s' hload)
    obtain rfl : t = s' := Loading.kernelMain.inj (ht.symm.trans hload)
    have hpaging : t.cr0 &&& cr0PG ≠ 0 := by
      rw [hlong.cr0]
      exact or_and_ne_zero (by decide)
    have hlma : t.efer &&& eferLMA ≠ 0 := by
      rw [hlong.efer]
      exact uint64_or_and_ne_zero (by decide)
    refine ⟨hpaging, hlma, hesp, fun a ha => ?_, fun a ha ha' => ?_, hlong.memory⟩
    · exact hlong.direct h (n := 1) (by omega) a le_rfl (by omega)
    · rw [linear, if_neg hpaging, hlong.cr4, if_neg (not_not.mpr h.fourLevels_pae), hlong.cr3,
        hlong.filled.walk_high ha ha']

theorem kernel_loaded_iff_long : ∃ s',
    load longProcessor imageAt1M 30 0x110000 (loaderExit 0x36d76289) = .kernelMain s' ∧
      s'.linear 0xB8000 = .next 0xB8000 := by
  have hloaded := kernel_loaded_iff longProcessor (entry_loaderExit 0x36d76289) 30 0x110000
  obtain ⟨s', hs'⟩ := hloaded.1.mpr ⟨rfl, by decide, by decide⟩
  exact ⟨s', hs', (hloaded.2 s' hs').2.2.2.1 0xB8000 (by decide)⟩

theorem screenWord_lt (c : UInt8) : c.toNat + 0x4F00 < 256 ^ 2 := by
  have hc := c.toNat_lt
  omega

/-- The word at place `k` of the screen. -/
theorem load_errorScreen (M : Memory) {message : List UInt8} {k : ℕ} (hk : k < 2000) :
    (errorScreen M message).load (videoBuffer + 2 * k) 2 =
      (redWords (errPrefix ++ message)).getD k 0x4020 := by
  rcases hword : (redWords (errPrefix ++ message))[k]? with - | w
  · have hend := List.getElem?_eq_none_iff.mp hword
    have hblank : (List.replicate 2000 0x4020)[k]? = some 0x4020 := by
      rw [List.getElem?_replicate, if_pos hk]
    rw [List.getD_eq_getElem?_getD, hword, errorScreen,
      Memory.load_congr fun b hb _ => Memory.storeWords_frame _ _ (Or.inr (by omega))]
    exact Memory.load_storeWords _ hblank (by decide)
  · have hlt : w < 256 ^ 2 := by
      obtain ⟨c, -, rfl⟩ := List.mem_map.mp (List.mem_of_getElem? hword)
      exact screenWord_lt c
    rw [List.getD_eq_getElem?_getD, hword]
    exact Memory.load_storeWords _ hword hlt

theorem errorScreen_frame (M : Memory) {message : List UInt8} (hshort : message.length ≤ 23) {a : ℕ}
    (ha : a < videoBuffer ∨ videoBuffer + 4000 ≤ a) : errorScreen M message a = M a := by
  have hprefix := errPrefix_length
  refine (Memory.storeWords_frame _ _ ?_).trans (redScreen_frame M ha)
  rw [redWords, List.length_map, List.length_append]
  omega

theorem firstFailure_length {p : Processor} {eax : UInt32} {code : UInt8} {message : List UInt8}
    (hfail : firstFailure p eax = some (code, message)) : message.length ≤ 23 := by
  unfold firstFailure at hfail
  split at hfail
  · obtain ⟨-, rfl⟩ := Prod.mk.inj (Option.some.inj hfail)
    decide
  split at hfail
  · obtain ⟨-, rfl⟩ := Prod.mk.inj (Option.some.inj hfail)
    decide
  split at hfail
  · obtain ⟨-, rfl⟩ := Prod.mk.inj (Option.some.inj hfail)
    decide
  · exact absurd hfail (by simp)

/-- When a check fails, the machine stops with the message of the first one that does on a
red screen, and nothing has been set up: the control registers are as before, and so is
the memory outside the screen and the stack. -/
theorem load_error_shown {p : Processor} (h : image.Entry s) {code : UInt8}
    {message : List UInt8} (hfail : firstFailure p s.eax = some (code, message)) {steps : ℕ}
    (hsteps : 26 < steps) (back : ℕ) :
    ∃ s', load p image steps back s = .stopped s' ∧
      (∀ k < 2000, s'.memory.load (videoBuffer + 2 * k) 2 =
        (redWords (errPrefix ++ message)).getD k 0x4020) ∧
      s'.cr0 = s.cr0 ∧ s'.cr3 = s.cr3 ∧ s'.cr4 = s.cr4 ∧ s'.efer = s.efer ∧
      ∀ a, a < videoBuffer ∨ videoBuffer + 4000 ≤ a →
        a < image.stackTop.toNat - 64 ∨ image.stackTop.toNat ≤ a → s'.memory a = s.memory a := by
  have hstack := image.stackTop_toNat
  have hbss := image.bss_low
  have hvideo : videoBuffer = 0xb8000 := rfl
  obtain ⟨s₁, hstart, hs₁, hesp, hal⟩ := start_error h hfail
  obtain ⟨s₂, herror, hs₂⟩ := hs₁.error h.unpaged hesp h.texts hfail hal hsteps
  refine ⟨s₂, ?_, fun k hk => ?_, hs₂.cr0, hs₂.cr3, hs₂.cr4, hs₂.efer, fun a ha ha' => ?_⟩
  · rw [load, hstart]
    dsimp only
    rw [herror]
  · rw [← load_errorScreen s.memory hk]
    exact Memory.load_congr fun b hb hb' => hs₂.memory b (by unfold stackArea; omega)
  · rw [hs₂.memory a (by unfold stackArea; omega)]
    exact errorScreen_frame _ (firstFailure_length hfail) ha

theorem load_error_shown_old : ∃ s',
    load oldProcessor imageAt1M 30 0x110000 (loaderExit 0x36d76289) = .stopped s' ∧
      s'.memory.load 0xB8034 2 = 0x4F43 := by
  have hfail : firstFailure oldProcessor (loaderExit 0x36d76289).eax = some (67, cpuidErr) := rfl
  obtain ⟨s', hstopped, hscreen, -⟩ := load_error_shown (entry_loaderExit 0x36d76289) hfail
    (by decide : 26 < 30) 0x110000
  exact ⟨s', hstopped, hscreen 26 (by decide)⟩

end BootImage

end EtyOS
