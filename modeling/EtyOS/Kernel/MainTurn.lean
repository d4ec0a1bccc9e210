import EtyOS.Kernel.KernelMain

/-!
# One turn of `kernel_main`

Every turn comes back, keeps the pool ready, and prints with one background, the
one of `kernel_main`'s variable after the line. `setcolor` assigns the variable
before it checks the number, so a rejected number stays in it.
-/

namespace EtyOS

open Library

/-! ### The variables after a line -/

/-- The line is a `setcolor` command and `kernel_main` reads it. -/
def SetsColor (inDisktool : Bool) (line : CString) : Prop :=
  inDisktool = false ∧ chars "setcolor " <+: line.bytes

/-- The number that a `setcolor` line asks for. -/
def requested (line : CString) : UInt32 := number (line.bytes.drop 9)

/-- Who reads the next line. -/
def nextReader (inDisktool : Bool) (line : CString) : Bool :=
  if inDisktool then decide (line.bytes ≠ chars "exit") else decide (line.bytes = chars "disktool")

instance (inDisktool : Bool) (line : CString) : Decidable (SetsColor inDisktool line) :=
  inferInstanceAs (Decidable (_ ∧ _))

/-- The variable after a line: `setcolor` assigns it in any case. -/
def nextColor (inDisktool : Bool) (color : Int32) (line : CString) : Int32 :=
  if SetsColor inDisktool line then (requested line).toInt32 else color

theorem colorByte_toInt32 (v : UInt32) : Main.colorByte v.toInt32 = v.toUInt8 := rfl

/-- The check of `setcolor`, on the unsigned number. -/
theorem in_range_iff (v : UInt32) : (v.toInt32 ≥ 0 ∧ v.toInt32 ≤ 14) ↔ v ≤ 14 := by
  have hlt := v.toNat_lt
  have hcond : v.toInt32.toInt =
      if 2 * v.toNat < 2 ^ 32 then (v.toNat : ℤ) else v.toNat - (2 ^ 32 : ℕ) :=
    BitVec.toInt_eq_toNat_cond _
  rw [ge_iff_le, Int32.le_iff_toInt_le, Int32.le_iff_toInt_le, UInt32.le_iff_toNat_le, hcond]
  change (0 ≤ _ ∧ _ ≤ (14 : ℤ)) ↔ v.toNat ≤ 14
  split <;> omega

/-! ### What a turn prints -/

namespace ScreenCall

/-- A change of the colours has this background, and a foreground of four bits. -/
def Paints (background : UInt8) : ScreenCall → Prop
  | .call c => c.Paints background
  | .clear => True

end ScreenCall

/-- The foreground of four bits is shifted out again. -/
theorem printSetColor_shiftRight {foreground : UInt8} (h : foreground < 16) (b : UInt8) :
    printSetColor foreground b >>> 4 = b % 16 := by
  have hforeground : foreground.toNat < 16 := UInt8.lt_iff_toNat_lt.mp h
  rw [← UInt8.toNat_inj, printSetColor, UInt8.toNat_shiftRight, UInt8.toNat_add,
    UInt8.toNat_shiftLeft, UInt8.toNat_mod]
  change ((foreground.toNat + b.toNat <<< 4 % 2 ^ 8) % 2 ^ 8) >>> 4 = b.toNat % 16
  rw [Nat.shiftLeft_eq, Nat.shiftRight_eq_div_pow]
  omega

section Background

variable {b : UInt8} {output new : List ScreenCall}

theorem background_concat_setColor (output : List ScreenCall) {foreground : UInt8}
    (h : foreground < 16) (b : UInt8) :
    background (output ++ [.call (.setColor foreground b)]) = b % 16 := by
  rw [background, screenColor, List.foldl_concat]
  exact printSetColor_shiftRight h b

theorem background_concat (c : ScreenCall) (hc : c.Paints b) (h : background output = b % 16) :
    background (output ++ [c]) = b % 16 := by
  match c, hc with
  | .call (.setColor _ _), ⟨hforeground, rfl⟩ => exact background_concat_setColor _ hforeground _
  | .call (.str _), _ | .call .newline, _ | .call (.char _), _ | .call (.int _), _
  | .call (.dec _), _ | .clear, _ =>
    rw [background, screenColor, List.foldl_concat]
    exact h

/-- A prompt ends with a change of the colours. -/
theorem background_append_prompt (output : List ScreenCall) (foreground b : UInt8)
    (text : String) :
    background (output ++ [PrintCall.setColor foreground b, .str text,
      .setColor printColorWhite b].map .call) = b % 16 := by
  have hsplit : output ++ [PrintCall.setColor foreground b, .str text,
      .setColor printColorWhite b].map .call =
      output ++ [.call (.setColor foreground b), .call (.str text)] ++
        [.call (.setColor printColorWhite b)] := by simp
  rw [hsplit]
  exact background_concat_setColor _ (by decide) b

theorem background_append (hnew : ∀ c ∈ new, c.Paints b) (h : background output = b % 16) :
    background (output ++ new) = b % 16 := by
  induction new using List.reverseRecOn with
  | nil => rwa [List.append_nil]
  | append_singleton new c ih =>
    obtain ⟨hinit, hc⟩ := List.forall_mem_append.mp hnew
    rw [← List.append_assoc]
    exact background_concat c (hc c (List.mem_singleton_self c)) (ih hinit)

end Background

namespace MainState

/-- The screen has the background of the variable. -/
def AtPrompt (t : MainState) : Prop := background t.output = Main.colorByte t.color % 16

/-- From `t` to `t'`: the machine is ready, the variables have these values, and the
calls made satisfy `P`. -/
structure Adds (P : ScreenCall → Prop) (color : Int32) (inDisktool : Bool) (t t' : MainState) :
    Prop where
  ready : t'.machine.Ready
  color : t'.color = color
  inDisktool : t'.inDisktool = inDisktool
  output : ∃ new, t'.output = t.output ++ new ∧ ∀ c ∈ new, P c

theorem Adds.extends_output {P : ScreenCall → Prop} {color : Int32} {d : Bool} {t t' : MainState}
    (h : t.Adds P color d t') : t.output <+: t'.output := by
  obtain ⟨new, hnew, -⟩ := h.output
  exact hnew ▸ List.prefix_append _ _

theorem Adds.trans {P : ScreenCall → Prop} {color color' : Int32} {d d' : Bool}
    {t t' t'' : MainState} (h : t.Adds P color d t') (h' : t'.Adds P color' d' t'') :
    t.Adds P color' d' t'' := by
  obtain ⟨new, hnew, hall⟩ := h.output
  obtain ⟨later, hlater, hall'⟩ := h'.output
  refine ⟨h'.ready, h'.color, h'.inDisktool, new ++ later, ?_, ?_⟩
  · rw [hlater, hnew, List.append_assoc]
  · intro c hc
    exact (List.mem_append.mp hc).elim (hall c) (hall' c)

end MainState

/-- The state after calls that `main.c` makes itself. -/
def MainState.show (t : MainState) (calls : List PrintCall) : MainState :=
  { t with machine := { t.machine with printed := calls }, output := t.output ++ calls.map .call }

section Runs

variable {α β : Type} (t : MainState)

theorem run_exec_console (calls : List PrintCall) :
    (Main.exec (console calls)).run t = some ((), t.show calls) := rfl

theorem run_printClear :
    Main.printClear.run t = some ((), { t with output := t.output ++ [.clear] }) := rfl

theorem run_setColor (color : Int32) :
    (Main.setColor color).run t = some ((), { t with color := color }) := rfl

variable {t} {t' : MainState}

theorem Main.run_bind {x : Main α} {f : α → Main β} {a : α} (h : x.run t = some (a, t')) :
    (x >>= f).run t = (f a).run t' := by
  rw [StateT.run_bind, h]
  rfl

end Runs

/-- From `t` the program comes back with a result and a state in `Q`. -/
def Reaches {α : Type} (x : Main α) (t : MainState) (Q : α → MainState → Prop) : Prop :=
  ∃ a t', x.run t = some (a, t') ∧ Q a t'

section Reaches

variable {α β : Type} {x y : Main α} {t : MainState} {Q Q' : α → MainState → Prop}

theorem Reaches.mono (h : Reaches x t Q) (hQ : ∀ a t', Q a t' → Q' a t') : Reaches x t Q' := by
  obtain ⟨a, t', hrun, hq⟩ := h
  exact ⟨a, t', hrun, hQ a t' hq⟩

theorem Reaches.bind {f : α → Main β} {R : β → MainState → Prop} (hx : Reaches x t Q)
    (hf : ∀ a t', Q a t' → Reaches (f a) t' R) : Reaches (x >>= f) t R := by
  obtain ⟨a, t', hrun, hq⟩ := hx
  obtain ⟨b, t'', hrest, hr⟩ := hf a t' hq
  refine ⟨b, t'', ?_, hr⟩
  rw [StateT.run_bind, hrun]
  exact hrest

/-- The program has one result. -/
theorem Reaches.result {a : α} {t' : MainState} (h : Reaches x t Q) (hrun : x.run t = some (a, t')) :
    Q a t' := by
  obtain ⟨b, t'', hrun', hq⟩ := h
  obtain ⟨rfl, rfl⟩ := Prod.mk.inj (Option.some.inj (hrun'.symm.trans hrun))
  exact hq

theorem Reaches.of_run {f : α → Main β} {R : β → MainState → Prop} {a : α} {t' : MainState}
    (hx : x.run t = some (a, t')) (hf : Reaches (f a) t' R) : Reaches (x >>= f) t R :=
  Reaches.bind (Q := fun b t'' => b = a ∧ t'' = t') ⟨a, t', hx, rfl, rfl⟩
    fun _ _ ⟨ha, ht⟩ => ha ▸ ht ▸ hf

theorem Reaches.ite {p : Prop} [Decidable p] (hx : p → Reaches x t Q) (hy : ¬p → Reaches y t Q) :
    Reaches (if p then x else y) t Q := by
  by_cases hp : p
  · simpa [hp] using hx hp
  · simpa [hp] using hy hp

variable {P : PrintCall → Prop} {A : α → Prop} {S : ScreenCall → Prop}

theorem reaches_get : Reaches (get : Main MainState) t fun a t' => a = t ∧ t' = t :=
  ⟨t, t, rfl, rfl, rfl⟩

/-- A handler keeps the variables, and its calls go to the screen. -/
theorem reaches_exec {x : Kernel α} (hx : Handles P A x) (ht : t.machine.Ready)
    (hP : ∀ c, P c → S (.call c)) :
    Reaches (Main.exec x) t fun a t' => A a ∧ t.Adds S t.color t.inDisktool t' := by
  obtain ⟨a, s', hrun, ha, hready, calls, hcalls, hall⟩ := hx { t.machine with printed := [] } ht
  refine ⟨a, { t with machine := s', output := t.output ++ s'.printed.map .call }, ?_, ha,
    hready, rfl, rfl, s'.printed.map .call, rfl, ?_⟩
  · change Option.map _ _ = _
    rw [hrun]
    rfl
  · intro c hc
    obtain ⟨p, hp, rfl⟩ := List.mem_map.mp hc
    rw [hcalls] at hp
    exact hP p (hall p hp)

theorem reaches_console {calls : List PrintCall} (h : ∀ c ∈ calls, S (.call c))
    (ht : t.machine.Ready) :
    Reaches (Main.exec (console calls)) t fun _ t' => t.Adds S t.color t.inDisktool t' :=
  (reaches_exec (handles_console (P := fun c => S (.call c)) h) ht fun _ hc => hc).mono
    fun _ _ h => h.2

theorem reaches_printClear (ht : t.machine.Ready) (hclear : S .clear) :
    Reaches Main.printClear t fun _ t' => t.Adds S t.color t.inDisktool t' :=
  ⟨(), _, rfl, ht, rfl, rfl, [.clear], rfl, by simpa using hclear⟩

theorem reaches_setColor (color : Int32) (ht : t.machine.Ready) :
    Reaches (Main.setColor color) t fun _ t' => t.Adds S color t.inDisktool t' :=
  ⟨(), _, rfl, ht, rfl, rfl, [], (List.append_nil _).symm, by simp⟩

theorem reaches_setReader (inDisktool : Bool) (ht : t.machine.Ready) :
    Reaches (Main.setReader inDisktool) t fun _ t' => t.Adds S t.color inDisktool t' :=
  ⟨(), _, rfl, ht, rfl, rfl, [], (List.append_nil _).symm, by simp⟩

end Reaches

section Turn

variable (frame : MainState → LocalArray) {line : CString} {t : MainState}

open Main

theorem displayAvailableDisks_handles :
    Handles PrintCall.Colorless (fun _ => True) displayAvailableDisks := by
  apply handles_of_quiet
  · intro s
    obtain ⟨s', calls, hrun, -, -⟩ := run_displayAvailableDisks s
    exact ⟨_, s', hrun⟩
  · have hdrive (c d : Fin 2) (n : ℕ) : Relates Machine.Quiet (displayDrive c d n) := by
      refine (quiet_driver _).bind fun answer => ?_
      cases answer with
      | none => exact Relates.pure _
      | some buffer =>
        refine (quiet_console ?_).bind fun _ => Relates.pure _
        simp [driveLine, PrintCall.Colorless]
    refine (quiet_console (by simp [PrintCall.Colorless])).bind fun _ => ?_
    refine (hdrive _ _ _).bind fun _ => (hdrive _ _ _).bind fun _ => ?_
    refine (hdrive _ _ _).bind fun _ => (hdrive _ _ _).bind fun _ => ?_
    exact Relates.ite (fun _ => quiet_console (by simp [PrintCall.Colorless]))
      fun _ => Relates.pure ()

/-- A handler that keeps the colours goes with any background. -/
theorem reaches_colorless {α : Type} {A : α → Prop} {x : Kernel α} (b : UInt8)
    (hx : Handles PrintCall.Colorless A x) (ht : t.machine.Ready) :
    Reaches (exec x) t fun _ t' => t.Adds (ScreenCall.Paints b) t.color t.inDisktool t' :=
  (reaches_exec hx ht fun _ hc => hc.paints b).mono fun _ _ h => h.2

theorem reaches_return (b : UInt8) (ht : t.machine.Ready) :
    Reaches (return ()) t fun _ t' => t.Adds (ScreenCall.Paints b) t.color t.inDisktool t' :=
  ⟨(), t, rfl, ht, rfl, rfl, [], (List.append_nil _).symm, by simp⟩

theorem checkfs_reaches (b : UInt8) (ht : t.machine.Ready) :
    Reaches (do
        let t ← get
        let _ ← exec ((checkFilesystem (frame t)).run [])
        return ()) t fun _ t' => t.Adds (ScreenCall.Paints b) t.color t.inDisktool t' := by
  refine reaches_get.bind fun _ _ ⟨ht₁, ht₂⟩ => ?_
  rw [ht₁, ht₂]
  refine (reaches_colorless b (checkFilesystem_handles (frame t)) ht).bind fun _ t' h => ?_
  exact (reaches_return b h.ready).mono fun _ _ h' => h.color ▸ h.inDisktool ▸ h.trans h'

theorem text_colorless (text : List UInt8) :
    ∀ c ∈ text.map PrintCall.char ++ [.newline], c.Colorless := by
  intro c hc
  rcases List.mem_append.mp hc with hchar | hnewline
  · obtain ⟨b, -, rfl⟩ := List.mem_map.mp hchar
    trivial
  · rw [List.mem_singleton.mp hnewline]
    trivial

/-- A line that is neither `setcolor` nor `disktool` changes no variable. -/
theorem kernelLine_plain (b : UInt8) (ht : t.machine.Ready)
    (hset : ¬chars "setcolor " <+: line.bytes) (hdisktool : line.bytes ≠ chars "disktool") :
    Reaches (kernelLine frame line) t fun _ t' =>
      t.Adds (ScreenCall.Paints b) t.color t.inDisktool t' := by
  have hplain {calls : List PrintCall} (h : ∀ c ∈ calls, c.Colorless) :
      Reaches (exec (console calls)) t fun _ t' =>
        t.Adds (ScreenCall.Paints b) t.color t.inDisktool t' :=
    reaches_colorless b (handles_console h) ht
  have hset' : ¬strncmp line.bytes (chars "setcolor ") 9 = 0 := fun h =>
    hset ((strncmp_eq_zero_iff _ (chars "setcolor ") (by decide)).mp h)
  have hdisktool' : ¬strcmp line.bytes (chars "disktool") = 0 := fun h =>
    hdisktool ((strcmp_eq_zero_iff _ _ line.noNul (by decide)).mp h)
  unfold kernelLine
  refine Reaches.ite (fun _ => reaches_return b ht) fun _ => ?_
  refine Reaches.ite (fun _ => hplain (by simp [helpText, PrintCall.Colorless])) fun _ => ?_
  rw [if_neg hdisktool']
  refine Reaches.ite (fun _ => reaches_printClear ht trivial) fun _ => ?_
  refine Reaches.ite (fun _ => reaches_colorless b displayAvailableDisks_handles ht) fun _ => ?_
  refine Reaches.ite (fun _ => hplain (by simp [aboutText, PrintCall.Colorless])) fun _ => ?_
  refine Reaches.ite (fun _ => checkfs_reaches frame b ht) fun _ => ?_
  refine Reaches.ite (fun _ => hplain (text_colorless _)) fun _ => ?_
  refine Reaches.ite (fun _ => reaches_colorless b
    (displayPartitions_does.handles displayPartitions_keepsColors) ht) fun _ => ?_
  rw [if_neg hset']
  exact hplain (List.forall_mem_cons.mpr ⟨trivial, text_colorless _⟩)

theorem kernelLine_disktool (hdisktool : line.bytes = chars "disktool") :
    kernelLine frame line = Main.startDisktool := by
  unfold kernelLine
  rw [hdisktool]
  rfl

theorem kernelLine_setcolor (hset : chars "setcolor " <+: line.bytes) :
    kernelLine frame line = setcolor line.bytes := by
  have hne {text : List UInt8} (htext : 0 ∉ text) (hother : ¬chars "setcolor " <+: text) :
      ¬strcmp line.bytes text = 0 := by
    rw [strcmp_eq_zero_iff _ _ line.noNul htext]
    rintro rfl
    exact hother hset
  have hempty : line.bytes ≠ [] := by
    intro h
    rw [h] at hset
    revert hset
    decide
  have hecho : ¬strncmp line.bytes (chars "echo ") 5 = 0 := by
    intro hecho
    have hsub := (strncmp_eq_zero_iff _ (chars "echo ") (by decide)).mp hecho
    obtain ⟨rest, hrest⟩ := hset
    rw [← hrest] at hsub
    exact absurd (List.cons_prefix_cons.mp hsub).1 (by decide)
  have hset' : strncmp line.bytes (chars "setcolor ") 9 = 0 :=
    (strncmp_eq_zero_iff _ (chars "setcolor ") (by decide)).mpr hset
  unfold kernelLine
  simp only [if_neg hempty, if_neg (hne (by decide : 0 ∉ chars "help") (by decide)),
    if_neg (hne (by decide : 0 ∉ chars "disktool") (by decide)),
    if_neg (hne (by decide : 0 ∉ chars "clear") (by decide)),
    if_neg (hne (by decide : 0 ∉ chars "dsks") (by decide)),
    if_neg (hne (by decide : 0 ∉ chars "about") (by decide)),
    if_neg (hne (by decide : 0 ∉ chars "checkfs") (by decide)), if_neg hecho,
    if_neg (hne (by decide : 0 ∉ chars "partitions") (by decide)), if_pos hset']

/-- The calls of `setcolor` with a number in range. -/
def acceptedCalls (b : UInt8) : List ScreenCall :=
  [.call (.setColor printColorWhite b), .clear, .call (.setColor printColorWhite b), .clear,
    .call (.str "Colors updated."), .call .newline]

def rejectedCalls : List ScreenCall :=
  [.call (.str "Invalid color value. Use numbers between 0 and 14."), .call .newline]

/-- `setcolor` in full: the variable, and one message or the other. -/
theorem setcolor_run (line : CString) (t : MainState) :
    ∃ t', (setcolor line.bytes).run t = some ((), t') ∧ t'.color = (requested line).toInt32 ∧
      t'.inDisktool = t.inDisktool ∧ (t.machine.Ready → t'.machine.Ready) ∧
      t'.output = t.output ++ if requested line ≤ 14 then acceptedCalls (requested line).toUInt8
        else rejectedCalls := by
  have hnumber : (strtoul (line.bytes.drop 9) 10).1 = requested line := strtoul_fst _
  unfold setcolor
  rw [hnumber]
  dsimp only
  rw [Main.run_bind (run_setColor _ _)]
  by_cases h : requested line ≤ 14
  · rw [if_pos h, if_pos ((in_range_iff _).mpr h), Main.run_bind (run_exec_console _ _),
      Main.run_bind (run_printClear _), Main.run_bind (run_exec_console _ _),
      Main.run_bind (run_printClear _), Main.run_bind (run_exec_console _ _)]
    refine ⟨_, run_exec_console _ _, rfl, rfl, id, ?_⟩
    simp [MainState.show, acceptedCalls, colorByte_toInt32]
  · rw [if_neg h, if_neg (mt (in_range_iff _).mp h), Main.run_bind (run_exec_console _ _)]
    refine ⟨_, run_exec_console _ _, rfl, rfl, id, ?_⟩
    simp [MainState.show, rejectedCalls]

theorem startDisktool_reaches (b : UInt8) (ht : t.machine.Ready) :
    Reaches Main.startDisktool t fun _ t' => t.Adds (ScreenCall.Paints b) t.color true t' := by
  refine (reaches_colorless b (handles_console (by simp [PrintCall.Colorless])) ht).bind
    fun _ t' h => ?_
  exact (reaches_setReader true h.ready).mono fun _ _ h' => h.color ▸ h.trans h'

theorem setcolor_reaches (ht : t.machine.Ready) :
    Reaches (setcolor line.bytes) t fun _ t' =>
      t.Adds (ScreenCall.Paints (requested line).toUInt8) (requested line).toInt32 t.inDisktool
        t' := by
  obtain ⟨t', hrun, hcolor, hreader, hready, houtput⟩ := setcolor_run line t
  refine ⟨(), t', hrun, hready ht, hcolor, hreader, _, houtput, ?_⟩
  split
  · simp [acceptedCalls, ScreenCall.Paints, PrintCall.Paints, printColorWhite]
  · simp [rejectedCalls, ScreenCall.Paints, PrintCall.Paints]

theorem kernelLine_reaches (ht : t.machine.Ready) (hreader : t.inDisktool = false) :
    Reaches (kernelLine frame line) t fun _ t' =>
      t.Adds (ScreenCall.Paints (colorByte (nextColor t.inDisktool t.color line)))
        (nextColor t.inDisktool t.color line) (nextReader t.inDisktool line) t' := by
  rw [hreader, nextColor, nextReader, if_neg Bool.false_ne_true]
  by_cases hset : chars "setcolor " <+: line.bytes
  · have hne : line.bytes ≠ chars "disktool" := by
      intro h
      rw [h] at hset
      revert hset
      decide
    rw [if_pos ⟨rfl, hset⟩, decide_eq_false hne, kernelLine_setcolor frame hset, ← hreader]
    exact setcolor_reaches ht
  · rw [if_neg fun h => hset h.2]
    by_cases hdisktool : line.bytes = chars "disktool"
    · rw [decide_eq_true hdisktool, kernelLine_disktool frame hdisktool]
      exact startDisktool_reaches _ ht
    · rw [decide_eq_false hdisktool, ← hreader]
      exact kernelLine_plain frame _ ht hset hdisktool

/-- The prompt and the state that it leaves. -/
theorem nextPrompt_reaches (ht : t.machine.Ready) :
    Reaches nextPrompt t fun _ t' =>
      t.Adds (ScreenCall.Paints (colorByte t.color)) t.color t.inDisktool t' ∧ t'.AtPrompt := by
  refine ⟨(), t.show (if t.inDisktool then disktoolPrompt t.color else prompt t.color), rfl,
    ⟨ht, rfl, rfl, _, rfl, ?_⟩, ?_⟩
  · split <;> simp [disktoolPrompt, prompt, ScreenCall.Paints, PrintCall.Paints, printColorYellow,
      printColorLightGray, printColorWhite]
  · split
    · exact background_append_prompt _ _ _ _
    · exact background_append_prompt _ _ _ _

/-- What is printed before a prompt goes with it. -/
theorem Reaches.prompt {x : Main Unit} {color : Int32} {inDisktool : Bool}
    (hx : Reaches x t fun _ t' => t.Adds (ScreenCall.Paints (colorByte color)) color inDisktool t') :
    Reaches (do x; nextPrompt) t fun _ t' =>
      t.Adds (ScreenCall.Paints (colorByte color)) color inDisktool t' ∧ t'.AtPrompt := by
  refine hx.bind fun _ t' h => (nextPrompt_reaches h.ready).mono fun _ t'' h' => ⟨?_, h'.2⟩
  rw [h.color, h.inDisktool] at h'
  exact h.trans h'.1

/-- What is printed before the program goes with it. -/
theorem Reaches.after {α : Type} {S : ScreenCall → Prop} {x : Main α} {y : Main Unit}
    {color : Int32} {inDisktool : Bool}
    (hx : Reaches x t fun _ t' => t.Adds S t.color t.inDisktool t')
    (hy : ∀ t', t'.machine.Ready → t'.color = t.color → t'.inDisktool = t.inDisktool →
      Reaches y t' fun _ t'' => t'.Adds S color inDisktool t'' ∧ t''.AtPrompt) :
    Reaches (do let _ ← x; y) t fun _ t' => t.Adds S color inDisktool t' ∧ t'.AtPrompt :=
  hx.bind fun _ t' h => (hy t' h.ready h.color h.inDisktool).mono fun _ _ h' =>
    ⟨h.trans h'.1, h'.2⟩

theorem disktoolTurn_reaches (ht : t.machine.Ready) (hreader : t.inDisktool = true) :
    Reaches (do
        let goOn ← exec (disktoolLine (colorByte t.color) line)
        if goOn then nextPrompt
        else
          setReader false
          nextPrompt) t fun _ t' =>
      t.Adds (ScreenCall.Paints (colorByte t.color)) t.color (decide (line.bytes ≠ chars "exit")) t' ∧
        t'.AtPrompt := by
  have hline : Handles (PrintCall.Paints (colorByte t.color))
      (fun goOn => goOn = decide (line.bytes ≠ chars "exit"))
      (disktoolLine (colorByte t.color) line) := by
    intro s hs
    obtain ⟨goOn, s', hrun, ⟨view, hgoOn⟩, hrest⟩ :=
      (disktoolLine_does (colorByte t.color) line).handles (disktoolLine_paints _ line) s hs
    exact ⟨goOn, s', hrun, hgoOn, hrest⟩
  refine (reaches_exec (S := ScreenCall.Paints (colorByte t.color)) hline ht fun _ hc => hc).bind
    fun goOn t' ⟨hgoOn, h⟩ => ?_
  rw [← hgoOn]
  cases goOn with
  | true =>
    refine (nextPrompt_reaches h.ready).mono fun _ t'' h' => ⟨?_, h'.2⟩
    rw [h.color, h.inDisktool, hreader] at h'
    exact h.trans h'.1
  | false =>
    have hback := (reaches_setReader (S := ScreenCall.Paints (colorByte t.color)) false h.ready)
    rw [h.color] at hback
    exact hback.prompt.mono fun _ t'' h' => ⟨h.trans h'.1, h'.2⟩

/-- Every turn comes back, with the variables that the line leads to, and everything that
it prints has the background of the new value. -/
theorem turn_reaches (line : CString) (ht : t.machine.Ready) :
    Reaches (turn frame line) t fun _ t' =>
      t.Adds (ScreenCall.Paints (colorByte (nextColor t.inDisktool t.color line)))
        (nextColor t.inDisktool t.color line) (nextReader t.inDisktool line) t' ∧ t'.AtPrompt := by
  refine Reaches.after (reaches_console (by simp [ScreenCall.Paints, PrintCall.Paints]) ht)
    fun t' hready hcolor hreader => ?_
  rw [← hcolor, ← hreader]
  change Reaches (if t'.inDisktool then _ else _) t' _
  refine Reaches.ite (fun hdisktool => ?_) fun hkernel => ?_
  · rw [nextColor, if_neg fun h => Bool.false_ne_true (h.1.symm.trans hdisktool), nextReader,
      if_pos hdisktool]
    exact disktoolTurn_reaches hready hdisktool
  · exact (kernelLine_reaches frame hready (Bool.not_eq_true _ ▸ hkernel)).prompt

/-- In the disk tool a turn acts on the disks as a line of its shell. -/
theorem turn_system (line : CString) (ht : t.machine.Ready) (hreader : t.inDisktool = true) :
    Reaches (turn frame line) t fun _ t' =>
      t'.machine.system = t.machine.system.line line := by
  obtain ⟨s', hrun, hsystem, -⟩ :=
    disktoolLine_does (colorByte t.color) line { t.machine with printed := [] } ht
  let t₁ : MainState :=
    { t with machine := s', output := (t.show [.newline]).output ++ s'.printed.map .call }
  have hexec : (exec (disktoolLine (colorByte t.color) line)).run (t.show [.newline]) =
      some (decide (line.bytes ≠ chars "exit"), t₁) := by
    change Option.map _ (StateT.run _ { t.machine with printed := [] }) = _
    rw [hrun]
    rfl
  refine Reaches.of_run (run_exec_console _ _) ?_
  change Reaches (if t.inDisktool = true then _ else _ : Main Unit) _ _
  rw [if_pos hreader]
  refine Reaches.of_run hexec ?_
  exact Reaches.ite (fun _ => ⟨(), _, rfl, hsystem⟩) fun _ => ⟨(), _, rfl, hsystem⟩

/-- Lines without `exit` act together as a session of `start_disktool`. -/
theorem turns_session {lines : List CString} {t' : MainState} (ht : t.machine.Ready)
    (hreader : t.inDisktool = true) (hexit : ∀ line ∈ lines, line.bytes ≠ chars "exit")
    (hrun : Run (turn frame) (fun _ _ => True) t lines t') :
    t'.machine.Ready ∧ t'.inDisktool = true ∧
      t'.machine.system = t.machine.system.session lines := by
  induction hrun with
  | nil => exact ⟨ht, hreader, rfl⟩
  | @snoc lines t₁ t₂ line _ _ _ hexec ih =>
    obtain ⟨hinit, hline⟩ := List.forall_mem_append.mp hexit
    obtain ⟨hready, hdisktool, hsystem⟩ := ih hinit
    have hadds := ((turn_reaches frame line hready).result hexec).1
    have hview := (turn_system frame line hready hdisktool).result hexec
    refine ⟨hadds.ready, ?_, ?_⟩
    · rw [hadds.inDisktool, hdisktool, nextReader, if_pos rfl]
      exact decide_eq_true (hline line (List.mem_singleton_self line))
    · rw [hview, hsystem, System.session_concat _ hinit]

/-- The calls of a turn with `setcolor`. -/
def setcolorCalls (line : CString) : List ScreenCall :=
  .call .newline :: ((if requested line ≤ 14 then acceptedCalls (requested line).toUInt8
    else rejectedCalls) ++ (prompt (requested line).toInt32).map .call)

theorem turn_setcolor (hset : SetsColor t.inDisktool line) :
    Reaches (turn frame line) t fun _ t' => t'.output = t.output ++ setcolorCalls line := by
  obtain ⟨t', hrun, hcolor, hreader, -, houtput⟩ := setcolor_run line (t.show [.newline])
  have hkernel : t'.inDisktool = false := hreader.trans hset.1
  refine Reaches.of_run (run_exec_console _ _) ?_
  change Reaches (if t.inDisktool = true then _ else _ : Main Unit) _ _
  rw [if_neg (by simp [hset.1]), kernelLine_setcolor frame hset.2]
  refine Reaches.of_run hrun ⟨(), t'.show (prompt (requested line).toInt32), ?_, ?_⟩
  · change (exec (console (if t'.inDisktool = true then _ else _))).run t' = _
    rw [hkernel, hcolor]
    rfl
  · simp [MainState.show, houtput, setcolorCalls]

end Turn

end EtyOS
