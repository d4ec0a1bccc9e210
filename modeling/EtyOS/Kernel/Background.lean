import EtyOS.Kernel.Boot
import EtyOS.Kernel.MainTurn

/-!
# The background over a history of commands

A number that `setcolor` rejects stays in the variable of `kernel_main`. So the
background keeps its value after a rejected number, and every background passed
to `print_set_color` lies between 0 and 14, exactly in the histories whose rejected
numbers agree modulo 256 with the background that they meet.
-/

namespace EtyOS

open Library Main

/-! ### What the lines lead to -/

theorem toUInt8_le {v : UInt32} (h : v ≤ 14) : v.toUInt8 ≤ 14 := by
  have hv : v.toNat ≤ 14 := UInt32.le_iff_toNat_le.mp h
  rw [UInt8.le_iff_toNat_le, UInt32.toNat_toUInt8]
  change v.toNat % 256 ≤ 14
  omega

theorem eq_of_mod_eq {a b : UInt8} (ha : a ≤ 14) (hb : b ≤ 14) (h : a % 16 = b % 16) : a = b := by
  have ha' : a.toNat ≤ 14 := UInt8.le_iff_toNat_le.mp ha
  have hb' : b.toNat ≤ 14 := UInt8.le_iff_toNat_le.mp hb
  rw [← UInt8.toNat_inj, UInt8.toNat_mod, UInt8.toNat_mod] at h
  change a.toNat % 16 = b.toNat % 16 at h
  rw [← UInt8.toNat_inj]
  omega

/-- Who reads the next line, and the last background that was accepted. -/
structure Standing where
  inDisktool : Bool
  background : UInt8

/-- `setcolor` with a number that it accepts. -/
def Accepts (inDisktool : Bool) (line : CString) : Prop :=
  SetsColor inDisktool line ∧ requested line ≤ 14

instance (inDisktool : Bool) (line : CString) : Decidable (Accepts inDisktool line) :=
  inferInstanceAs (Decidable (_ ∧ _))

namespace Standing

def next (s : Standing) (line : CString) : Standing where
  inDisktool := nextReader s.inDisktool line
  background := if Accepts s.inDisktool line then (requested line).toUInt8 else s.background

/-- After the lines, from the state after booting. -/
def after (lines : List CString) : Standing := lines.foldl next ⟨false, printColorBlack⟩

theorem after_concat (lines : List CString) (line : CString) :
    after (lines ++ [line]) = (after lines).next line := List.foldl_concat ..

theorem after_le (lines : List CString) : (after lines).background ≤ 14 := by
  induction lines using List.reverseRecOn with
  | nil => decide
  | append_singleton lines line ih =>
    rw [after_concat, next]
    split
    · exact toUInt8_le (‹Accepts _ _›).2
    · exact ih

end Standing

/-- Every rejected number of the history agrees modulo 256 with the background that it
meets. -/
def RejectedAgree (lines : List CString) : Prop :=
  ∀ before line later, lines = before ++ line :: later →
    SetsColor (Standing.after before).inDisktool line → 14 < requested line →
      (requested line).toUInt8 = (Standing.after before).background

theorem RejectedAgree.of_prefix {lines lines' : List CString} (h : RejectedAgree lines')
    (hsub : lines <+: lines') : RejectedAgree lines := by
  obtain ⟨rest, rfl⟩ := hsub
  intro before line later hlines
  exact h before line (later ++ rest) (by rw [hlines, List.append_assoc, List.cons_append])

theorem RejectedAgree.concat {lines : List CString} {line : CString} (h : RejectedAgree lines)
    (hline : SetsColor (Standing.after lines).inDisktool line → 14 < requested line →
      (requested line).toUInt8 = (Standing.after lines).background) :
    RejectedAgree (lines ++ [line]) := by
  intro before line' later hlines
  rcases List.eq_nil_or_concat later with rfl | ⟨later, last, rfl⟩
  · obtain ⟨rfl, hline'⟩ := List.append_inj' hlines rfl
    obtain rfl := (List.cons.inj hline').1
    exact hline
  · rw [List.concat_eq_append, ← List.cons_append, ← List.append_assoc] at hlines
    exact h before line' later (List.append_inj' hlines rfl).1

/-- The variable follows the background in effect. -/
theorem RejectedAgree.colorByte_nextColor {lines : List CString} {line : CString} {color : Int32}
    (h : RejectedAgree (lines ++ [line]))
    (hcolor : colorByte color = (Standing.after lines).background) :
    colorByte (nextColor (Standing.after lines).inDisktool color line) =
      (Standing.after (lines ++ [line])).background := by
  rw [Standing.after_concat, nextColor, Standing.next]
  by_cases hset : SetsColor (Standing.after lines).inDisktool line
  · rw [if_pos hset, colorByte_toInt32]
    by_cases haccepts : Accepts (Standing.after lines).inDisktool line
    · rw [if_pos haccepts]
    · rw [if_neg haccepts]
      exact h lines line [] rfl hset (UInt32.not_le.mp fun hle => haccepts ⟨hset, hle⟩)
  · rw [if_neg hset, if_neg fun haccepts => hset haccepts.1]
    exact hcolor

/-! ### The states of `kernel_main` -/

section Reached

/-- Before `kernel_main`. -/
def MainState.start (m : Machine) : MainState := ⟨m, 0, false, []⟩

variable (frame : MainState → LocalArray) (m : Machine)

/-- After booting and these lines the state is `t`. -/
def Reached (lines : List CString) (t : MainState) : Prop :=
  ∃ t₀, boot.run (.start m) = some ((), t₀) ∧ Run (turn frame) (fun _ _ => True) t₀ lines t

/-- A background that is passed to `print_set_color` lies between 0 and 14. -/
def ScreenCall.InRange : ScreenCall → Prop
  | .call (.setColor _ background) => background ≤ 14
  | _ => True

theorem ScreenCall.Paints.inRange {b : UInt8} {c : ScreenCall} (h : c.Paints b) (hb : b ≤ 14) :
    c.InRange := by
  match c, h with
  | .call (.setColor _ _), ⟨_, rfl⟩ => exact hb
  | .call (.str _), _ | .call .newline, _ | .call (.char _), _ | .call (.int _), _
  | .call (.dec _), _ | .clear, _ => trivial

theorem ScreenCall.Paints.zero_inRange {c : ScreenCall} (h : c.Paints 0) : c.InRange :=
  h.inRange (by decide)

theorem banner_inRange :
    ∀ c ∈ ScreenCall.clear :: banner.map .call, c.InRange := by
  simp [banner, ScreenCall.InRange, printColorCyan, printColorBlack]

/-- From a ready machine, the scan of the disks and the first prompt. -/
theorem firstPrompt_reaches {t : MainState} (ht : t.machine.Ready) :
    Reaches (do
        exec initDisktool
        setColor 0
        exec (console [.setColor printColorWhite (colorByte 0)])
        nextPrompt) t fun _ t' =>
      t.Adds (ScreenCall.Paints (colorByte 0)) 0 t.inDisktool t' ∧ t'.AtPrompt := by
  have hscan := reaches_colorless (colorByte 0)
    (initDisktool_does.handles initDisktool_keepsColors) ht
  refine hscan.after fun t' hready _ hreader => ?_
  refine (reaches_setColor (S := ScreenCall.Paints (colorByte 0)) 0 hready).bind fun _ t'' h => ?_
  have hwhite : Reaches (exec (console [.setColor printColorWhite (colorByte 0)])) t'' fun _ t' =>
      t''.Adds (ScreenCall.Paints (colorByte 0)) t''.color t''.inDisktool t' :=
    reaches_console (by simp [ScreenCall.Paints, PrintCall.Paints, printColorWhite]) h.ready
  rw [h.color, h.inDisktool, hreader] at hwhite
  exact hwhite.prompt.mono fun _ _ h' => ⟨h.trans h'.1, h'.2⟩

/-- The state at the first prompt. -/
theorem boot_reaches : Reaches boot (.start m) fun _ t =>
    t.machine.Ready ∧ t.color = 0 ∧ t.inDisktool = false ∧ t.AtPrompt ∧
      ∀ c ∈ t.output, c.InRange := by
  let t₁ : MainState :=
    { MainState.start m with
      machine := { m with printed := [], memory := memoryAllocatorInit m.poolBase m.memory }
      output := .clear :: banner.map .call }
  have hrun : boot.run (.start m) = (do
      exec initDisktool
      setColor 0
      exec (console [.setColor printColorWhite (colorByte 0)])
      nextPrompt : Main Unit).run t₁ := rfl
  have hready : t₁.machine.Ready := Or.inl (poolFresh_init m.memory)
  obtain ⟨⟨⟩, t, hfirst, ⟨ht, hcolor, hreader, new, houtput, hnew⟩, hprompt⟩ :=
    firstPrompt_reaches hready
  refine ⟨(), t, hrun.trans hfirst, ht, hcolor, hreader, hprompt, ?_⟩
  rw [houtput]
  exact List.forall_mem_append.mpr ⟨banner_inRange, fun c hc => (hnew c hc).zero_inRange⟩

section History

variable {frame m} {lines : List CString} {line : CString} {t t' : MainState}

theorem Reached.concat (h : Reached frame m lines t) (hrun : (turn frame line).run t = some ((), t')) :
    Reached frame m (lines ++ [line]) t' := by
  obtain ⟨t₀, hboot, hlines⟩ := h
  exact ⟨t₀, hboot, hlines.snoc trivial hrun⟩

/-- A property of the lines and the state holds throughout if the first prompt has it and
every turn keeps it. -/
theorem Reached.induct {I : List CString → MainState → Prop}
    (hboot : ∀ t, boot.run (.start m) = some ((), t) → I [] t)
    (hturn : ∀ lines line t t', I lines t → (turn frame line).run t = some ((), t') →
      I (lines ++ [line]) t') (h : Reached frame m lines t) : I lines t := by
  obtain ⟨t₀, hrun, hlines⟩ := h
  induction hlines with
  | nil => exact hboot t₀ hrun
  | snoc _ _ hexec ih => exact hturn _ _ _ _ ih hexec

/-- What holds at every prompt: the pool is ready, the screen has the background of the
variable, and the reader is the one that the lines lead to. -/
structure MainState.Waits (lines : List CString) (t : MainState) : Prop where
  ready : t.machine.Ready
  atPrompt : t.AtPrompt
  inDisktool : t.inDisktool = (Standing.after lines).inDisktool

theorem MainState.Waits.turn (h : t.Waits lines) (hrun : (turn frame line).run t = some ((), t')) :
    t'.Waits (lines ++ [line]) ∧ t.Adds (ScreenCall.Paints (colorByte t'.color))
      (nextColor t.inDisktool t.color line) t'.inDisktool t' := by
  obtain ⟨hadds, hprompt⟩ := (turn_reaches frame line h.ready).result hrun
  refine ⟨⟨hadds.ready, hprompt, ?_⟩, ?_⟩
  · rw [hadds.inDisktool, h.inDisktool, Standing.after_concat]
    rfl
  · rw [hadds.color, hadds.inDisktool]
    exact hadds

theorem Reached.waits (h : Reached frame m lines t) : t.Waits lines := by
  refine h.induct (I := fun lines t => t.Waits lines) (fun t hrun => ?_)
    fun lines line t t' ht hrun => (ht.turn hrun).1
  obtain ⟨hready, -, hreader, hprompt, -⟩ := (boot_reaches m).result hrun
  exact ⟨hready, hprompt, hreader⟩

/-- Every history leads to a prompt. -/
theorem Reached.exists (frame : MainState → LocalArray) (m : Machine) (lines : List CString) :
    ∃ t, Reached frame m lines t := by
  induction lines using List.reverseRecOn with
  | nil =>
    obtain ⟨⟨⟩, t, hrun, -⟩ := boot_reaches m
    exact ⟨t, t, hrun, .nil⟩
  | append_singleton lines line ih =>
    obtain ⟨t, ht⟩ := ih
    obtain ⟨⟨⟩, t', hrun, -⟩ := turn_reaches frame line ht.waits.ready
    exact ⟨t', ht.concat hrun⟩

/-- While the rejected numbers agree, the variable holds the background in effect. -/
theorem Reached.in_effect (h : Reached frame m lines t) (hagree : RejectedAgree lines) :
    colorByte t.color = (Standing.after lines).background ∧ ∀ c ∈ t.output, c.InRange := by
  revert hagree
  refine (h.induct (I := fun lines t => t.Waits lines ∧ (RejectedAgree lines →
    colorByte t.color = (Standing.after lines).background ∧ ∀ c ∈ t.output, c.InRange))
    (fun t hrun => ?_) fun lines line t t' ⟨hwaits, ih⟩ hrun => ?_).2
  · obtain ⟨hready, hcolor, hreader, hprompt, hall⟩ := (boot_reaches m).result hrun
    exact ⟨⟨hready, hprompt, hreader⟩, fun _ => ⟨by rw [hcolor]; rfl, hall⟩⟩
  · obtain ⟨hwaits', hadds⟩ := hwaits.turn hrun
    refine ⟨hwaits', fun hagree => ?_⟩
    obtain ⟨hcolor, hall⟩ := ih (hagree.of_prefix (List.prefix_append _ _))
    have hnext : colorByte t'.color = (Standing.after (lines ++ [line])).background := by
      rw [hadds.color, hwaits.inDisktool]
      exact hagree.colorByte_nextColor hcolor
    refine ⟨hnext, ?_⟩
    obtain ⟨new, houtput, hnew⟩ := hadds.output
    rw [houtput]
    refine List.forall_mem_append.mpr ⟨hall, fun c hc => (hnew c hc).inRange ?_⟩
    rw [hnext]
    exact Standing.after_le _

/-- Until a number is accepted, everything is printed with the background in effect. -/
theorem Reached.run_keeps {later : List CString} (h : Reached frame m lines t)
    (hrun : Run (turn frame) (fun t line => ¬Accepts t.inDisktool line) t later t')
    (hagree : RejectedAgree (lines ++ later)) :
    Reached frame m (lines ++ later) t' ∧
      (Standing.after (lines ++ later)).background = (Standing.after lines).background ∧
      ∃ new, t'.output = t.output ++ new ∧
        ∀ c ∈ new, c.Paints (Standing.after lines).background := by
  induction hrun with
  | nil =>
    rw [List.append_nil]
    exact ⟨h, rfl, [], (List.append_nil _).symm, by simp⟩
  | @snoc later t₁ t₂ line _ _ hnot hexec ih =>
    rw [← List.append_assoc] at hagree ⊢
    obtain ⟨hreached, hbackground, new, houtput, hnew⟩ :=
      ih (hagree.of_prefix (List.prefix_append _ _))
    have hreached' := hreached.concat hexec
    rw [hreached.waits.inDisktool] at hnot
    have hbackground' : (Standing.after (lines ++ later ++ [line])).background =
        (Standing.after lines).background := by
      rw [Standing.after_concat, Standing.next, if_neg hnot, hbackground]
    obtain ⟨-, hadds⟩ := hreached.waits.turn hexec
    obtain ⟨new', houtput', hnew'⟩ := hadds.output
    rw [(hreached'.in_effect hagree).1, hbackground'] at hnew'
    refine ⟨hreached', hbackground', new ++ new', ?_, List.forall_mem_append.mpr ⟨hnew, hnew'⟩⟩
    rw [houtput', houtput, List.append_assoc]

/-- A line that `kernel_main` reads as `setcolor`, from `t`, prints the error on the way
to `t'`. -/
def Rejected (line : CString) (t t' : MainState) : Prop :=
  SetsColor t.inDisktool line ∧
    .call (.str "Invalid color value. Use numbers between 0 and 14.") ∈
      t'.output.drop t.output.length

/-- The error and the prompt after it, which has the rejected number. -/
theorem turn_rejected (hset : SetsColor t.inDisktool line)
    (hrun : (turn frame line).run t = some ((), t')) (h : 14 < requested line) :
    Rejected line t t' ∧
      .call (.setColor printColorWhite (requested line).toUInt8) ∈ t'.output := by
  have houtput := (turn_setcolor frame hset).result hrun
  rw [setcolorCalls, if_neg (UInt32.not_le.mpr h)] at houtput
  rw [Rejected, houtput, List.drop_left]
  simp [rejectedCalls, prompt, colorByte_toInt32, hset]

theorem Rejected.lt (h : Rejected line t t') (hrun : (turn frame line).run t = some ((), t')) :
    14 < requested line := by
  by_contra hle
  have hle := UInt32.not_lt.mp hle
  have houtput := (turn_setcolor frame h.1).result hrun
  have hsays := h.2
  rw [houtput, List.drop_left, setcolorCalls, if_pos hle] at hsays
  simp [acceptedCalls, prompt] at hsays

/-- A rejected `setcolor` changes nothing: until a number is accepted, the background is
the one before it, and every background of the history lies between 0 and 14. -/
structure KeepsBackground (frame : MainState → LocalArray) (m : Machine) (lines : List CString) :
    Prop where
  rejected : ∀ before line later t t₁ t₂, before ++ line :: later <+: lines →
    Reached frame m before t → (turn frame line).run t = some ((), t₁) → Rejected line t t₁ →
    Run (turn frame) (fun t line => ¬Accepts t.inDisktool line) t₁ later t₂ →
    ∀ output, t.output <+: output → output <+: t₂.output →
      background output = background t.output
  inRange : ∀ before t, before <+: lines → Reached frame m before t →
    ∀ c ∈ t.output, c.InRange

theorem KeepsBackground.of_prefix {lines' : List CString} (h : KeepsBackground frame m lines')
    (hlines : lines <+: lines') : KeepsBackground frame m lines where
  rejected before line later t t₁ t₂ hsub :=
    h.rejected before line later t t₁ t₂ (hsub.trans hlines)
  inRange before t hsub := h.inRange before t (hsub.trans hlines)

theorem RejectedAgree.keepsBackground (h : RejectedAgree lines) :
    KeepsBackground frame m lines where
  rejected before line later t t₁ t₂ hsub hreached hexec hrejected hlater output hfrom hto := by
    have hnot : ¬Accepts t.inDisktool line := fun haccepts =>
      UInt32.not_le.mpr (hrejected.lt hexec) haccepts.2
    have hrun := (Run.nil.snoc hnot hexec).append hlater
    have hagree := h.of_prefix hsub
    obtain ⟨-, -, new, houtput, hnew⟩ := hreached.run_keeps hrun hagree
    obtain ⟨shown, rfl⟩ := hfrom
    rw [houtput] at hto
    have hshown := (List.prefix_append_right_inj _).mp hto
    have hprompt : background t.output = (Standing.after before).background % 16 := by
      rw [← (hreached.in_effect (hagree.of_prefix (List.prefix_append _ _))).1]
      exact hreached.waits.atPrompt
    rw [background_append (fun c hc => hnew c (hshown.subset hc)) hprompt, hprompt]
  inRange before t hsub hreached := (hreached.in_effect (h.of_prefix hsub)).2

theorem KeepsBackground.rejectedAgree (h : KeepsBackground frame m lines) :
    RejectedAgree lines := by
  induction lines using List.reverseRecOn with
  | nil =>
    intro before line later hlines
    exact absurd hlines.symm (by simp)
  | append_singleton lines line ih =>
    have hagree := ih (h.of_prefix (List.prefix_append _ _))
    refine hagree.concat fun hset hlt => ?_
    obtain ⟨t, hreached⟩ := Reached.exists frame m lines
    obtain ⟨⟨⟩, t', hexec, -⟩ := turn_reaches frame line hreached.waits.ready
    rw [← hreached.waits.inDisktool] at hset
    obtain ⟨hrejected, hprompt⟩ := turn_rejected hset hexec hlt
    have hreached' := hreached.concat hexec
    -- the screen has kept its background, modulo 16, and the prompt is in range
    have hkept := h.rejected lines line [] t t' t' List.prefix_rfl hreached hexec hrejected
      .nil t'.output (hreached.waits.turn hexec).2.extends_output List.prefix_rfl
    have hcolor : colorByte t'.color = (requested line).toUInt8 := by
      rw [(hreached.waits.turn hexec).2.color, nextColor, if_pos hset, colorByte_toInt32]
    have hrange : (requested line).toUInt8 ≤ 14 :=
      h.inRange (lines ++ [line]) t' List.prefix_rfl hreached' _ hprompt
    have hmod : (requested line).toUInt8 % 16 = (Standing.after lines).background % 16 := by
      rw [← hcolor, ← (hreached.in_effect hagree).1]
      exact hreached'.waits.atPrompt.symm.trans (hkept.trans hreached.waits.atPrompt)
    exact eq_of_mod_eq hrange (Standing.after_le lines) hmod

/-- The history keeps its background exactly if the rejected numbers agree with it. -/
theorem rejected_setcolor_keeps_background_iff (frame : MainState → LocalArray) (m : Machine)
    (lines : List CString) :
    (∃ t, Reached frame m lines t) ∧ (KeepsBackground frame m lines ↔ RejectedAgree lines) :=
  ⟨Reached.exists frame m lines, KeepsBackground.rejectedAgree, RejectedAgree.keepsBackground⟩

/-- The prompt after `setcolor 15` has the background 15. -/
theorem setcolor_15_changes_background :
    ¬KeepsBackground (fun _ _ => 0) (blankMachine primaryMaster)
      [⟨chars "setcolor 15", by decide⟩] := by
  intro h
  have hagree := h.rejectedAgree [] _ [] rfl
  exact absurd (hagree (by decide) (by decide)) (by decide)

end History

end Reached

end EtyOS
