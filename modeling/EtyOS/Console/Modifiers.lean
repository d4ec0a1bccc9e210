import EtyOS.Console.Keyboard
import EtyOS.Library.Latch

/-!
# The modifier keys

`get_char` keeps one flag for the two shift keys and one for Caps Lock, and takes
a character from `shifted_key_map` when either is set. What is held is a matter
of the scan codes alone: `ShiftHeld` and `CapsLockOn` are compared here with the
characters that the calls return.
-/

namespace EtyOS.Keyboard

open Library

/-- `shift_pressed` and `caps_lock_enabled` before the first call. -/
def start : Keyboard := { shiftPressed := false, capsLockEnabled := false }

/-- What the calls of `get_char` return one after the other; the last one goes on
polling. -/
def getChars (polls : List Poll) (k : Keyboard) : List UInt8 :=
  match _h : k.getChar polls with
  | none => []
  | some (c, k', rest) => c :: getChars rest k'
termination_by polls.length
decreasing_by exact getChar_length _h

/-- What the call returns that meets the scan code `key` behind the polls. -/
def nextChar (polls : List Poll) (key : UInt8) : Option UInt8 :=
  (start.getChars (polls ++ [⟨keyboardBufferFull, key⟩])).getLast?

/-- The key has been pressed and not yet released. -/
def Held (pressed released : UInt8) (scanCodes : List UInt8) : Prop :=
  Latched (fun _ c => c = pressed) (fun c => c = released) scanCodes

/-- At least one of the two shift keys is held. -/
def ShiftHeld (scanCodes : List UInt8) : Prop :=
  Held leftShiftPressed leftShiftReleased scanCodes ∨
    Held rightShiftPressed rightShiftReleased scanCodes

/-- Caps Lock has been pressed an odd number of times. -/
def CapsLockOn (scanCodes : List UInt8) : Prop := Odd (scanCodes.count capsLockPressed)

instance (scanCodes : List UInt8) : Decidable (CapsLockOn scanCodes) :=
  inferInstanceAs (Decidable (Odd _))

/-- The last scan code of a shift key is the release of one of them while the
other was held. -/
def ReleasedUnder (scanCodes : List UInt8) : Prop :=
  ResetUnder (fun c => c = leftShiftPressed) (fun c => c = leftShiftReleased)
    (fun c => c = rightShiftPressed) (fun c => c = rightShiftReleased) scanCodes

/-- Only one of the two shift keys is used. -/
def OneShiftKey (scanCodes : List UInt8) : Prop :=
  (∀ c ∈ scanCodes, c ≠ rightShiftPressed ∧ c ≠ rightShiftReleased) ∨
    ∀ c ∈ scanCodes, c ≠ leftShiftPressed ∧ c ≠ leftShiftReleased

/-- The character of `key` is looked up in `shifted_key_map` if `shift`, else in `key_map`. -/
def Translates (shift : Prop) (key : UInt8) (c : Option UInt8) : Prop :=
  (shift → c = some (entry shiftedKeyMap key)) ∧ (¬shift → c = some (entry keyMap key))

/-- The key has a lower-case letter in `key_map`. -/
def IsLetter (key : UInt8) : Prop := 0x61 ≤ entry keyMap key ∧ entry keyMap key ≤ 0x7A

def IsUpper (c : UInt8) : Prop := 0x41 ≤ c ∧ c ≤ 0x5A

instance (key : UInt8) : Decidable (IsLetter key) := inferInstanceAs (Decidable (_ ∧ _))

instance (c : UInt8) : Decidable (IsUpper c) := inferInstanceAs (Decidable (_ ∧ _))

/-- Caps Lock acts on the letters and leaves the other keys alone. -/
structure CapsLockOnLetters (polls : List Poll) (key : UInt8) : Prop where
  letter : IsLetter key → ∃ c, nextChar polls key = some c ∧
    (IsUpper c ↔ Xor (ShiftHeld (scanCodes polls)) (CapsLockOn (scanCodes polls)))
  other : ¬IsLetter key → Translates (ShiftHeld (scanCodes polls)) key (nextChar polls key)

section State

/-- The modifiers after the scan codes. -/
def after (scanCodes : List UInt8) : Keyboard := scanCodes.foldl (fun k c => k.modify c) start

theorem after_concat (scanCodes : List UInt8) (c : UInt8) :
    after (scanCodes ++ [c]) = (after scanCodes).modify c := by
  rw [after, List.foldl_append]
  rfl

/-- A scan code sets the shift flag, or it leaves it set. -/
theorem modify_shiftPressed_iff (k : Keyboard) (c : UInt8) :
    (k.modify c).shiftPressed = true ↔ (c = leftShiftPressed ∨ c = rightShiftPressed) ∨
      k.shiftPressed = true ∧ ¬(c = leftShiftReleased ∨ c = rightShiftReleased) := by
  unfold modify
  simp only [List.mem_cons, List.not_mem_nil, or_false]
  split
  · simp_all
  · split
    · simp_all
    · split <;> simp_all

theorem modify_capsLockEnabled (k : Keyboard) (c : UInt8) :
    (k.modify c).capsLockEnabled =
      if c = capsLockPressed then !k.capsLockEnabled else k.capsLockEnabled := by
  unfold modify
  simp only [List.mem_cons, List.not_mem_nil, or_false]
  split
  · rename_i h
    rw [if_neg (by rcases h with rfl | rfl <;> decide)]
  · split
    · rename_i h
      rw [if_neg (by rcases h with rfl | rfl <;> decide)]
    · split <;> rfl

/-- The flag is worked by both shift keys. -/
theorem after_shiftPressed_iff (scanCodes : List UInt8) : (after scanCodes).shiftPressed = true ↔
    LatchedEither (fun c => c = leftShiftPressed) (fun c => c = leftShiftReleased)
      (fun c => c = rightShiftPressed) (fun c => c = rightShiftReleased) scanCodes := by
  induction scanCodes using List.reverseRecOn with
  | nil =>
    unfold LatchedEither
    simp [after, start, not_latched_nil]
  | append_singleton scanCodes c ih =>
    unfold LatchedEither at ih ⊢
    rw [after_concat, modify_shiftPressed_iff, latched_concat, ih]

theorem after_capsLockEnabled_iff (scanCodes : List UInt8) :
    (after scanCodes).capsLockEnabled = true ↔ CapsLockOn scanCodes := by
  induction scanCodes using List.reverseRecOn with
  | nil => simp [after, start, CapsLockOn]
  | append_singleton scanCodes c ih =>
    unfold CapsLockOn at ih ⊢
    rw [after_concat, modify_capsLockEnabled, List.count_append]
    by_cases hc : c = capsLockPressed
    · rw [if_pos hc, hc, List.count_singleton_self, Nat.odd_add_one, ← ih]
      simp
    · rw [if_neg hc, List.count_singleton, if_neg (by simpa using hc)]
      exact ih

/-- The flag stands for the two keys as long as none is released under the other. -/
theorem shiftPressed_iff_held (scanCodes : List UInt8) :
    ((after scanCodes).shiftPressed = true ↔ ShiftHeld scanCodes) ↔ ¬ReleasedUnder scanCodes := by
  rw [after_shiftPressed_iff]
  apply latchedEither_iff_or
  · rintro c ⟨rfl | rfl, h | h⟩ <;> exact absurd h (by decide)
  · rintro c ⟨rfl, h⟩
    exact absurd h (by decide)

theorem OneShiftKey.not_releasedUnder {scanCodes : List UInt8} (h : OneShiftKey scanCodes) :
    ¬ReleasedUnder scanCodes := by
  rcases h with h | h
  · exact not_resetUnder_of_forall h
  · intro hunder
    refine not_resetUnder_of_forall (S := fun c => c = rightShiftPressed)
      (R := fun c => c = rightShiftReleased) h ?_
    obtain ⟨front, c, back, rfl, hreset, hback⟩ := hunder
    exact ⟨front, c, back, rfl, hreset.symm, fun b hb hworks => hback b hb (by tauto)⟩

end State

section Calls

theorem getChars_eq (polls : List Poll) (k : Keyboard) :
    k.getChars polls = keysPressed (scanCodes polls) k := by
  fun_induction getChars polls k with
  | case1 polls k hnone => rw [getChar_keysPressed, hnone]
  | case2 polls k c k' rest hsome ih => rw [getChar_keysPressed, hsome, ih]

theorem keysPressed_concat (scanCodes : List UInt8) {key : UInt8} (hkey : IsPress key)
    (k : Keyboard) : keysPressed (scanCodes ++ [key]) k =
      keysPressed scanCodes k ++ [(scanCodes.foldl (fun k c => k.modify c) k).keyChar key] := by
  induction scanCodes generalizing k with
  | nil =>
    rw [List.foldl_nil, keyChar_eq]
    exact if_pos hkey
  | cons c scanCodes ih =>
    rw [List.cons_append, keysPressed, keysPressed, List.foldl_cons, ih, ih]
    by_cases hc : IsPress c
    · have hmodify : k.modify c = k := by
        obtain ⟨hlow, hother⟩ := hc
        have hrelease : c ∉ [leftShiftReleased, rightShiftReleased] := by
          intro h
          simp only [List.mem_cons, List.not_mem_nil, or_false] at h
          rcases h with rfl | rfl <;> exact absurd hlow (by decide)
        simp only [List.mem_cons, List.not_mem_nil, or_false, not_or] at hother hrelease
        simp [modify, hother, hrelease]
      rw [if_pos hc, if_pos hc, hmodify]
      rfl
    · rw [if_neg hc, if_neg hc]

/-- The key is translated with the modifiers that the polls before it leave. -/
theorem nextChar_eq (polls : List Poll) {key : UInt8} (hkey : IsPress key) :
    nextChar polls key = some ((after (scanCodes polls)).keyChar key) := by
  have hcodes : scanCodes (polls ++ [⟨keyboardBufferFull, key⟩]) = scanCodes polls ++ [key] := by
    have hkeyPoll : scanCodes [⟨keyboardBufferFull, key⟩] = [key] := by
      rw [scanCodes_cons, if_pos (show keyboardBufferFull &&& keyboardBufferFull ≠ 0 by decide)]
      rfl
    rw [← hkeyPoll, scanCodes, List.filter_append, List.map_append]
    rfl
  rw [nextChar, getChars_eq, hcodes, keysPressed_concat _ hkey, List.getLast?_concat]
  rfl

end Calls

section Translation

theorem Translates.congr {shift shift' : Prop} (h : shift ↔ shift') {key : UInt8}
    {c : Option UInt8} : Translates shift key c ↔ Translates shift' key c := by
  unfold Translates
  rw [h]

theorem keyChar_translates (k : Keyboard) (key : UInt8) :
    Translates (k.shiftPressed = true ∨ k.capsLockEnabled = true) key (some (k.keyChar key)) := by
  rw [keyChar_eq]
  constructor
  · intro hshift
    rw [if_pos hshift]
  · intro hshift
    rw [if_neg hshift]

/-- A key whose two entries differ shows which table it was looked up in. -/
theorem Translates.unique {shift shift' : Prop} {key : UInt8} {c : Option UInt8}
    (hne : entry keyMap key ≠ entry shiftedKeyMap key) (h : Translates shift key c)
    (h' : Translates shift' key c) : shift ↔ shift' := by
  constructor
  · intro hshift
    by_contra hshift'
    exact hne (Option.some.inj ((h'.2 hshift').symm.trans (h.1 hshift)))
  · intro hshift'
    by_contra hshift
    exact hne (Option.some.inj ((h.2 hshift).symm.trans (h'.1 hshift')))

/-- For every sequence of scan codes: with Caps Lock off the next key is translated
as the keys held say, exactly when the last scan code of a shift key is not the
release of one of them while the other was held. -/
theorem shift_follows_keys_iff (polls : List Poll) :
    (¬CapsLockOn (scanCodes polls) → ∀ key, IsPress key →
      Translates (ShiftHeld (scanCodes polls)) key (nextChar polls key)) ↔
    CapsLockOn (scanCodes polls) ∨ ¬ReleasedUnder (scanCodes polls) := by
  have hcaps := after_capsLockEnabled_iff (scanCodes polls)
  rw [← shiftPressed_iff_held, or_iff_not_imp_left]
  apply imp_congr_right
  intro hoff
  have hflag : (after (scanCodes polls)).shiftPressed = true ∨
      (after (scanCodes polls)).capsLockEnabled = true ↔
        (after (scanCodes polls)).shiftPressed = true := by
    rw [hcaps]
    exact or_iff_left hoff
  have hchar : ∀ key, IsPress key → Translates ((after (scanCodes polls)).shiftPressed = true) key
      (nextChar polls key) := by
    intro key hkey
    rw [nextChar_eq polls hkey, ← Translates.congr hflag]
    exact keyChar_translates _ key
  constructor
  · intro h
    -- the key "a" shows the flag
    exact (hchar 0x1E (by decide)).unique (by decide) (h 0x1E (by decide))
  · intro h key hkey
    exact (Translates.congr h).mp (hchar key hkey)

/-- Both shift keys are pressed and the left one is released: the "a" that follows
is small, though the right one is held. -/
theorem shift_forgets_held_key :
    let polls : List Poll := [⟨0x1D, 0x2A⟩, ⟨0x1D, 0x36⟩, ⟨0x1D, 0xAA⟩]
    ¬CapsLockOn (scanCodes polls) ∧ ShiftHeld (scanCodes polls) ∧ nextChar polls 0x1E = some 0x61 ∧
      ¬Translates (ShiftHeld (scanCodes polls)) 0x1E (nextChar polls 0x1E) := by
  intro polls
  have hcodes : scanCodes polls = [0x2A, 0x36, 0xAA] := by decide
  have hheld : ShiftHeld (scanCodes polls) := by
    rw [hcodes]
    exact Or.inr ⟨[0x2A], 0x36, [0xAA], rfl, rfl, by simp [rightShiftReleased]⟩
  have hchar : nextChar polls 0x1E = some 0x61 := by
    rw [nextChar_eq polls (by decide), hcodes]
    decide
  refine ⟨by rw [hcodes]; decide, hheld, hchar, ?_⟩
  intro h
  have hupper := h.1 hheld
  rw [hchar] at hupper
  exact absurd hupper (by decide)

end Translation

section Letters

/-- The letters are those keys whose two entries differ in case. -/
theorem letter_entries {key : UInt8} (h : IsLetter key) :
    IsUpper (entry shiftedKeyMap key) ∧ ¬IsUpper (entry keyMap key) := by
  have htable : ∀ i : Fin 58, 0x61 ≤ ((keyMap[i.val]?).getD '\x00').toUInt8 →
      ((keyMap[i.val]?).getD '\x00').toUInt8 ≤ 0x7A →
      IsUpper ((shiftedKeyMap[i.val]?).getD '\x00').toUInt8 := by
    decide
  obtain ⟨hlow, hhigh⟩ := h
  have hlt : key.toNat < 58 := by
    by_contra hge
    have hlength : keyMap.length = 58 := rfl
    have hnone : keyMap[key.toNat]? = none := List.getElem?_eq_none (by omega)
    rw [entry, hnone] at hlow
    exact absurd hlow (by decide)
  refine ⟨htable ⟨key.toNat, hlt⟩ hlow hhigh, ?_⟩
  rintro ⟨-, hupper⟩
  exact absurd (UInt8.le_trans hlow hupper) (by decide)

section Key

variable {polls : List Poll} {key : UInt8}

/-- With one shift key the tables are chosen by what is held and by Caps Lock. -/
theorem nextChar_translates (hkey : IsPress key) (hone : OneShiftKey (scanCodes polls)) :
    Translates (ShiftHeld (scanCodes polls) ∨ CapsLockOn (scanCodes polls)) key
      (nextChar polls key) := by
  have hflag := (shiftPressed_iff_held _).mpr hone.not_releasedUnder
  rw [← Translates.congr (or_congr hflag (after_capsLockEnabled_iff _)), nextChar_eq polls hkey]
  exact keyChar_translates (after (scanCodes polls)) key

theorem capsLockOnLetters_of_letter (hkey : IsPress key)
    (hchar : Translates (ShiftHeld (scanCodes polls) ∨ CapsLockOn (scanCodes polls)) key
      (nextChar polls key)) (hletter : IsLetter key) :
    CapsLockOnLetters polls key ↔
      ¬CapsLockOn (scanCodes polls) ∨ ¬ShiftHeld (scanCodes polls) := by
  obtain ⟨hupper, hlower⟩ := letter_entries hletter
  have hcase : ∀ c, nextChar polls key = some c →
      (IsUpper c ↔ ShiftHeld (scanCodes polls) ∨ CapsLockOn (scanCodes polls)) := by
    intro c hc
    rw [hc] at hchar
    by_cases hshift : ShiftHeld (scanCodes polls) ∨ CapsLockOn (scanCodes polls)
    · rw [Option.some.inj (hchar.1 hshift)]
      exact iff_of_true hupper hshift
    · rw [Option.some.inj (hchar.2 hshift)]
      exact iff_of_false hlower hshift
  have hletters : CapsLockOnLetters polls key ↔
      (ShiftHeld (scanCodes polls) ∨ CapsLockOn (scanCodes polls) ↔
        Xor (ShiftHeld (scanCodes polls)) (CapsLockOn (scanCodes polls))) := by
    constructor
    · intro h
      obtain ⟨c, hc, hiff⟩ := h.letter hletter
      rw [← hcase c hc, hiff]
    · intro h
      refine ⟨fun _ => ⟨_, nextChar_eq polls hkey, ?_⟩, absurd hletter⟩
      rw [hcase _ (nextChar_eq polls hkey), h]
  rw [hletters]
  by_cases hshift : ShiftHeld (scanCodes polls) <;>
    by_cases hoff : CapsLockOn (scanCodes polls) <;> simp [Xor, hshift, hoff]

theorem capsLockOnLetters_of_other
    (hchar : Translates (ShiftHeld (scanCodes polls) ∨ CapsLockOn (scanCodes polls)) key
      (nextChar polls key)) (hother : ¬IsLetter key) :
    CapsLockOnLetters polls key ↔ ¬CapsLockOn (scanCodes polls) ∨
      ShiftHeld (scanCodes polls) ∨ entry keyMap key = entry shiftedKeyMap key := by
  have htranslates : CapsLockOnLetters polls key ↔
      Translates (ShiftHeld (scanCodes polls)) key (nextChar polls key) :=
    ⟨fun h => h.other hother, fun h => ⟨fun hl => absurd hl hother, fun _ => h⟩⟩
  rw [htranslates]
  by_cases hsame : entry keyMap key = entry shiftedKeyMap key
  · have hboth : nextChar polls key = some (entry shiftedKeyMap key) := by
      by_cases hshift : ShiftHeld (scanCodes polls) ∨ CapsLockOn (scanCodes polls)
      · exact hchar.1 hshift
      · rw [hchar.2 hshift, hsame]
    refine iff_of_true ⟨fun _ => hboth, fun _ => ?_⟩ (Or.inr (Or.inr hsame))
    rw [hboth, hsame]
  · constructor
    · intro h
      have hshift := hchar.unique hsame h
      by_cases hoff : CapsLockOn (scanCodes polls)
      · exact Or.inr (Or.inl (hshift.mp (Or.inr hoff)))
      · exact Or.inl hoff
    · intro h
      have hshift : ShiftHeld (scanCodes polls) ∨ CapsLockOn (scanCodes polls) ↔
          ShiftHeld (scanCodes polls) := by
        rcases h with hoff | hshift | heq
        · exact or_iff_left hoff
        · exact or_iff_left_of_imp fun _ => hshift
        · exact absurd heq hsame
      exact (Translates.congr hshift).mp hchar

end Key

/-- For every sequence of scan codes with one shift key at most: Caps Lock acts on
the letters and leaves the other keys alone, exactly when it is off, or a letter
is pressed without Shift, or another key with Shift or with equal entries. -/
theorem caps_lock_letters_iff (polls : List Poll) {key : UInt8} (hkey : IsPress key)
    (hone : OneShiftKey (scanCodes polls)) : CapsLockOnLetters polls key ↔
      ¬CapsLockOn (scanCodes polls) ∨
      (IsLetter key ∧ ¬ShiftHeld (scanCodes polls)) ∨
      (¬IsLetter key ∧
        (ShiftHeld (scanCodes polls) ∨ entry keyMap key = entry shiftedKeyMap key)) := by
  have hchar := nextChar_translates hkey hone
  by_cases hletter : IsLetter key
  · rw [capsLockOnLetters_of_letter hkey hchar hletter]
    simp [hletter]
  · rw [capsLockOnLetters_of_other hchar hletter]
    simp [hletter]

/-- A press of Caps Lock and its release. -/
theorem capsLock_oneShiftKey : OneShiftKey (scanCodes [⟨0x1D, 0x3A⟩, ⟨0x1D, 0xBA⟩]) := by
  have hcodes : scanCodes [⟨0x1D, 0x3A⟩, ⟨0x1D, 0xBA⟩] = [0x3A, 0xBA] := by decide
  rw [hcodes]
  exact Or.inl (by simp [rightShiftPressed, rightShiftReleased])

/-- The "a" after a press of Caps Lock. -/
theorem caps_lock_letters_iff_a :
    let polls : List Poll := [⟨0x1D, 0x3A⟩, ⟨0x1D, 0xBA⟩]
    CapsLockOnLetters polls 0x1E ↔ ¬CapsLockOn (scanCodes polls) ∨
      (IsLetter 0x1E ∧ ¬ShiftHeld (scanCodes polls)) ∨
      (¬IsLetter 0x1E ∧
        (ShiftHeld (scanCodes polls) ∨ entry keyMap 0x1E = entry shiftedKeyMap 0x1E)) :=
  caps_lock_letters_iff [⟨0x1D, 0x3A⟩, ⟨0x1D, 0xBA⟩] (by decide) capsLock_oneShiftKey

/-- After a press of Caps Lock the key "1" gives an exclamation mark. -/
theorem caps_lock_shifts_digit :
    let polls : List Poll := [⟨0x1D, 0x3A⟩, ⟨0x1D, 0xBA⟩]
    OneShiftKey (scanCodes polls) ∧ nextChar polls 0x02 = some 0x21 ∧
      ¬CapsLockOnLetters polls 0x02 := by
  intro polls
  have hcodes : scanCodes polls = [0x3A, 0xBA] := by decide
  have hchar : nextChar polls 0x02 = some 0x21 := by
    rw [nextChar_eq polls (by decide), hcodes]
    decide
  have hreleased : ¬ShiftHeld (scanCodes polls) := by
    rw [hcodes]
    rintro (h | h)
    · exact not_latched_of_forall (fun _ => by simp [leftShiftPressed]) h
    · exact not_latched_of_forall (fun _ => by simp [rightShiftPressed]) h
  refine ⟨capsLock_oneShiftKey, hchar, ?_⟩
  intro h
  have hplain := (h.other (by decide)).2 hreleased
  rw [hchar] at hplain
  exact absurd hplain (by decide)

end Letters

end EtyOS.Keyboard
