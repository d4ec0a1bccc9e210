import EtyOS.Console.InputLines

/-!
# The keyboard of `print.c`

`get_char` polls the keyboard controller until there is the scan code of a key
press, and looks the key up in one of two tables. `read_input` calls it for each
character; its loop here is the one of `LineEditor` on the characters of the
keys pressed. A table has 0 for a key without character, and `get_char` returns
that like any other entry.
-/

namespace EtyOS

open Library

/-- What a turn of the loop of `get_char` finds in the ports 0x64 and 0x60. -/
structure Poll where
  status : UInt8
  data : UInt8

def keyboardBufferFull : UInt8 := 0x01
def leftShiftPressed : UInt8 := 0x2A
def rightShiftPressed : UInt8 := 0x36
def leftShiftReleased : UInt8 := 0xAA
def rightShiftReleased : UInt8 := 0xB6
def capsLockPressed : UInt8 := 0x3A

/-- `key_map[128]`; the entries behind the last one are 0. -/
def keyMap : List Char :=
  ['\x00', '\x1b', '1', '2', '3', '4', '5', '6', '7', '8', '9', '0', '-', '=', '\x08',
    '\t', 'q', 'w', 'e', 'r', 't', 'y', 'u', 'i', 'o', 'p', '[', ']', '\n',
    '\x00', 'a', 's', 'd', 'f', 'g', 'h', 'j', 'k', 'l', ';', '\x27', '\x60',
    '\x00', '\x5c', 'z', 'x', 'c', 'v', 'b', 'n', 'm', ',', '.', '/', '\x00',
    '*', '\x00', ' ']

/-- `shifted_key_map[128]`. -/
def shiftedKeyMap : List Char :=
  ['\x00', '\x1b', '!', '@', '#', '$', '%', '^', '&', '*', '(', ')', '_', '+', '\x08',
    '\t', 'Q', 'W', 'E', 'R', 'T', 'Y', 'U', 'I', 'O', 'P', '\x7b', '\x7d', '\n',
    '\x00', 'A', 'S', 'D', 'F', 'G', 'H', 'J', 'K', 'L', ':', '\x22', '~',
    '\x00', '|', 'Z', 'X', 'C', 'V', 'B', 'N', 'M', '<', '>', '?', '\x00',
    '*', '\x00', ' ']

/-- An entry of one of the tables. -/
def entry (map : List Char) (scanCode : UInt8) : UInt8 :=
  ((map[scanCode.toNat]?).getD '\x00').toUInt8

/-- `shift_pressed` and `caps_lock_enabled`. -/
structure Keyboard where
  shiftPressed : Bool
  capsLockEnabled : Bool

namespace Keyboard

/-- The character of a scan code below 128. -/
def keyChar (scanCode : UInt8) (k : Keyboard) : UInt8 :=
  if k.shiftPressed ∨ k.capsLockEnabled then
    if 0x61 ≤ scanCode ∧ scanCode ≤ 0x7A ∧ k.capsLockEnabled ∧ ¬k.shiftPressed then
      entry shiftedKeyMap scanCode
    else entry shiftedKeyMap scanCode
  else entry keyMap scanCode

/-- `get_char`: the character, and the polls of the calls to come; `none` when
it goes on polling. -/
def getChar : List Poll → Keyboard → Option (UInt8 × Keyboard × List Poll)
  | [], _ => none
  | poll :: polls, k =>
    if poll.status &&& keyboardBufferFull ≠ 0 then
      let scanCode := poll.data
      if scanCode = leftShiftPressed ∨ scanCode = rightShiftPressed then
        getChar polls { k with shiftPressed := true }
      else if scanCode = leftShiftReleased ∨ scanCode = rightShiftReleased then
        getChar polls { k with shiftPressed := false }
      else if scanCode = capsLockPressed then
        getChar polls { k with capsLockEnabled := !k.capsLockEnabled }
      else if scanCode < 128 then some (k.keyChar scanCode, k, polls)
      else getChar polls k
    else getChar polls k

theorem getChar_length {polls rest : List Poll} {k k' : Keyboard} {c : UInt8}
    (h : k.getChar polls = some (c, k', rest)) : rest.length < polls.length := by
  induction polls generalizing k with
  | nil => cases h
  | cons poll polls ih =>
    have hnext : ∀ k₀ : Keyboard, getChar polls k₀ = some (c, k', rest) →
        rest.length < (poll :: polls).length := by
      intro k₀ h₀
      exact (ih h₀).trans (Nat.lt_succ_self _)
    unfold getChar at h
    split at h
    · dsimp only at h
      split at h
      · exact hnext _ h
      · split at h
        · exact hnext _ h
        · split at h
          · exact hnext _ h
          · split at h
            · cases h
              exact Nat.lt_succ_self _
            · exact hnext _ h
    · exact hnext _ h

/-- The loop of `read_input` with its calls of `get_char`. -/
def inputLoop (bufferSize : ℕ) (polls : List Poll) (k : Keyboard) (e : LineEditor) :
    Option (LineEditor × Keyboard × List Poll) :=
  if e.i < bufferSize - 1 then
    match _h : k.getChar polls with
    | none => none
    | some (c, k', rest) =>
      if isEnter c then some (e, k', rest) else inputLoop bufferSize rest k' (e.key c)
  else some (e, k, polls)
termination_by polls.length
decreasing_by exact getChar_length _h

/-- `read_input` at the keyboard, with a positive `buffer_size`. -/
def readInput (bufferSize : ℕ) (console : Console) (buffer : Memory) (polls : List Poll)
    (k : Keyboard) : Option (Console × Memory × Keyboard × List Poll) :=
  (k.inputLoop bufferSize polls (LineEditor.start bufferSize console buffer)).map fun r =>
    (r.1.console, Function.update r.1.buffer r.1.i 0, r.2)

section Presses

/-- The scan codes in the polls. -/
def scanCodes (polls : List Poll) : List UInt8 :=
  (polls.filter fun poll => poll.status &&& keyboardBufferFull ≠ 0).map Poll.data

/-- What a scan code does to the modifiers. -/
def modify (scanCode : UInt8) (k : Keyboard) : Keyboard :=
  if scanCode ∈ [leftShiftPressed, rightShiftPressed] then { k with shiftPressed := true }
  else if scanCode ∈ [leftShiftReleased, rightShiftReleased] then { k with shiftPressed := false }
  else if scanCode = capsLockPressed then { k with capsLockEnabled := !k.capsLockEnabled }
  else k

/-- The scan code of a press of a key other than Shift and Caps Lock. -/
def IsPress (scanCode : UInt8) : Prop :=
  scanCode < 128 ∧ scanCode ∉ [leftShiftPressed, rightShiftPressed, capsLockPressed]

instance (scanCode : UInt8) : Decidable (IsPress scanCode) := inferInstanceAs (Decidable (_ ∧ _))

/-- The table entries of the keys pressed. -/
def keysPressed : List UInt8 → Keyboard → List UInt8
  | [], _ => []
  | scanCode :: scanCodes, k =>
    if IsPress scanCode then
      entry (if k.shiftPressed ∨ k.capsLockEnabled then shiftedKeyMap else keyMap) scanCode ::
        keysPressed scanCodes k
    else keysPressed scanCodes (k.modify scanCode)

/-- Caps Lock acts as Shift does on every key, not on the letters alone. -/
theorem keyChar_eq (scanCode : UInt8) (k : Keyboard) : k.keyChar scanCode =
    entry (if k.shiftPressed ∨ k.capsLockEnabled then shiftedKeyMap else keyMap) scanCode := by
  unfold keyChar
  split
  · split <;> rfl
  · rfl

theorem scanCodes_cons (poll : Poll) (polls : List Poll) : scanCodes (poll :: polls) =
    if poll.status &&& keyboardBufferFull ≠ 0 then poll.data :: scanCodes polls
    else scanCodes polls := by
  unfold scanCodes
  rw [List.filter_cons]
  split
  · rename_i hfull
    rw [if_pos (of_decide_eq_true hfull), List.map_cons]
  · rename_i hfull
    rw [if_neg (fun h => hfull (decide_eq_true h))]

variable {scanCode : UInt8} (k : Keyboard)

theorem keysPressed_modify (h : ¬IsPress scanCode) (scanCodes : List UInt8) :
    keysPressed (scanCode :: scanCodes) k = keysPressed scanCodes (k.modify scanCode) :=
  if_neg h

theorem modify_shiftPressed (h : scanCode = leftShiftPressed ∨ scanCode = rightShiftPressed) :
    ¬IsPress scanCode ∧ k.modify scanCode = { k with shiftPressed := true } := by
  rcases h with rfl | rfl
  · exact ⟨by decide, rfl⟩
  · exact ⟨by decide, rfl⟩

theorem modify_shiftReleased (h : scanCode = leftShiftReleased ∨ scanCode = rightShiftReleased) :
    ¬IsPress scanCode ∧ k.modify scanCode = { k with shiftPressed := false } := by
  rcases h with rfl | rfl
  · exact ⟨by decide, rfl⟩
  · exact ⟨by decide, rfl⟩

theorem modify_capsLock (h : scanCode = capsLockPressed) :
    ¬IsPress scanCode ∧ k.modify scanCode = { k with capsLockEnabled := !k.capsLockEnabled } := by
  subst h
  exact ⟨by decide, rfl⟩

/-- `get_char` gives out the keys pressed one after the other. The cases are
those of its body. -/
theorem getChar_keysPressed (polls : List Poll) (k : Keyboard) :
    keysPressed (scanCodes polls) k =
      match k.getChar polls with
      | none => []
      | some (c, k', rest) => c :: keysPressed (scanCodes rest) k' := by
  induction polls generalizing k with
  | nil => rfl
  | cons poll polls ih =>
    rw [scanCodes_cons, getChar]
    by_cases hfull : poll.status &&& keyboardBufferFull ≠ 0
    · simp only [if_pos hfull]
      by_cases hshift : poll.data = leftShiftPressed ∨ poll.data = rightShiftPressed
      · obtain ⟨hpress, hmodify⟩ := modify_shiftPressed k hshift
        rw [if_pos hshift, keysPressed_modify k hpress, hmodify, ih]
      by_cases hrelease : poll.data = leftShiftReleased ∨ poll.data = rightShiftReleased
      · obtain ⟨hpress, hmodify⟩ := modify_shiftReleased k hrelease
        rw [if_neg hshift, if_pos hrelease, keysPressed_modify k hpress, hmodify, ih]
      by_cases hcaps : poll.data = capsLockPressed
      · obtain ⟨hpress, hmodify⟩ := modify_capsLock k hcaps
        rw [if_neg hshift, if_neg hrelease, if_pos hcaps, keysPressed_modify k hpress, hmodify, ih]
      rw [if_neg hshift, if_neg hrelease, if_neg hcaps]
      by_cases hlow : poll.data < 128
      · have hpress : IsPress poll.data := by
          simp only [IsPress, List.mem_cons, List.not_mem_nil, or_false, not_or]
          exact ⟨hlow, fun h => hshift (.inl h), fun h => hshift (.inr h), hcaps⟩
        rw [if_pos hlow, keysPressed, if_pos hpress, keyChar_eq]
      · -- a break code changes nothing
        have hmodify : k.modify poll.data = k := by
          unfold modify
          simp only [List.mem_cons, List.not_mem_nil, or_false]
          rw [if_neg hshift, if_neg hrelease, if_neg hcaps]
        rw [if_neg hlow, keysPressed_modify k fun h => hlow h.1, hmodify, ih]
    · rw [if_neg hfull, if_neg hfull, ih]

end Presses

section ReadInput

/-- The loop at the keyboard is the one on the characters of the keys pressed. -/
theorem inputLoop_eq (bufferSize : ℕ) (polls : List Poll) (k : Keyboard) (e : LineEditor) :
    (k.inputLoop bufferSize polls e).map (fun r => (r.1, keysPressed (scanCodes r.2.2) r.2.1)) =
      e.loop bufferSize (keysPressed (scanCodes polls) k) := by
  fun_induction inputLoop bufferSize polls k e with
  | case1 polls k e hroom hnone =>
    rw [getChar_keysPressed, hnone]
    exact (if_pos hroom).symm
  | case2 polls k e hroom c k' rest hsome henter =>
    rw [getChar_keysPressed, hsome]
    simp only [LineEditor.loop, if_pos hroom, if_pos henter]
    rfl
  | case3 polls k e hroom c k' rest hsome henter ih =>
    rw [ih, getChar_keysPressed polls, hsome]
    simp only [LineEditor.loop, if_pos hroom, if_neg henter]
  | case4 polls k e hfull =>
    rw [Option.map_some]
    dsimp only
    cases keysPressed (scanCodes polls) k with
    | nil => exact (if_neg hfull).symm
    | cons c keys => exact (if_neg hfull).symm

theorem readInput_eq (bufferSize : ℕ) (console : Console) (buffer : Memory) (polls : List Poll)
    (k : Keyboard) :
    (k.readInput bufferSize console buffer polls).map
        (fun r => (r.1, r.2.1, keysPressed (scanCodes r.2.2.2) r.2.2.1)) =
      EtyOS.readInput bufferSize console buffer (keysPressed (scanCodes polls) k) := by
  rw [EtyOS.readInput, ← inputLoop_eq, readInput, Option.map_map, Option.map_map]
  rfl

end ReadInput

end Keyboard

end EtyOS
