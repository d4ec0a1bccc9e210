import EtyOS.Console.MemoryBlock

/-!
# The text screen of `print.c`

The screen is a block of memory at 0xb8000 with two bytes for each character.
`row`, `col` and `color` are the variables of the file. The functions may keep
a record of the cells that they write or move, which they never look at. The
characters that `memory_copy` puts into the block are local variables, so their
bytes do not come from the block; `setChar_eq_memoryCopy` says where they may
come from.
-/

namespace EtyOS

open Library MemoryBlock

def numCols : ℕ := 80
def numRows : ℕ := 25

/-- `struct Char`. -/
structure ScreenChar where
  character : UInt8
  color : UInt8
  deriving DecidableEq

def sizeofChar : ℕ := 2

/-- `buffer`, the address of the video memory. -/
def videoBuffer : ℕ := 0xb8000

/-- What is kept of the cells of `buffer` that are written or moved. -/
class CellRecord (ρ : Type) where
  note : List ℕ → ρ → ρ

/-- Nothing is kept. -/
instance : CellRecord Unit where
  note _ _ := ()

/-- All of them are kept, oldest first. -/
instance : CellRecord (List ℕ) where
  note new cells := cells ++ new

/-- The video memory and the variables of `print.c`, with a record of cells. -/
structure Console (ρ : Type := Unit) where
  memory : Memory
  row : ℕ
  col : ℕ
  color : UInt8
  cells : ρ := by exact ()

namespace Console

variable {ρ : Type} [CellRecord ρ]

/-- `memory_copy(&buffer[index], &ch, sizeof(struct Char))`. -/
def setChar (index : ℕ) (ch : ScreenChar) (s : Console ρ) : Console ρ :=
  { s with
    memory := s.memory.write (videoBuffer + sizeofChar * index) [ch.character, ch.color]
    cells := CellRecord.note [index] s.cells }

/-- `(struct Char) { character: ' ', color: color }`. -/
def empty (s : Console ρ) : ScreenChar := { character := 0x20, color := s.color }

def clearRow (row : ℕ) (s : Console ρ) : Console ρ :=
  (List.range numCols).foldl (fun s' col => s'.setChar (col + numCols * row) s.empty) s

def printClear (s : Console ρ) : Console ρ :=
  (List.range numRows).foldl (fun s' i => s'.clearRow i) { s with row := 0 }

/-- `memory_move(buffer, buffer + NUM_COLS, (NUM_ROWS - 1) * NUM_COLS * sizeof(struct Char))`. -/
def moveUp (s : Console ρ) : Console ρ :=
  { s with
    memory := memoryMove s.memory videoBuffer (videoBuffer + sizeofChar * numCols)
      ((numRows - 1) * numCols * sizeofChar)
    -- the cells that are written, and those that are read
    cells := CellRecord.note (List.range ((numRows - 1) * numCols) ++
      (List.range ((numRows - 1) * numCols)).map (· + numCols)) s.cells }

def printNewline (s : Console ρ) : Console ρ :=
  let s := { s with col := 0 }
  if s.row < numRows - 1 then { s with row := s.row + 1 }
  else s.moveUp.clearRow (numRows - 1)

/-- The cursor one character back, as `'\b'` moves it. -/
def stepBack (s : Console ρ) : Console ρ :=
  if s.col = 0 ∧ 0 < s.row then { s with row := s.row - 1, col := numCols - 1 }
  else if 0 < s.col then { s with col := s.col - 1 }
  else s

def printChar (character : UInt8) (s : Console ρ) : Console ρ :=
  if character = 0x0A then s.printNewline
  else if character = 0x08 then
    let s := s.stepBack
    s.setChar (s.col + numCols * s.row) s.empty
  else
    let s := if numCols ≤ s.col then s.printNewline else s
    let s := s.setChar (s.col + numCols * s.row) { character := character, color := s.color }
    { s with col := s.col + 1 }

/-- `print_str` on the bytes from its pointer on, up to the first NUL. -/
def printStr : List UInt8 → Console ρ → Console ρ
  | [], s => s
  | c :: str, s => if c = 0 then s else printStr str (s.printChar c)

def printHexDigit (digit : UInt8) (s : Console ρ) : Console ρ :=
  if digit < 10 then s.printChar (0x30 + digit) else s.printChar (0x41 + (digit - 10))

/-- `for (int i = 7; i >= 0; i--)` of `print_hex`, from `i - 1` on. -/
def printHexLoop (number : UInt32) : ℕ → Bool → Console ρ → Console ρ
  | 0, _, s => s
  | i + 1, started, s =>
    let digit := ((number >>> UInt32.ofNat (i * 4)) &&& 0xF).toUInt8
    if digit ≠ 0 ∨ started = true then printHexLoop number i true (s.printHexDigit digit)
    else printHexLoop number i started s

def printHex (number : UInt32) (s : Console ρ) : Console ρ :=
  if number = 0 then printStr [0x30, 0x78, 0x30] s
  else printHexLoop number 8 false (printStr [0x30, 0x78] s)

/-- `while (number > 0) { buffer[i++] = '0' + (number % 10); number /= 10; }`, and
the index and the buffer it ends with. -/
def printDecFill (number : UInt32) (i : ℕ) (buffer : Memory) : ℕ × Memory :=
  if 0 < number then
    printDecFill (number / 10) (i + 1) (Function.update buffer i (0x30 + number % 10).toUInt8)
  else (i, buffer)
termination_by number.toNat
decreasing_by
  rename_i hpos
  rw [UInt32.toNat_div]
  exact Nat.div_lt_self (UInt32.lt_iff_toNat_lt.mp hpos) (by decide)

/-- `while (i > 0) { print_char(buffer[--i]); }`. -/
def printDecDrain : ℕ → Memory → Console ρ → Console ρ
  | 0, _, s => s
  | i + 1, buffer, s => printDecDrain i buffer (s.printChar (buffer i))

/-- `print_dec`, with what is in its `char buffer[11]` to begin with. -/
def printDec (number : UInt32) (buffer : Memory) (s : Console ρ) : Console ρ :=
  if number = 0 then s.printChar 0x30
  else
    let (i, buffer) := printDecFill number 0 buffer
    printDecDrain i buffer s

/-- `while (num > 0 && i > 0) { buffer[--i] = '0' + (num % 10); num /= 10; }`, and
the index and the buffer it ends with. -/
def printIntLoop : ℕ → UInt32 → Memory → ℕ × Memory
  | 0, _, digits => (0, digits)
  | i + 1, num, digits =>
    if 0 < num then
      printIntLoop i (num / 10) (Function.update digits i (0x30 + num % 10).toUInt8)
    else (i + 1, digits)

/-- `print_int`, with what is in its `char buffer[11]` to begin with. -/
def printInt (num : UInt32) (digits : Memory) (s : Console ρ) : Console ρ :=
  let digits := memoryZero digits 0 11
  if num = 0 then printStr [0x30] s
  else
    let (i, digits) := printIntLoop 10 num digits
    printStr ((List.range (11 - i)).map fun j => digits (i + j)) s

def printSetColor (foreground background : UInt8) (s : Console ρ) : Console ρ :=
  { s with color := foreground + (background <<< 4) }

/-- The character on the screen at an index of the buffer. -/
def cell (s : Console ρ) (index : ℕ) : ScreenChar where
  character := s.memory (videoBuffer + sizeofChar * index)
  color := s.memory (videoBuffer + sizeofChar * index + 1)

/-- A character is copied from a local variable, wherever that may be. -/
theorem setChar_eq_memoryCopy (s : Console ρ) (index : ℕ) (ch : ScreenChar) {address : ℕ}
    (hcharacter : s.memory address = ch.character) (hcolor : s.memory (address + 1) = ch.color) :
    s.setChar index ch =
      { s with
        memory := memoryCopy s.memory (videoBuffer + sizeofChar * index) address sizeofChar
        cells := CellRecord.note [index] s.cells } := by
  have hcopy := memoryCopy_eq_write s.memory (videoBuffer + sizeofChar * index) address
    [ch.character, ch.color] (by
      intro i hi
      match i with
      | 0 => rw [Nat.add_zero, hcharacter]; rfl
      | 1 => rw [hcolor]; rfl)
  rw [setChar, ← hcopy]
  rfl

end Console

end EtyOS
