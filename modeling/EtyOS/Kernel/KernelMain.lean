import EtyOS.Disktool.Colors
import EtyOS.Disktool.Sizes
import EtyOS.Kernel.Filesystem

/-!
# The loop of `kernel_main`

`kernel_main` and `start_disktool` take turns in reading lines. The state between
two lines is the machine, the output so far, the `int color` of `kernel_main` and
who reads next; a prompt has been printed and `read_input` waits. The echo of the
line is not part of the output.
-/

namespace EtyOS

open Library

/-- A call of `print.c`: one that the disk code makes as well, or `print_clear`. -/
inductive ScreenCall where
  | call (c : PrintCall)
  | clear
  deriving DecidableEq

def printSetColor (foreground background : UInt8) : UInt8 := foreground + background <<< 4

/-- The variable `color` of `print.c` after these calls. -/
def screenColor (output : List ScreenCall) : UInt8 :=
  output.foldl (fun color c => match c with
    | .call (.setColor foreground background) => printSetColor foreground background
    | _ => color) (printSetColor printColorWhite 0)

/-- The background in effect: the upper half of the byte. -/
def background (output : List ScreenCall) : UInt8 := screenColor output >>> 4

/-- The state while `read_input` waits for a line. -/
structure MainState where
  machine : Machine
  color : Int32
  inDisktool : Bool
  output : List ScreenCall

abbrev Main := StateT MainState Option

namespace Main

/-- A kernel function is called; what it prints goes to the screen. -/
def exec {α : Type} (x : Kernel α) : Main α := fun t =>
  (x.run { t.machine with printed := [] }).map fun r =>
    (r.1, { t with machine := r.2, output := t.output ++ r.2.printed.map .call })

def printClear : Main Unit := modify fun t => { t with output := t.output ++ [.clear] }

def setColor (color : Int32) : Main Unit := modify fun t => { t with color := color }

def setReader (inDisktool : Bool) : Main Unit := modify fun t => { t with inDisktool := inDisktool }

/-- The `uint8_t` that `print_set_color` gets for an `int`. -/
def colorByte (color : Int32) : UInt8 := color.toUInt32.toUInt8

def printColorBlack : UInt8 := 0
def printColorCyan : UInt8 := 3

def prompt (color : Int32) : List PrintCall :=
  [.setColor printColorLightGray (colorByte color), .str "etyOS Kernel > ",
    .setColor printColorWhite (colorByte color)]

def disktoolPrompt (color : Int32) : List PrintCall :=
  [.setColor printColorYellow (colorByte color), .str "disktool > ",
    .setColor printColorWhite (colorByte color)]

/-- The prompt of the loop that reads next. -/
def nextPrompt : Main Unit := do
  let t ← get
  exec (console (if t.inDisktool then disktoolPrompt t.color else prompt t.color))

def helpText : List PrintCall :=
  [.str "Available commands:", .newline,
    .str " - help: Show this help message", .newline,
    .str " - clear: Clear the screen", .newline,
    .str " - disktool: Manage and view storage", .newline,
    .str " - echo <text>: Print text back to the console", .newline,
    .str " - about: Get information about this build", .newline,
    .str " - partitions: Show all partitions", .newline,
    .str " - setcolor <background>: Change the text and background colors", .newline]

def aboutText : List PrintCall :=
  [.str "etyOS 2.0", .newline, .str "Version created: 27.10.2024", .newline,
    .str "Author: Mikhail Karlov", .newline, .str "Configuration: x86_64 multiboot2", .newline]

/-- `setcolor`: the variable is assigned before the number is checked. -/
def setcolor (command : List UInt8) : Main Unit := do
  let background := (strtoul (command.drop 9) 10).1.toInt32
  setColor background
  if background ≥ 0 ∧ background ≤ 14 then
    exec (console [.setColor printColorWhite (colorByte background)])
    printClear
    exec (console [.setColor printColorWhite (colorByte background)])
    printClear
    exec (console [.str "Colors updated."])
  else exec (console [.str "Invalid color value. Use numbers between 0 and 14."])
  exec (console [.newline])

/-- `start_disktool` up to its first prompt. -/
def startDisktool : Main Unit := do
  exec (console [.str "Welcome to disktool. ", .newline,
    .str "Type help to get list of all commands", .newline])
  setReader true

section Turn

-- what the stack holds where `check_filesystem` puts its array, at each call
variable (frame : MainState → LocalArray)

/-- The body of the loop of `kernel_main` for one line. -/
def kernelLine (line : CString) : Main Unit :=
  let command := line.bytes
  if command = [] then return ()
  else if strcmp command (chars "help") = 0 then exec (console helpText)
  else if strcmp command (chars "disktool") = 0 then startDisktool
  else if strcmp command (chars "clear") = 0 then printClear
  else if strcmp command (chars "dsks") = 0 then exec displayAvailableDisks
  else if strcmp command (chars "about") = 0 then exec (console aboutText)
  else if strcmp command (chars "checkfs") = 0 then do
    let t ← get
    let _ ← exec ((checkFilesystem (frame t)).run [])
    return ()
  else if strncmp command (chars "echo ") 5 = 0 then
    exec (console ((command.drop 5).map .char ++ [.newline]))
  else if strcmp command (chars "partitions") = 0 then exec displayPartitions
  else if strncmp command (chars "setcolor ") 9 = 0 then setcolor command
  else exec (console ([.str "Unknown command: "] ++ command.map .char ++ [.newline]))

/-- One line, read by the loop that waits for it, and the next prompt. -/
def turn (line : CString) : Main Unit := do
  exec (console [.newline])
  let t ← get
  if t.inDisktool then
    let goOn ← exec (disktoolLine (colorByte t.color) line)
    if goOn then nextPrompt
    else
      setReader false
      nextPrompt
  else
    kernelLine frame line
    nextPrompt

end Turn

def banner : List PrintCall :=
  [.setColor printColorWhite printColorCyan,
    .str "================================================", .newline,
    .str "|                                              |", .newline,
    .str "|             Welcome to etyOS2                |", .newline,
    .str "|            64-bit Kernel Started             |", .newline,
    .str "|                                              |", .newline,
    .str "================================================", .newline,
    .setColor printColorLightGray printColorBlack,
    .str "Type 'help' for a list of commands.", .newline]

/-- `kernel_main` up to the first prompt. -/
def boot : Main Unit := do
  printClear
  exec (console banner)
  exec (modify fun s => s.setMemory (memoryAllocatorInit s.poolBase s.memory))
  exec initDisktool
  -- `int color = PRINT_COLOR_BLACK;`
  setColor 0
  exec (console [.setColor printColorWhite (colorByte 0)])
  nextPrompt

end Main

end EtyOS
