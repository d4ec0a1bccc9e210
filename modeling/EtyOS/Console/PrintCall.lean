import Mathlib.Tactic

/-!
# Calls into the console

The disk code reaches the screen only through `print.c`. Its output is kept as
the list of calls it makes, oldest first, so that what is reported can be read
back without the 80 by 25 buffer.
-/

namespace EtyOS

/-- One call of a function of `print.c`. -/
inductive PrintCall where
  | str (text : String)
  | newline
  | char (c : UInt8)
  | int (n : UInt32)
  | dec (n : UInt32)
  | setColor (foreground background : UInt8)
  deriving DecidableEq, Repr

end EtyOS
