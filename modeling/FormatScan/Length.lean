import FormatScan.Byte
import FormatScan.Word

/-!
# Length letters and operand widths

A directive may carry any number of length letters. They are collected as flags:
a second `h` turns short into the width of a character, a second `l` turns long
into the widest, and every other combination keeps all flags that were set. The
width of an operand is then the first set flag in an order that depends on who
asks: the formatter for an operand, the formatter for a stored count, or the
scanner for a target.
-/

namespace FormatScan

/-- A letter that says how wide an operand is. -/
inductive LengthLetter where
  | h | l | q | j | t | z
deriving DecidableEq, Repr

/-- The length letter that a byte stands for. -/
def LengthLetter.ofByte? (c : UInt8) : Option LengthLetter :=
  match Byte.char c with
  | 'h' => some .h
  | 'l' => some .l
  | 'q' => some .q
  | 'j' => some .j
  | 't' => some .t
  | 'z' => some .z
  | _ => none

/-- The width that an operand is narrowed to. -/
inductive OperandWidth where
  /-- No length letter: an `int`. -/
  | int
  /-- Twice `h`. -/
  | char
  /-- Once `h`. -/
  | short
  /-- Once `l`. -/
  | long
  /-- Twice `l`, or `q`. -/
  | longLong
  /-- The letter `z`. -/
  | size
  /-- The letter `t`. -/
  | difference
  /-- The letter `j`. -/
  | widest
deriving DecidableEq, Repr

namespace OperandWidth

/-- The number of bits kept by a width. -/
def bits : OperandWidth → Nat
  | char => 8
  | short => 16
  | int => 32
  | long | longLong | size | difference | widest => 64

/-- The signed number in the low bits of a word. -/
def signed (width : OperandWidth) (word : UInt64) : Int :=
  (word.toNat : Int).bmod (Word.count width.bits)

/-- The unsigned number in the low bits of a word. -/
def unsigned (width : OperandWidth) (word : UInt64) : Nat :=
  word.toNat % Word.count width.bits

end OperandWidth

/-- The length letters of one directive. -/
structure LengthFlags where
  /-- An odd number of `h` was read. -/
  short : Bool := false
  /-- At least two `h` were read. -/
  char : Bool := false
  /-- An odd number of `l` was read. -/
  long : Bool := false
  /-- A `q` or at least two `l` were read. -/
  longLong : Bool := false
  /-- A `j` was read. -/
  widest : Bool := false
  /-- A `t` was read. -/
  difference : Bool := false
  /-- A `z` was read. -/
  size : Bool := false
deriving DecidableEq, Repr

namespace LengthFlags

/-- Read one more length letter. -/
def add (flags : LengthFlags) : LengthLetter → LengthFlags
  | .h => if flags.short then { flags with short := false, char := true }
    else { flags with short := true }
  | .l => if flags.long then { flags with long := false, longLong := true }
    else { flags with long := true }
  | .q => { flags with longLong := true }
  | .j => { flags with widest := true }
  | .t => { flags with difference := true }
  | .z => { flags with size := true }

/-- The width of a formatter operand: `j`, then `q`, `t`, `l`, `z`, `h` and
last `hh`. -/
def forOperand (flags : LengthFlags) : OperandWidth :=
  if flags.widest then .widest
  else if flags.longLong then .longLong
  else if flags.difference then .difference
  else if flags.long then .long
  else if flags.size then .size
  else if flags.short then .short
  else if flags.char then .char
  else .int

/-- The width of a count stored by the formatter, which ignores `t`. -/
def forCount (flags : LengthFlags) : OperandWidth :=
  { flags with difference := false }.forOperand

/-- The width of a scanner target: `hh`, then `h`, `l` and last `q`. -/
def forTarget (flags : LengthFlags) : OperandWidth :=
  if flags.char then .char
  else if flags.short then .short
  else if flags.long then .long
  else if flags.longLong then .longLong
  else .int

/-- Read a length letter as the scanner does, which takes `j`, `t` and `z` for
`q`. -/
def addForTarget (flags : LengthFlags) : LengthLetter → LengthFlags
  | .h => flags.add .h
  | .l => flags.add .l
  | .q | .j | .t | .z => flags.add .q

end LengthFlags

end FormatScan
