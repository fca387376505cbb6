import FormatScan.Format.Directive
import FormatScan.Numeral.Digits
import FormatScan.Operand
import FormatScan.Output.Piece

/-!
# Fields

The modifiers of a directive settle its flags, its width and its precision, and
these lay out the operand as a field. A number is written as
`[blanks][-][base mark][zeros]digits[blanks]`, a text between padding on one
side. Widths are signed words, and every sum of them stays in their range.
-/

namespace FormatScan.Format

/-- What the modifiers of a directive amount to. -/
structure Settings where
  /-- Pad on the right. -/
  left : Bool := false
  /-- Show the base of a nonzero number. -/
  alternate : Bool := false
  /-- Make the conversion `r` signed. -/
  plus : Bool := false
  /-- Pad with zeros. -/
  zero : Bool := false
  /-- A dot was read. -/
  dotted : Bool := false
  /-- The least number of bytes in the field. -/
  width : Int := 0
  /-- The least number of digits, or the greatest number of bytes of a text. It
  is negative only when a star says so. -/
  precision : Int := 0
  /-- The length letters. -/
  length : LengthFlags := {}
deriving DecidableEq, Repr

namespace Settings

/-- An amount written in digits, no larger than a signed word. -/
def setAmount (settings : Settings) (value : Nat) : Settings :=
  let amount := Quad.clamp value
  if settings.dotted then { settings with precision := amount }
  else { settings with width := amount }

/-- An amount taken from an operand. A negative width turns the side of the
padding round and counts by its magnitude. -/
def setStar (settings : Settings) (amount : Int) : Settings :=
  if settings.dotted then { settings with precision := amount }
  else if amount < 0 then { settings with left := !settings.left, width := -amount }
  else { settings with width := amount }

/-- Carry out one modifier. A star takes the next operand as an `int`. -/
def apply (settings : Settings) (operands : Operands) :
    Modifier → Except FormatError (Settings × Operands)
  | .left => .ok ({ settings with left := true }, operands)
  | .alternate => .ok ({ settings with alternate := true }, operands)
  | .plus => .ok ({ settings with plus := true }, operands)
  | .zero => .ok ({ settings with zero := true }, operands)
  | .dot => .ok ({ settings with dotted := true }, operands)
  | .star =>
    match operands.takeBits with
    | .ok (bits, operands) => .ok (settings.setStar (OperandWidth.int.signed bits), operands)
    | .error e => .error e
  | .amount value => .ok (settings.setAmount value, operands)
  | .length letter => .ok ({ settings with length := settings.length.add letter }, operands)

/-- Carry out a list of modifiers in order. -/
def applyAll (settings : Settings) (operands : Operands) :
    List Modifier → Except FormatError (Settings × Operands)
  | [] => .ok (settings, operands)
  | modifier :: rest =>
    match settings.apply operands modifier with
    | .ok (settings, operands) => settings.applyAll operands rest
    | .error e => .error e

end Settings

/-- A run of padding; a length below one is no padding at all. -/
def padding (byte : UInt8) (count : Int) : Piece := .fill byte count.toNat

/-- The mark that shows the base of a number. -/
def baseMark (settings : Settings) (base magnitude : Nat) : Bytes :=
  if settings.alternate && magnitude != 0 then
    if base == 8 then [0x30] else if base == 16 then [0x30, 0x78] else []
  else []

/-- The pieces of a number field. Under the zero flag, and unless the padding is
on the right, zeros take the place of the precision and fill the width. -/
def numberField (settings : Settings) (base : Nat) (upper negative : Bool) (magnitude : Nat) :
    List Piece :=
  let digits := Numeral.digits base upper magnitude
  let mark := baseMark settings base magnitude
  let sign : Bytes := if negative then [0x2D] else []
  let count : Int := digits.length
  let ahead : Int := mark.length + sign.length
  let least :=
    if settings.zero && !settings.left then Quad.satSub settings.width ahead
    else settings.precision
  let blanks := Quad.satSub settings.width (Quad.satAdd ahead (max least count))
  let zeros := Quad.satSub least count
  [padding 0x20 (if settings.left then 0 else blanks), .text sign, .text mark,
    padding 0x30 zeros, .text digits, padding 0x20 (if settings.left then blanks else 0)]

/-- What is written in place of an absent text. -/
def absentText : Bytes := bytesOf "(null)"

/-- The pieces of a text field. The text ends at its first zero byte, and at the
precision when there is a dot. -/
def textField (settings : Settings) (value : Option Bytes) : List Piece :=
  let whole := untilZero (value.getD absentText)
  let kept := if settings.dotted then whole.take settings.precision.toNat else whole
  let byte : UInt8 := if settings.zero then 0x30 else 0x20
  let blanks := Quad.satSub settings.width kept.length
  [padding byte (if settings.left then 0 else blanks), .text kept,
    padding byte (if settings.left then blanks else 0)]

end FormatScan.Format
