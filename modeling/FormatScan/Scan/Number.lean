import FormatScan.Numeral.Reading
import FormatScan.Scan.Directive

/-!
# Number fields

A number field is the longest run of input bytes that can still become a number
of the wanted spelling. Bytes are accepted one at a time: the state below tells
which of them may come next. The base may change on the way, since a leading
zero or a `0x` shows it in base 0. A field ends in a digit: an `x` that no digit
follows is given back.
-/

namespace FormatScan.Scan

/-- The greatest number of bytes in a number field. -/
def numberFieldLimit : Nat := 31

/-- What has been accepted of a number field. -/
structure FieldState where
  /-- The base in force, or 0 while the text has not shown it. -/
  base : Nat
  /-- The number of bytes accepted. -/
  length : Nat := 0
  /-- A sign may still come. -/
  signAllowed : Bool := true
  /-- A digit has been accepted. -/
  digitSeen : Bool := false
  /-- A zero has been accepted. -/
  zeroSeen : Bool := false
  /-- A base mark may still come. -/
  markAllowed : Bool
deriving DecidableEq, Repr

namespace FieldState

/-- The state in front of a field. -/
def start (format : NumberFormat) : FieldState :=
  { base := format.base, markAllowed := format.marked }

/-- The base once a nonzero decimal digit was met: base 0 has become decimal. -/
def settledBase (base : Nat) : Nat := if base == 0 then 10 else base

/-- Accept a digit that settles the base. -/
def afterDigit (state : FieldState) (base : Nat) : FieldState :=
  { state with base := base, length := state.length + 1, signAllowed := false, digitSeen := true,
               markAllowed := false }

/-- Accept a zero. The first zero keeps a base mark possible, and in base 0 it
shows base 8 and allows a mark. -/
def afterZero (state : FieldState) : FieldState :=
  let base := if state.base == 0 then 8 else state.base
  let marked := state.base == 0 || state.markAllowed
  { state with base := base, length := state.length + 1, signAllowed := false, digitSeen := true,
               zeroSeen := true, markAllowed := marked && !state.zeroSeen }

/-- The state after one more byte, or nothing when the byte cannot continue the
field. -/
def step (state : FieldState) (c : UInt8) : Option FieldState :=
  if c == 0x30 then some state.afterZero
  else if Byte.isDigit c then
    let base := settledBase state.base
    if c ≤ 0x37 || 8 < base then some (state.afterDigit base) else none
  else if (0x61 ≤ c && c ≤ 0x66) || (0x41 ≤ c && c ≤ 0x46) then
    if 10 < state.base then some (state.afterDigit state.base) else none
  else if c == 0x2B || c == 0x2D then
    if state.signAllowed then
      some { state with length := state.length + 1, signAllowed := false }
    else none
  else if c == 0x78 || c == 0x58 then
    if state.markAllowed && state.length == 1 then
      some { state with base := 16, length := state.length + 1, markAllowed := false }
    else none
  else none

end FieldState

/-- A number field as it was taken from the input. -/
structure Field where
  /-- The bytes of the field. -/
  text : Bytes
  /-- The state behind them. -/
  state : FieldState
deriving DecidableEq, Repr

/-- Take the bytes that continue a field, at most a number of them. -/
def Field.collect (state : FieldState) : Nat → Bytes → Field
  | 0, _ => ⟨[], state⟩
  | _ + 1, [] => ⟨[], state⟩
  | limit + 1, c :: rest =>
    match state.step c with
    | none => ⟨[], state⟩
    | some next =>
      let field := Field.collect next limit rest
      { field with text := c :: field.text }

/-- Whether a byte is an `x` of either case. -/
def isMark (c : UInt8) : Bool := c == 0x78 || c == 0x58

/-- Take a number field from the front of the input, when there is one. The
width is the directive's, 0 for none. -/
def Field.take? (format : NumberFormat) (width : Nat) (input : Bytes) : Option Field :=
  let limit := if width == 0 || numberFieldLimit < width then numberFieldLimit else width
  let field := Field.collect (.start format) limit input
  if !field.state.digitSeen then none
  else if field.text.getLast?.any isMark then some { field with text := field.text.dropLast }
  else some field

/-- The 64 bits of the number in a field. -/
def Field.bits (format : NumberFormat) (field : Field) : UInt64 :=
  if format.signed then (Numeral.decodeSigned field.text field.state.base).value.toUInt64
  else (Numeral.decodeUnsigned field.text field.state.base).value

end FormatScan.Scan
