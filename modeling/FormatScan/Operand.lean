import FormatScan.Byte

/-!
# Operands, targets and what can go wrong with them

A call hands over a list of tagged values that directives use strictly in order.
The formatter takes its operands from one such list, and the scanner stores into
another. The only failures of either engine are disagreements between a
directive and that list, and a scan set without its closing bracket.
-/

namespace FormatScan

/-- One operand of a formatting call. -/
inductive FormatArg where
  /-- A signed integer. -/
  | int (value : Int64)
  /-- An unsigned integer. -/
  | uint (value : UInt64)
  /-- A single byte. -/
  | char (value : UInt8)
  /-- An address. -/
  | pointer (value : UInt64)
  /-- A text, or nothing in its place. -/
  | text (value : Option Bytes)
  /-- A slot for a count of bytes, with what it holds. -/
  | count (value : Int64)
deriving DecidableEq, Repr

/-- One target of a scanning call, with what it holds. -/
inductive ScanTarget where
  /-- A signed integer. -/
  | int (value : Int64)
  /-- An unsigned integer. -/
  | uint (value : UInt64)
  /-- An address. -/
  | pointer (value : UInt64)
  /-- A buffer of fixed size. -/
  | buffer (bytes : Bytes)
  /-- A slot for a count of bytes. -/
  | count (value : Int64)
deriving DecidableEq, Repr

/-- What a directive needs, or finds in the place of it. -/
inductive OperandKind where
  | integer | text | countSlot | signedInteger | unsignedInteger | pointer | byteBuffer
deriving DecidableEq, Repr

/-- The name of a kind in messages. -/
def OperandKind.name : OperandKind → String
  | integer => "integer"
  | text => "string"
  | countSlot => "count slot"
  | signedInteger => "signed integer"
  | unsignedInteger => "unsigned integer"
  | pointer => "pointer"
  | byteBuffer => "byte buffer"

/-- The kind of a formatter operand. Integers, bytes and addresses are of one
kind. -/
def FormatArg.kind : FormatArg → OperandKind
  | .int _ | .uint _ | .char _ | .pointer _ => .integer
  | .text _ => .text
  | .count _ => .countSlot

/-- The kind of a scanner target. -/
def ScanTarget.kind : ScanTarget → OperandKind
  | .int _ => .signedInteger
  | .uint _ => .unsignedInteger
  | .pointer _ => .pointer
  | .buffer _ => .byteBuffer
  | .count _ => .countSlot

/-- A disagreement between a format and the list it is used with. -/
inductive FormatError where
  /-- The list ends before the element that a directive needs. -/
  | missingArgument (index : Nat)
  /-- A directive cannot use the element at an index. -/
  | argumentMismatch (index : Nat) (expected found : OperandKind)
  /-- A scan set is still open where the format ends. -/
  | unterminatedScanSet (offset : Nat)
deriving DecidableEq, Repr

/-- The message for a failure. -/
def FormatError.message : FormatError → String
  | missingArgument index => s!"directive needs argument #{index}, only {index} supplied"
  | argumentMismatch index expected found =>
    s!"argument #{index} is {found.name}, directive expects {expected.name}"
  | unterminatedScanSet offset =>
    s!"scan-set is not terminated (format ends at offset {offset})"

/-- A list that is used from the front: what directives have taken, in order and
with what they stored there, and what they have not reached. -/
structure Cursor (α : Type) where
  /-- The elements taken so far. -/
  used : List α
  /-- The elements not taken yet. -/
  pending : List α
deriving Repr

namespace Cursor

variable {α : Type}

/-- A cursor in front of a whole list. -/
def start (items : List α) : Cursor α := ⟨[], items⟩

/-- The whole list as it stands now. -/
def all (cursor : Cursor α) : List α := cursor.used ++ cursor.pending

/-- The index of the next element. -/
def index (cursor : Cursor α) : Nat := cursor.used.length

/-- Take the next element through `use`, which may refuse it as being of another
kind than the expected one; otherwise `use` yields a result and what the element
holds from then on. -/
def take {β : Type} (cursor : Cursor α) (expected : OperandKind) (kind : α → OperandKind)
    (use : α → Option (β × α)) : Except FormatError (β × Cursor α) :=
  match cursor.pending with
  | [] => .error (.missingArgument cursor.index)
  | item :: rest =>
    match use item with
    | some (result, after) => .ok (result, ⟨cursor.used ++ [after], rest⟩)
    | none => .error (.argumentMismatch cursor.index expected (kind item))

end Cursor

/-- The operands of a formatting call. -/
abbrev Operands := Cursor FormatArg

/-- The targets of a scanning call. -/
abbrev Targets := Cursor ScanTarget

/-- The 64 bits of an integer operand. -/
def FormatArg.bits? : FormatArg → Option UInt64
  | .int value => some value.toUInt64
  | .uint value => some value
  | .char value => some value.toUInt64
  | .pointer value => some value
  | .text _ | .count _ => none

namespace Operands

/-- Take an integer operand as its 64 bits. -/
def takeBits (operands : Operands) : Except FormatError (UInt64 × Operands) :=
  operands.take .integer FormatArg.kind fun arg => arg.bits?.map fun bits => (bits, arg)

/-- Take a text operand. -/
def takeText (operands : Operands) : Except FormatError (Option Bytes × Operands) :=
  operands.take .text FormatArg.kind fun
    | .text value => some (value, .text value)
    | _ => none

/-- Take a count slot and store a count there. -/
def storeCount (operands : Operands) (count : Int) : Except FormatError (Unit × Operands) :=
  operands.take .countSlot FormatArg.kind fun
    | .count _ => some ((), .count (Int64.ofInt count))
    | _ => none

/-- What the count slots of a list of operands hold, in order. -/
def counts (args : List FormatArg) : List Int64 :=
  args.filterMap fun
    | .count value => some value
    | _ => none

end Operands

end FormatScan
