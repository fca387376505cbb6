import FormatScan.Conformance.Error
import FormatScan.Operand
import FormatScan.Text.Integer

/-!
# Descriptions of operands and targets

A case, or the command line, describes the operands of a formatting call and the
targets of a scanning call. A description has a written form, a name and a value
between which a colon stands, and a JSON form.
-/

namespace FormatScan

/-- A description of a formatter operand. -/
inductive ArgSpec where
  /-- A signed integer. -/
  | int (value : Int64)
  /-- An unsigned integer. -/
  | uint (value : UInt64)
  /-- A byte. -/
  | char (value : UInt8)
  /-- An address. -/
  | pointer (value : UInt64)
  /-- A text, or nothing in its place. -/
  | text (value : Option String)
  /-- A slot for a count. -/
  | count
deriving DecidableEq, Repr

/-- A description of a scanner target. -/
inductive TargetSpec where
  /-- A signed integer. -/
  | int
  /-- An unsigned integer. -/
  | uint
  /-- An address. -/
  | pointer
  /-- A buffer of some size. -/
  | buffer (size : UInt64)
  /-- A slot for a count. -/
  | count
deriving DecidableEq, Repr

namespace Spec

/-- The name and the value of a written description. The name ends at the first
colon; without one the value is empty. -/
def split (text : String) : String × String :=
  let name := text.toList.takeWhile (· != ':')
  (String.ofList name, String.ofList (text.toList.drop (name.length + 1)))

/-- A number in a range. -/
def number (field : String) (range : Text.Range) (text : String) : Except ConformanceError Int :=
  match Text.integer? range text.toList with
  | some n => .ok n
  | none => .error (.badInput field (.notANumber text))

end Spec

namespace ArgSpec

/-- The operand that is described. A slot starts at zero. -/
def arg : ArgSpec → FormatArg
  | int value => .int value
  | uint value => .uint value
  | char value => .char value
  | pointer value => .pointer value
  | text value => .text (value.map bytesOf)
  | count => .count 0

/-- Read the written form. A single byte stands for itself as a `char`. -/
def parse (written : String) : Except ConformanceError ArgSpec :=
  let (name, value) := Spec.split written
  match name with
  | "int" => (Spec.number "arg" .signedWord value).map fun n => int (Int64.ofInt n)
  | "uint" => (Spec.number "arg" .word value).map fun n => uint (UInt64.ofNat n.toNat)
  | "ptr" => (Spec.number "arg" .word value).map fun n => pointer (UInt64.ofNat n.toNat)
  | "char" =>
    match bytesOf value with
    | [c] => .ok (char c)
    | _ => (Spec.number "arg" .byte value).map fun n => char (UInt8.ofNat n.toNat)
  | "str" => .ok (text (some value))
  | "null" => .ok (text none)
  | "count" => .ok count
  | _ => .error (.badInput "arg" (.unknownKind name))

/-- The JSON form. -/
def toJson : ArgSpec → Json
  | int value => .object [("int", .ofQuad value)]
  | uint value => .object [("uint", .ofWord value)]
  | char value => .object [("char", .ofNat value.toNat)]
  | pointer value => .object [("ptr", .ofWord value)]
  | text value => .object [("str", .ofString? value)]
  | count => .string "count"

/-- Read the JSON form. -/
def ofJson (value : Json) : Json.Decoded ArgSpec := do
  let (name, written) ← value.asChoice
  match name with
  | "int" =>
    return int (Int64.ofInt (← Json.content Json.asQuad written))
  | "uint" => return uint (UInt64.ofNat (← Json.content (Json.asNat 64) written))
  | "char" => return char (UInt8.ofNat (← Json.content (Json.asNat 8) written))
  | "ptr" => return pointer (UInt64.ofNat (← Json.content (Json.asNat 64) written))
  | "str" => return text (← Json.content (Json.asOption Json.asString) written)
  | "count" => Json.bare count written
  | _ => throw (.unsuitable "a kind of argument")

end ArgSpec

namespace TargetSpec

/-- The target that is described. Numbers start at zero, and buffers hold zero
bytes. A buffer of a size that cannot be allocated is outside the model (see
`Bytes`). -/
def target : TargetSpec → ScanTarget
  | int => .int 0
  | uint => .uint 0
  | pointer => .pointer 0
  | buffer size => .buffer (List.replicate size.toNat 0)
  | count => .count 0

/-- Read the written form. -/
def parse (written : String) : Except ConformanceError TargetSpec :=
  let (name, value) := Spec.split written
  match name with
  | "int" => .ok int
  | "uint" => .ok uint
  | "ptr" => .ok pointer
  | "chars" => (Spec.number "target" .word value).map fun n => buffer (UInt64.ofNat n.toNat)
  | "count" => .ok count
  | _ => .error (.badInput "target" (.unknownKind name))

/-- The JSON form. -/
def toJson : TargetSpec → Json
  | int => .string "int"
  | uint => .string "uint"
  | pointer => .string "ptr"
  | buffer size => .object [("chars", .ofWord size)]
  | count => .string "count"

/-- Read the JSON form. -/
def ofJson (value : Json) : Json.Decoded TargetSpec := do
  let (name, written) ← value.asChoice
  match name with
  | "int" => Json.bare int written
  | "uint" => Json.bare uint written
  | "ptr" => Json.bare pointer written
  | "chars" => return buffer (UInt64.ofNat (← Json.content (Json.asNat 64) written))
  | "count" => Json.bare count written
  | _ => throw (.unsuitable "a kind of target")

end TargetSpec

end FormatScan
