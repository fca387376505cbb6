import FormatScan.Json.Source
import FormatScan.Word

/-!
# Reading records from JSON

A record is written as an object, whose unknown keys are ignored, or as an array
of its fields in order. A case of a choice is written as its name, or as an
object with its name for the only key.
-/

namespace FormatScan.Json

/-- Why a value is not of the wanted form. -/
inductive DecodeError where
  /-- The text is no JSON. -/
  | malformed
  /-- A field of a record is absent. -/
  | missingField (name : String)
  /-- A value has another form or is out of range. -/
  | unsuitable (expected : String)
deriving DecidableEq, Repr

/-- The message for a failure. -/
def DecodeError.message : DecodeError → String
  | malformed => "malformed text"
  | missingField name => "missing field " ++ "\x60" ++ name ++ "\x60"
  | unsuitable expected => "unsuitable value, expected " ++ expected

/-- The outcome of decoding. -/
abbrev Decoded := Except DecodeError

/-- A string. -/
def asString : Json → Decoded String
  | .string text => .ok text
  | _ => .error (.unsuitable "a string")

/-- A truth value. -/
def asBool : Json → Decoded Bool
  | .bool value => .ok value
  | _ => .error (.unsuitable "a boolean")

/-- An integer in a range. -/
def asInteger (least greatest : Int) : Json → Decoded Int
  | .integer n =>
    if least ≤ n.value && n.value ≤ greatest then .ok n.value
    else .error (.unsuitable "an integer in range")
  | _ => .error (.unsuitable "an integer")

/-- A signed word of 64 bits. -/
def asQuad : Json → Decoded Int := asInteger Quad.least Quad.greatest

/-- An unsigned number of some bits. -/
def asNat (bits : Nat) (value : Json) : Decoded Nat :=
  (asInteger 0 (Word.count bits - 1) value).map Int.toNat

/-- A list, through a decoder of its items. -/
def asList {α : Type} (item : Json → Decoded α) : Json → Decoded (List α)
  | .array items => items.mapM item
  | _ => .error (.unsuitable "a sequence")

/-- A value that may be `null`. -/
def asOption {α : Type} (decode : Json → Decoded α) : Json → Decoded (Option α)
  | .null => .ok none
  | value => (decode value).map some

/-- The values of the named fields of a record, where they are present. An array
has at least the first `least` of them. -/
def asRecord (names : List String) (least : Nat) : Json → Decoded (List (Option Json))
  | .object members => .ok (names.map fun name => lookup name members)
  | .array items =>
    if least ≤ items.length && items.length ≤ names.length then
      .ok ((List.range names.length).map fun i => items[i]?)
    else .error (.unsuitable "a record")
  | _ => .error (.unsuitable "a record")

/-- The value of the field at an index, where it is present. -/
def present {α : Type} (fields : List (Option Json)) (index : Nat) (decode : Json → Decoded α) :
    Decoded (Option α) :=
  match fields[index]? with
  | some (some value) => (decode value).map some
  | _ => .ok none

/-- A field that has to be present. -/
def required {α : Type} (name : String) : Option α → Decoded α
  | some value => .ok value
  | none => .error (.missingField name)

/-- A choice, as its name and what is written for it. -/
def asChoice : Json → Decoded (String × Option Json)
  | .string name => .ok (name, none)
  | .object [(name, value)] => .ok (name, some value)
  | _ => .error (.unsuitable "a choice")

/-- Check that nothing, or `null`, is written for a choice. -/
def bare {α : Type} (value : α) : Option Json → Decoded α
  | none | some .null => .ok value
  | some _ => .error (.unsuitable "a choice without a value")

/-- What is written for a choice that needs a value. -/
def content {α : Type} (decode : Json → Decoded α) : Option Json → Decoded α
  | some value => decode value
  | none => .error (.unsuitable "a choice with a value")

namespace Source

/-- A string. -/
def string? : Source → Option String
  | .string text => text
  | _ => none

/-- A truth value. -/
def bool? : Source → Option Bool
  | .word (.bool value) => some value
  | _ => none

/-- An unsigned word. -/
def nat? : Source → Option Nat
  | .number (some (.integer n)) => if 0 ≤ n.value then some n.value.toNat else none
  | _ => none

/-- What a reader makes of a tree, or nothing for `null`. -/
def optional? {α : Type} (read : Source → Option α) : Source → Option (Option α)
  | .word .null => some none
  | tree => (read tree).map some

/-- The trees of the named fields of a record, where they are present. A key that
is named may not be repeated, and an array has at least the first `least`
fields. -/
def record? (names : List String) (least : Nat) : Source → Option (List (Option Source))
  | .object members =>
    if members.any (fun member => member.1.isNone) then none
    else names.mapM fun name =>
      match members.filter fun member => member.1 == some name with
      | [] => some none
      | [(_, value)] => some (some value)
      | _ => none
  | .array items =>
    if least ≤ items.length && items.length ≤ names.length then
      some ((List.range names.length).map fun i => items[i]?)
    else none
  | _ => none

/-- The items of a list. -/
def items? : Source → Option (List Source)
  | .array items => some items
  | _ => none

end Source

end FormatScan.Json
