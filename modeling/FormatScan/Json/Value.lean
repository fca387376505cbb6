/-!
# JSON values

A value is a scalar, an array or an object. Integers are kept apart from other
numbers: they are the ones that fit a signed or an unsigned word of 64 bits. Any
other number is a binary fraction of double precision, kept as its bits. Objects
are lists of members; the objects that come out of a text have their keys in
strictly increasing order, and a key that is repeated there keeps its last
value.
-/

namespace FormatScan

/-- An integer that fits a word of 64 bits, signed or unsigned. -/
structure JsonInteger where
  /-- The integer. -/
  value : Int
  /-- It is no less than the least signed word. -/
  lower : -9223372036854775808 ≤ value := by omega
  /-- It is no greater than the largest unsigned word. -/
  upper : value < 18446744073709551616 := by omega
deriving DecidableEq, Repr

namespace JsonInteger

/-- A small number as an integer, which wraps only beyond the largest word. -/
def ofNat (n : Nat) : JsonInteger := ⟨(n % 18446744073709551616 : Nat), by omega, by omega⟩

/-- An unsigned word as an integer. -/
def ofWord (n : UInt64) : JsonInteger :=
  ⟨n.toNat, by omega, by have := n.toNat_lt; omega⟩

/-- A signed word as an integer. -/
def ofQuad (n : Int64) : JsonInteger :=
  ⟨n.toInt, n.le_toInt, by have := n.toInt_lt; omega⟩

/-- An integer when it is in range. -/
def ofInt? (n : Int) : Option JsonInteger :=
  if h : -9223372036854775808 ≤ n ∧ n < 18446744073709551616 then some ⟨n, h.1, h.2⟩ else none

end JsonInteger

/-- A JSON value. -/
inductive Json where
  /-- The value `null`. -/
  | null
  /-- A truth value. -/
  | bool (value : Bool)
  /-- An integer. -/
  | integer (value : JsonInteger)
  /-- Any other number, as the bits of a double. -/
  | real (bits : UInt64)
  /-- A string. -/
  | string (value : String)
  /-- A list of values. -/
  | array (items : List Json)
  /-- Keys with their values. -/
  | object (members : List (String × Json))

namespace Json

/-- A count as a value. -/
def ofNat (n : Nat) : Json := .integer (.ofNat n)

/-- An unsigned word as a value. -/
def ofWord (n : UInt64) : Json := .integer (.ofWord n)

/-- A signed word as a value. -/
def ofQuad (n : Int64) : Json := .integer (.ofQuad n)

/-- A list of strings as a value. -/
def ofStrings (items : List String) : Json := .array (items.map .string)

/-- A string, or `null` in its absence. -/
def ofString? (value : Option String) : Json :=
  match value with
  | some text => .string text
  | none => .null

/-- Set a key in an ordered list of members. -/
def setMember (key : String) (value : Json) : List (String × Json) → List (String × Json)
  | [] => [(key, value)]
  | (other, old) :: rest =>
    if key < other then (key, value) :: (other, old) :: rest
    else if key == other then (key, value) :: rest
    else (other, old) :: setMember key value rest

/-- The object with some members: its keys are ordered, and a repeated key keeps
its last value. -/
def ofMembers (members : List (String × Json)) : Json :=
  .object (members.foldl (fun ordered (key, value) => setMember key value ordered) [])

/-- The members of an object. -/
def members? : Json → Option (List (String × Json))
  | .object members => some members
  | _ => none

/-- The string that a value is. -/
def string? : Json → Option String
  | .string text => some text
  | _ => none

/-- The value of a key in a list of members. -/
def lookup (key : String) (members : List (String × Json)) : Option Json :=
  (members.find? fun member => member.1 == key).map (·.2)

end Json

end FormatScan
