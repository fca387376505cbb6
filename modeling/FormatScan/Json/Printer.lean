import FormatScan.Json.Real
import FormatScan.Json.Value
import FormatScan.Text.Hex

/-!
# Writing JSON

One printer serves two layouts. The compact one writes no blanks. The indented
one puts every item and member on a line of its own, two spaces deeper than its
container, and a space behind each colon. Empty containers are written without
anything between their brackets in both.
-/

namespace FormatScan.Json

/-- What stands between the parts of a container. -/
structure Layout where
  /-- What precedes an item, or a closing bracket, at a depth. -/
  lineBreak : Nat → List Char
  /-- What separates a key from its value. -/
  colon : List Char

/-- No blanks at all. -/
def Layout.compact : Layout := ⟨fun _ => [], [':']⟩

/-- A line for every item, indented by two spaces for each depth. -/
def Layout.indented : Layout :=
  ⟨fun depth => '\n' :: List.replicate (2 * depth) ' ', [':', ' ']⟩

/-- A character as it stands inside a written string. Only quotes, backslashes
and control characters are escaped. -/
def escapeChar (c : Char) : List Char :=
  if c == '"' then ['\\', '"']
  else if c == '\\' then ['\\', '\\']
  else if c == '\x08' then ['\\', 'b']
  else if c == '\t' then ['\\', 't']
  else if c == '\n' then ['\\', 'n']
  else if c == '\x0c' then ['\\', 'f']
  else if c == '\r' then ['\\', 'r']
  else if c.toNat < 0x20 then ['\\', 'u', '0', '0'] ++ Text.hexPair (UInt8.ofNat c.toNat)
  else [c]

/-- A written string. -/
def quote (text : String) : List Char := '"' :: text.toList.flatMap escapeChar ++ ['"']

mutual

/-- A written value at a depth. -/
def printAt (layout : Layout) (depth : Nat) : Json → List Char
  | .null => ['n', 'u', 'l', 'l']
  | .bool true => ['t', 'r', 'u', 'e']
  | .bool false => ['f', 'a', 'l', 's', 'e']
  | .integer n => (toString n.value).toList
  | .real bits => Real.render bits
  | .string text => quote text
  | .array [] => ['[', ']']
  | .array (item :: rest) =>
    '[' :: layout.lineBreak (depth + 1) ++ printAt layout (depth + 1) item ++
      printItems layout (depth + 1) rest ++ layout.lineBreak depth ++ [']']
  | .object [] => ['{', '}']
  | .object ((key, value) :: rest) =>
    '{' :: layout.lineBreak (depth + 1) ++ quote key ++ layout.colon ++
      printAt layout (depth + 1) value ++ printMembers layout (depth + 1) rest ++
      layout.lineBreak depth ++ ['}']

/-- The items behind the first one. -/
def printItems (layout : Layout) (depth : Nat) : List Json → List Char
  | [] => []
  | item :: rest =>
    ',' :: layout.lineBreak depth ++ printAt layout depth item ++ printItems layout depth rest

/-- The members behind the first one. -/
def printMembers (layout : Layout) (depth : Nat) : List (String × Json) → List Char
  | [] => []
  | (key, value) :: rest =>
    ',' :: layout.lineBreak depth ++ quote key ++ layout.colon ++ printAt layout depth value ++
      printMembers layout depth rest

end

/-- The compact text of a value. -/
def compact (value : Json) : String := String.ofList (printAt .compact 0 value)

/-- The indented text of a value. -/
def indented (value : Json) : String := String.ofList (printAt .indented 0 value)

end FormatScan.Json
