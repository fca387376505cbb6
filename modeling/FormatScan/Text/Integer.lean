import FormatScan.Word

/-!
# Integers in settings

An integer in a setting is a run of decimal digits with an optional plus sign in
front; a minus sign is allowed where negative numbers are. Behind `0x` stands an
unsigned word in base 16 instead, again with an optional plus sign. There are no
blanks, and there is at least one digit.
-/

namespace FormatScan.Text

/-- The value of a digit of either case below 36. -/
def digitValue? (c : Char) : Option Nat :=
  if c.isDigit then some (c.toNat - 0x30)
  else if c.isUpper then some (c.toNat - 0x41 + 10)
  else if c.isLower then some (c.toNat - 0x61 + 10)
  else none

/-- Add the digits of a text in a base to a number, when all of them are
digits of the base. -/
def addDigits? (base : Nat) (value : Nat) : List Char → Option Nat
  | [] => some value
  | c :: rest =>
    match digitValue? c with
    | some d => if d < base then addDigits? base (value * base + d) rest else none
    | none => none

/-- The number that a text of one or more digits spells. -/
def digits? (base : Nat) (text : List Char) : Option Nat :=
  if text.isEmpty then none else addDigits? base 0 text

/-- An unsigned number with an optional plus sign. -/
def unsigned? (base : Nat) : List Char → Option Nat
  | '+' :: rest => digits? base rest
  | text => digits? base text

/-- A signed decimal number. -/
def signed? : List Char → Option Int
  | '-' :: rest => (digits? 10 rest).map fun n => -(n : Int)
  | text => (unsigned? 10 text).map fun n => (n : Int)

/-- The range of the numbers that a setting may take. -/
structure Range where
  /-- The least number; a minus sign is allowed when it is negative. -/
  least : Int
  /-- The greatest number. -/
  greatest : Int

/-- The signed words of 64 bits. -/
def Range.signedWord : Range := ⟨Quad.least, Quad.greatest⟩

/-- The unsigned words of 64 bits. -/
def Range.word : Range := ⟨0, Word.largest⟩

/-- The bytes. -/
def Range.byte : Range := ⟨0, 255⟩

/-- Whether a number is in a range. -/
def Range.contains (range : Range) (n : Int) : Bool := range.least ≤ n && n ≤ range.greatest

/-- A decimal number in a range. -/
def decimal? (range : Range) (text : List Char) : Option Int :=
  let value := if range.least < 0 then signed? text else (unsigned? 10 text).map fun n => (n : Int)
  value.filter range.contains

/-- A number in a range, in decimal or behind `0x` in base 16. -/
def integer? (range : Range) : List Char → Option Int
  | '0' :: 'x' :: rest =>
    (((unsigned? 16 rest).map fun n => (n : Int)).filter Range.word.contains).filter range.contains
  | text => decimal? range text

end FormatScan.Text
