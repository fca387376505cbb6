import FormatScan.Length

/-!
# Formatting directives

A directive is a percent sign, any number of modifiers in any order, and one
conversion byte. Reading it looks at the format alone: which operands its stars
stand for is settled later. A directive that names no conversion, because its
byte is unknown or the format ends first, is invalid.
-/

namespace FormatScan.Format

/-- One modifier between the percent sign and the conversion. -/
inductive Modifier where
  /-- Pad on the right, written `-`. -/
  | left
  /-- Show the base of a number, written `#`. -/
  | alternate
  /-- Make the conversion `r` signed, written `+`. -/
  | plus
  /-- Pad with zeros, written `0` ahead of any dot. -/
  | zero
  /-- Read the amounts from here on as precisions, written `.`. -/
  | dot
  /-- Take an amount from the operands, written `*`. -/
  | star
  /-- A run of digits, with its value. -/
  | amount (value : Nat)
  /-- A length letter. -/
  | length (letter : LengthLetter)
deriving DecidableEq, Repr

/-- The modifier that a single byte stands for. -/
def Modifier.ofByte? (c : UInt8) : Option Modifier :=
  match Byte.char c with
  | '-' => some .left
  | '#' => some .alternate
  | '+' => some .plus
  | '0' => some .zero
  | '.' => some .dot
  | '*' => some .star
  | _ => (LengthLetter.ofByte? c).map .length

/-- What a directive does with its operand. -/
inductive Conversion where
  /-- Write a percent sign; there is no operand. -/
  | percent
  /-- Write one byte. -/
  | char
  /-- Write a signed number in a base. -/
  | signed (base : Nat)
  /-- Write an unsigned number in a base. -/
  | unsigned (base : Nat) (upper : Bool)
  /-- Write a decimal number, signed under `+` and unsigned otherwise. -/
  | decimal
  /-- Write an address in base 16. -/
  | pointer
  /-- Write a text. -/
  | text
  /-- Store the number of bytes produced so far. -/
  | count
  /-- No conversion was named. -/
  | invalid
deriving DecidableEq, Repr

/-- The conversion that a byte stands for. -/
def Conversion.ofByte (c : UInt8) : Conversion :=
  match Byte.char c with
  | '%' => .percent
  | 'c' => .char
  | 'd' => .signed 10
  | 'i' => .signed 10
  | 'y' => .signed 16
  | 'r' => .decimal
  | 'u' => .unsigned 10 false
  | 'o' => .unsigned 8 false
  | 'x' => .unsigned 16 false
  | 'X' => .unsigned 16 true
  | 'p' => .pointer
  | 's' => .text
  | 'n' => .count
  | _ => .invalid

/-- A directive as it is written. -/
structure Directive where
  /-- The modifiers in the order in which they are written. -/
  modifiers : List Modifier
  /-- The conversion behind them. -/
  conversion : Conversion
deriving DecidableEq, Repr

/-- Put one more modifier in front of a directive. -/
def Directive.cons (modifier : Modifier) (directive : Directive) : Directive :=
  { directive with modifiers := modifier :: directive.modifiers }

/-- The value of a run of decimal digits. -/
def amountOf (digits : Bytes) : Nat :=
  digits.foldl (fun value c => value * 10 + (c.toNat - 0x30)) 0

/-- Read the directive behind a percent sign, and what follows it. A zero ahead
of any dot is a modifier of its own; `dotted` says that a dot was read before.
A zero byte is not read. -/
def Directive.read (dotted : Bool) (text : Bytes) : Directive × Bytes :=
  match text with
  | [] => (⟨[], .invalid⟩, [])
  | c :: rest =>
    if c == 0 then (⟨[], .invalid⟩, c :: rest)
    else if Byte.isDigit c && (dotted || c != 0x30) then
      let run := c :: rest.takeWhile Byte.isDigit
      let after := Directive.read dotted (rest.dropWhile Byte.isDigit)
      (after.1.cons (.amount (amountOf run)), after.2)
    else
      match Modifier.ofByte? c with
      | some modifier =>
        let after := Directive.read (dotted || modifier == .dot) rest
        (after.1.cons modifier, after.2)
      | none => (⟨[], Conversion.ofByte c⟩, rest)
termination_by text.length
decreasing_by
  · simp only [List.length_cons]
    exact Nat.lt_succ_of_le (List.dropWhile_sublist Byte.isDigit).length_le
  · simp

/-- Reading a directive never adds to the format. -/
theorem Directive.length_read_le (dotted : Bool) (text : Bytes) :
    (Directive.read dotted text).2.length ≤ text.length := by
  fun_induction Directive.read dotted text with
  | case1 => simp
  | case2 => simp
  | case3 dotted c rest hz hd run after ih =>
    exact Nat.le_succ_of_le (Nat.le_trans ih (List.dropWhile_sublist Byte.isDigit).length_le)
  | case4 dotted c rest hz hd modifier hm after ih => exact Nat.le_succ_of_le ih
  | case5 => simp

end FormatScan.Format
