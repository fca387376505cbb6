/-!
# Hexadecimal digits

Numbers in base 16 are written with digits and lower-case letters.
-/

namespace FormatScan.Text

/-- The digit of a value below 16. -/
def hexDigit (n : Nat) : Char :=
  if n < 10 then Char.ofNat (0x30 + n) else Char.ofNat (0x61 + (n - 10))

/-- The two digits of a byte. -/
def hexPair (c : UInt8) : List Char := [hexDigit (c.toNat / 16), hexDigit (c.toNat % 16)]

/-- A number in base 16, without zeros in front. -/
def hexText (n : Nat) : List Char :=
  if n < 16 then [hexDigit n] else hexText (n / 16) ++ [hexDigit (n % 16)]
termination_by n
decreasing_by omega

end FormatScan.Text
