import FormatScan.Byte

/-!
# Writing numbers in a base

A number is written in a base from 2 to 36 with the digits `0` to `9` and then
letters of one case. Digits come least significant first, as division yields
them; the scratch buffer keeps them in that order behind a zero byte, so that
walking it backwards from the last digit to the zero reads the number.
-/

namespace FormatScan.Numeral

/-- The byte that stands for a digit below 36. -/
def digitByte (upper : Bool) (d : Nat) : UInt8 :=
  if d < 10 then UInt8.ofNat (0x30 + d)
  else UInt8.ofNat ((if upper then 0x41 else 0x61) + (d - 10))

/-- The digits of a number, least significant first. Zero has the one digit
`0`. -/
def leastFirst (base : Nat) (upper : Bool) (n : Nat) : Bytes :=
  if _h : 2 ≤ base ∧ base ≤ n then
    digitByte upper (n % base) :: leastFirst base upper (n / base)
  else [digitByte upper n]
termination_by n
decreasing_by exact Nat.div_lt_self (Nat.lt_of_lt_of_le (by omega) _h.2) _h.1

/-- The digits of a number in reading order. -/
def digits (base : Nat) (upper : Bool) (n : Nat) : Bytes :=
  (leastFirst base upper n).reverse

/-- The size of a scratch buffer: the 64 binary digits of the largest word and
the zero byte in front of them. -/
def scratchSize : Nat := 65

/-- A scratch buffer after a number was written, and how many digits it has. -/
structure Scratch where
  /-- The number of digits written. -/
  length : Nat
  /-- The whole buffer: a zero byte, the digits least significant first, and
  behind them whatever was there before. -/
  buffer : Bytes

/-- Write a number at the front of a buffer, leaving the bytes behind it. -/
def writeScratch (buffer : Bytes) (base : Nat) (upper : Bool) (n : UInt64) : Scratch :=
  let written := leastFirst base upper n.toNat
  ⟨written.length, 0 :: written ++ buffer.drop (written.length + 1)⟩

/-- The digits in a scratch buffer, most significant first. -/
def Scratch.forward (scratch : Scratch) : Bytes :=
  ((scratch.buffer.drop 1).take scratch.length).reverse

end FormatScan.Numeral
