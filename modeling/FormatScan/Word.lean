/-!
# Machine words and saturation

Lengths are counted in unsigned words of 64 bits and widths in signed ones.
Counting never wraps: a sum that leaves the range stays at the nearest bound.
Words are described here by the numbers they hold, so the bounds are visible to
arithmetic.
-/

namespace FormatScan

namespace Word

/-- The number of words of some bits. -/
def count (bits : Nat) : Nat := Nat.pow 2 bits

/-- The largest unsigned word of 64 bits. -/
def largest : Nat := 18446744073709551615

/-- Addition of unsigned words that stays at the largest one. -/
def satAdd (a b : Nat) : Nat := min (a + b) largest

/-- The word that a signed or oversized number leaves in 64 bits. -/
def ofInt (n : Int) : UInt64 := UInt64.ofNat (n % (largest + 1)).toNat

end Word

namespace Quad

/-- The number of negative words, which is the magnitude of the least one. -/
def halfCount : Nat := 9223372036854775808

/-- The least signed word. -/
def least : Int := -9223372036854775808

/-- The greatest signed word. -/
def greatest : Int := 9223372036854775807

/-- The nearest signed word. -/
def clamp (n : Int) : Int := max least (min n greatest)

/-- Addition of signed words that stays at the bounds. -/
def satAdd (a b : Int) : Int := clamp (a + b)

/-- Subtraction of signed words that stays at the bounds. -/
def satSub (a b : Int) : Int := clamp (a - b)

end Quad

end FormatScan
