/-!
# Sets of characters

A large set of characters is given by the code points at which membership
changes. Below the first of them nothing is a member, from the first to the
second everything is, and so on in turn; the last change holds for all code
points above it.
-/

namespace FormatScan.Text

/-- A set of characters. -/
structure CharSet where
  /-- The code points at which membership changes, in increasing order. -/
  changes : List Nat
deriving DecidableEq, Repr

namespace CharSet

/-- Whether a code point is a member, when `inside` tells so for the code points
in front of the changes that are left. -/
def containsFrom (inside : Bool) (code : Nat) : List Nat → Bool
  | [] => inside
  | change :: rest => if code < change then inside else containsFrom (!inside) code rest

/-- Whether a character is a member. -/
def contains (set : CharSet) (c : Char) : Bool := containsFrom false c.toNat set.changes

end CharSet

end FormatScan.Text
