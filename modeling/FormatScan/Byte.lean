/-!
# Bytes and their classes

Texts are lists of raw bytes. Formats, inputs and operands carry no encoding of
their own, and a zero byte ends a text wherever one is read. The classes below
know the seven-bit letters, digits and blanks only; every byte from `0x80` on is
in none of them.
-/

namespace FormatScan

/-- A text or a buffer as raw bytes, of any length. No program can allocate more than
`2 ^ 63 - 1` bytes: it stops where a given size or a growing text asks for more. Such
lengths are outside the model, and what a definition yields for them tells nothing of
a run. -/
abbrev Bytes := List UInt8

/-- The bytes of a string in its UTF-8 form. -/
def bytesOf (text : String) : Bytes := text.toUTF8.toList

/-- A text up to its first zero byte, or all of it when there is none. -/
def untilZero (text : Bytes) : Bytes := text.takeWhile (· != 0)

namespace Byte

/-- Membership in the seven-bit range. -/
def isAscii (c : UInt8) : Bool := c < 0x80

/-- The letters `A` to `Z`. -/
def isUpper (c : UInt8) : Bool := 0x41 ≤ c && c ≤ 0x5A

/-- The letters `a` to `z`. -/
def isLower (c : UInt8) : Bool := 0x61 ≤ c && c ≤ 0x7A

/-- The letters of either case. -/
def isAlpha (c : UInt8) : Bool := isUpper c || isLower c

/-- The decimal digits. -/
def isDigit (c : UInt8) : Bool := 0x30 ≤ c && c ≤ 0x39

/-- The six blanks: space, tab, line feed, vertical tab, form feed and carriage
return. -/
def isSpace (c : UInt8) : Bool := c == 0x20 || (0x09 ≤ c && c ≤ 0x0D)

/-- The upper-case form of a lower-case letter; any other byte is kept. -/
def toUpper (c : UInt8) : UInt8 := if isLower c then c - 0x20 else c

/-- The value of a byte as a digit in bases up to 36: `0` to `9`, then the
letters of either case from 10 on. -/
def digitValue? (c : UInt8) : Option Nat :=
  if isDigit c then some (c.toNat - 0x30)
  else if isUpper c then some (c.toNat - 0x41 + 10)
  else if isLower c then some (c.toNat - 0x61 + 10)
  else none

/-- The character whose code point is the byte. Directive letters are compared
in this form. -/
def char (c : UInt8) : Char := Char.ofNat c.toNat

end Byte

end FormatScan
