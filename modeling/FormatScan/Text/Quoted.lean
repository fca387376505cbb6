import FormatScan.Byte
import FormatScan.Text.Extending
import FormatScan.Text.Hex
import FormatScan.Text.Unprintable

/-!
# Quoted bytes and quoted strings

Bytes are shown as printable ASCII: three blanks, both quotes and the backslash
have an escape of one letter, and every other unprintable byte is shown by its
two hexadecimal digits. A string inside a diagnostic is shown between quotes,
with the characters escaped that show nothing of their own or that merge with
the one in front of them.
-/

namespace FormatScan.Text

/-- How a byte is shown. -/
def escapeByte (c : UInt8) : List Char :=
  if c == 0x09 then ['\\', 't']
  else if c == 0x0D then ['\\', 'r']
  else if c == 0x0A then ['\\', 'n']
  else if c == 0x27 then ['\\', '\'']
  else if c == 0x22 then ['\\', '"']
  else if c == 0x5C then ['\\', '\\']
  else if 0x20 ≤ c && c ≤ 0x7E then [Byte.char c]
  else '\\' :: 'x' :: hexPair c

/-- How a text of bytes is shown. -/
def escapeBytes (text : Bytes) : List Char := text.flatMap escapeByte

/-- How a character of a quoted string is shown. -/
def quoteChar (c : Char) : List Char :=
  if c == '"' then ['\\', '"']
  else if c == '\\' then ['\\', '\\']
  else if c == '\n' then ['\\', 'n']
  else if c == '\r' then ['\\', 'r']
  else if c == '\t' then ['\\', 't']
  else if c == '\x00' then ['\\', '0']
  else if extending.contains c || unprintable.contains c then
    ['\\', 'u', '{'] ++ hexText c.toNat ++ ['}']
  else [c]

/-- A quoted string. -/
def quoted (text : String) : String :=
  String.ofList ('"' :: text.toList.flatMap quoteChar ++ ['"'])

end FormatScan.Text
