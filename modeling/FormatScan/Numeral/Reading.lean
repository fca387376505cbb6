import FormatScan.Byte
import FormatScan.Word

/-!
# Reading numbers in a base

A number text is a run of blanks, an optional sign, an optional `0x` when the
base allows one, and a run of digits below the base. Reading starts at the front
of a text and stops at the first byte that does not belong to the number, a zero
byte among them. The sum of the digits is kept within a limit: the first digit
that would carry it over marks an overflow, and the digits after that are passed
over. A text without digits has the value zero and consumes nothing.
-/

namespace FormatScan.Numeral

/-- A sum of digits that never exceeds its limit. -/
structure Total where
  /-- The digits added so far, up to the overflow. -/
  value : Nat
  /-- Whether some digit did not fit any more. -/
  overflow : Bool
deriving DecidableEq, Repr

/-- Add one digit in a base under a limit. The test for room comes before the
sum, so that no intermediate value exceeds the limit. -/
def Total.add (limit base : Nat) (total : Total) (digit : Nat) : Total :=
  let cutoff := limit / base
  let lastDigit := limit % base
  if total.overflow || cutoff < total.value || (total.value == cutoff && lastDigit < digit) then
    { total with overflow := true }
  else ⟨total.value * base + digit, false⟩

/-- The values of the leading digits below a base, and what follows them. -/
def digitRun (base : Nat) : Bytes → List Nat × Bytes
  | [] => ([], [])
  | c :: rest =>
    match Byte.digitValue? c with
    | some d =>
      if d < base then
        let run := digitRun base rest
        (d :: run.1, run.2)
      else ([], c :: rest)
    | none => ([], c :: rest)

/-- Whether a minus sign leads the text, and the text after its sign, if any. -/
def readSign : Bytes → Bool × Bytes
  | 0x2D :: rest => (true, rest)
  | 0x2B :: rest => (false, rest)
  | text => (false, text)

/-- Whether a text starts with `0x` or `0X`. -/
def hexMarked : Bytes → Bool
  | 0x30 :: 0x78 :: _ => true
  | 0x30 :: 0x58 :: _ => true
  | _ => false

/-- The base in force for the digits, and the text they start at. Base 0 stands
for the base that the text itself shows; a `0x` is passed over in bases 0 and
16, whether or not a digit follows it. -/
def readBase (base : Nat) (text : Bytes) : Nat × Bytes :=
  if (base == 0 || base == 16) && hexMarked text then (16, text.drop 2)
  else if base == 0 then (if text.head? == some 0x30 then 8 else 10, text)
  else (base, text)

/-- The outcome of reading the front of a text. -/
structure Reading where
  /-- The sum of the digits, kept within the limit of its sign. -/
  total : Total
  /-- Whether a minus sign was read. -/
  negative : Bool
  /-- The number of bytes that belong to the number, 0 when it has no digits. -/
  consumed : Nat
deriving DecidableEq, Repr

/-- The outcome for a text that shows no number. -/
def Reading.none : Reading := ⟨⟨0, false⟩, false, 0⟩

/-- Read a number in base 0 or 2 to 36; `limit` gives the largest magnitude for
either sign. Any other base reads nothing. -/
def read (base : Nat) (limit : Bool → Nat) (text : Bytes) : Reading :=
  if base == 1 || 36 < base then .none
  else
    let signed := readSign (text.dropWhile Byte.isSpace)
    let based := readBase base signed.2
    let run := digitRun based.1 based.2
    if run.1.isEmpty then .none
    else
      ⟨run.1.foldl (Total.add (limit signed.1) based.1) ⟨0, false⟩, signed.1,
        text.length - run.2.length⟩

/-- A number as a decoder returns it. -/
structure Decoded (α : Type) where
  /-- The number in range. -/
  value : α
  /-- The offset one past the last byte of the number, 0 when there is none. -/
  finish : Nat
deriving DecidableEq, Repr

/-- Decode a signed word of 64 bits. A number out of range becomes the bound on
its side. -/
def decodeSigned (text : Bytes) (base : Nat) : Decoded Int64 :=
  let reading := read base (fun negative => if negative then Quad.halfCount else Quad.halfCount - 1) text
  let value : Int :=
    if reading.total.overflow then if reading.negative then Quad.least else Quad.greatest
    else if reading.negative then -(reading.total.value : Int)
    else reading.total.value
  ⟨Int64.ofInt value, reading.consumed⟩

/-- Decode an unsigned word of a given number of bits. A minus sign negates
within the word, and a number out of range becomes the largest word whatever its
sign. -/
def decodeWord (bits : Nat) (text : Bytes) (base : Nat) : Decoded Nat :=
  let reading := read base (fun _ => Word.count bits - 1) text
  let value : Nat :=
    if reading.total.overflow then Word.count bits - 1
    else if reading.negative then (Word.count bits - reading.total.value) % Word.count bits
    else reading.total.value
  ⟨value, reading.consumed⟩

/-- Decode an unsigned number of 64 bits. -/
def decodeUnsigned (text : Bytes) (base : Nat) : Decoded UInt64 :=
  let decoded := decodeWord 64 text base
  ⟨UInt64.ofNat decoded.value, decoded.finish⟩

/-- Decode an unsigned machine word, which has 64 bits. -/
def decodeMachineWord (text : Bytes) (base : Nat) : Decoded UInt64 :=
  decodeUnsigned text base

end FormatScan.Numeral
