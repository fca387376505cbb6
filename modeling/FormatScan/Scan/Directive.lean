import FormatScan.Length
import FormatScan.Scan.Set

/-!
# Scanning directives

A scanning directive is a percent sign, any number of modifiers in any order,
and one conversion byte; a scan set follows its bracket. Digits anywhere among
the modifiers join into the width. Reading a directive looks at the format
alone.
-/

namespace FormatScan.Scan

/-- The spelling of a number that a conversion accepts. -/
structure NumberFormat where
  /-- The base, or 0 when the text shows it. -/
  base : Nat
  /-- The number is decoded with a sign. -/
  signed : Bool
  /-- A leading `0x` belongs to the number. -/
  marked : Bool := false
  /-- The number is an address. -/
  pointer : Bool := false
deriving DecidableEq, Repr

/-- What a directive does with the input. -/
inductive Conversion where
  /-- Match a percent sign. -/
  | percent
  /-- Store the number of bytes read so far. -/
  | count
  /-- Take a number of bytes as they stand. -/
  | chars
  /-- Take bytes of a set. -/
  | set (set : ScanSet)
  /-- Take bytes up to a blank. -/
  | word
  /-- Take a number. -/
  | number (format : NumberFormat)
  /-- An unknown conversion: skip blanks and take nothing. -/
  | unknown
deriving DecidableEq, Repr

/-- A directive as it is read. -/
structure Directive where
  /-- A star was read: nothing is stored. -/
  suppressed : Bool := false
  /-- The length letters. -/
  length : LengthFlags := {}
  /-- The greatest number of bytes to take, or 0 for the conversion's own
  bound. -/
  width : Nat := 0
  /-- The conversion behind the modifiers. -/
  conversion : Conversion := .unknown
deriving DecidableEq, Repr

/-- How the reading of a directive ends. -/
inductive Directive.Outcome where
  /-- With a directive, and the format behind it. -/
  | read (directive : Directive) (rest : Bytes)
  /-- The format ends inside the directive. -/
  | cut
  /-- The format ends inside a scan set, with the format from there on. -/
  | openSet (rest : Bytes)
deriving DecidableEq, Repr

/-- The conversion that a byte stands for; a bracket is not among them. -/
def Conversion.ofByte (c : UInt8) : Conversion :=
  match Byte.char c with
  | '%' => .percent
  | 'd' => .number { base := 10, signed := true }
  | 'i' => .number { base := 0, signed := true }
  | 'o' => .number { base := 8, signed := false }
  | 'u' => .number { base := 10, signed := false }
  | 'x' => .number { base := 16, signed := false, marked := true }
  | 'p' => .number { base := 16, signed := false, marked := true, pointer := true }
  | 's' => .word
  | 'c' => .chars
  | 'n' => .count
  | _ => .unknown

/-- Read the directive behind a percent sign, from what its modifiers amount to
so far. A width stays within a machine word. -/
def Directive.readFrom (directive : Directive) : Bytes → Directive.Outcome
  | [] => .cut
  | c :: rest =>
    if c == 0 then .cut
    else if c == 0x2A then Directive.readFrom { directive with suppressed := true } rest
    else if Byte.isDigit c then
      let width := min (directive.width * 10 + (c.toNat - 0x30)) Word.largest
      Directive.readFrom { directive with width := width } rest
    else
      match LengthLetter.ofByte? c with
      | some letter =>
        Directive.readFrom { directive with length := directive.length.addForTarget letter } rest
      | none =>
        if c == 0x5B then
          let compiled := ScanSet.read rest
          match compiled.ending with
          | .closed after => .read { directive with conversion := .set compiled.set } after
          | .unterminated after => .openSet after
        else .read { directive with conversion := Conversion.ofByte c } rest

/-- Read the directive behind a percent sign. -/
def Directive.read (text : Bytes) : Directive.Outcome := Directive.readFrom {} text

/-- Reading a directive never adds to the format. -/
theorem Directive.length_le_of_readFrom {start directive : Directive} {text rest : Bytes}
    (h : Directive.readFrom start text = .read directive rest) : rest.length ≤ text.length := by
  induction text generalizing start with
  | nil => simp [Directive.readFrom] at h
  | cons c tail ih =>
    rw [Directive.readFrom] at h
    simp only [List.length_cons]
    split at h
    · simp at h
    split at h
    · have := ih h
      omega
    split at h
    · have := ih h
      omega
    split at h
    · have := ih h
      omega
    split at h
    · have bound := ScanSet.length_read_le tail
      dsimp only at h
      split at h
      · rename_i after hc
        cases h
        rw [hc] at bound
        simp only [ScanSet.Ending.rest] at bound
        omega
      · simp at h
    · cases h
      omega

end FormatScan.Scan
