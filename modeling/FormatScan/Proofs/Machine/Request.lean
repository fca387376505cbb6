import FormatScan.Proofs.Machine.Set
import FormatScan.Proofs.Scan.Steps

/-!
# Reading scanning directives

The directive behind a percent sign is read by position, with a width that stays at
the largest word. A scan set is compiled into a table that is kept beside the
directive: the directive then tells only that there is a set.
-/

namespace FormatScan.Machine

open Scan

/-- A directive that was read. -/
structure Request where
  /-- The directive, where a scan set is left empty. -/
  directive : Directive
  /-- The scan set, if there is one. -/
  table : Table
  /-- The position behind the directive. -/
  next : Nat

/-- Read the directive behind a percent sign, from what its modifiers amount to so far.
There is none when the format ends first. -/
def readRequest (format : Bytes) (i : Nat) (directive : Directive) :
    Checked (Except FormatError (Option Request)) :=
  let c := byteAt format i
  if c == 0 then .ok (.ok none)
  else reach format (i + 1) fun _ =>
    if c == 0x2A then readRequest format (i + 1) { directive with suppressed := true }
    else if Byte.isDigit c then do
      let digit ← sub c.toNat 0x30
      let width := Word.satAdd (min (directive.width * 10) Word.largest) digit
      readRequest format (i + 1) { directive with width := width }
    else
      match LengthLetter.ofByte? c with
      | some letter =>
        readRequest format (i + 1) { directive with length := directive.length.addForTarget letter }
      | none =>
        if c == 0x5B then do
          let compiled ← compile format (i + 1)
          return compiled.2.map fun next =>
            some ⟨{ directive with conversion := .set .empty }, compiled.1, next⟩
        else .ok (.ok (some ⟨{ directive with conversion := .ofByte c }, [], i + 1⟩))
termination_by format.length - i

/-- A conversion without the members of its set. -/
def bare : Conversion → Conversion
  | .set _ => .set .empty
  | conversion => conversion

/-- A request stands for a directive, and its table for the set. -/
structure Request.Tells (request : Request) (directive : Directive) : Prop where
  /-- The directive is the same but for the members of its set. -/
  directive_eq : request.directive = { directive with conversion := bare directive.conversion }
  /-- The table tells which bytes are in the set. -/
  accepts_eq : ∀ set, directive.conversion = .set set →
    ∀ c, accepts request.table c = .ok (set.contains c)

/-- What reading a directive by position comes to. -/
inductive Reads (format : Bytes) :
    Directive.Outcome → Checked (Except FormatError (Option Request)) → Prop where
  /-- The format ends inside the directive. -/
  | cut : Reads format .cut (.ok (.ok none))
  /-- The format ends inside a scan set. -/
  | openSet (after : Bytes) : Reads format (.openSet after)
      (.ok (.error (.unterminatedScanSet (format.length - after.length))))
  /-- There is a directive, and it stops in front of the rest. -/
  | read (request : Request) {directive : Directive} {after : Bytes}
      (htells : request.Tells directive) (hnext : request.next = format.length - after.length) :
      Reads format (.read directive after) (.ok (.ok (some request)))

/-- A sum that stays at the largest word may do so at every step. -/
theorem satAdd_width (width digit : Nat) :
    Word.satAdd (min (width * 10) Word.largest) digit = min (width * 10 + digit) Word.largest := by
  unfold Word.satAdd
  omega

/-- A byte names no conversion with a set. -/
theorem ofByte_ne_set (c : UInt8) (set : ScanSet) : Conversion.ofByte c ≠ .set set := by
  unfold Conversion.ofByte
  split <;> exact fun h => by cases h

/-- A conversion without a set is told as it is. -/
theorem bare_eq {conversion : Conversion} (h : ∀ set, conversion ≠ .set set) :
    bare conversion = conversion := by
  cases conversion with
  | set set => exact absurd rfl (h set)
  | _ => rfl

/-- Reading a directive meets no fault, and comes to what the directive says. -/
theorem reads_readRequest {format rest : Bytes} {i : Nat} (hfits : Fits format)
    (h : At format i rest) (directive : Directive) :
    Reads format (Directive.readFrom directive rest) (readRequest format i directive) := by
  induction rest generalizing i directive with
  | nil =>
    rw [readRequest, h.byteAt_nil, if_pos (by rfl), Directive.readFrom]
    exact Reads.cut
  | cons c rest ih =>
    rw [readRequest, h.byteAt_eq, Directive.readFrom, h.next.reach_eq hfits]
    by_cases hz : (c == 0) = true
    · rw [if_pos hz, if_pos hz]
      exact Reads.cut
    rw [if_neg hz, if_neg hz]
    by_cases hstar : (c == 0x2A) = true
    · rw [if_pos hstar, if_pos hstar]
      exact ih h.next _
    rw [if_neg hstar, if_neg hstar]
    by_cases hdigit : Byte.isDigit c = true
    · rw [if_pos hdigit, if_pos hdigit, sub_eq (toNat_of_isDigit hdigit).1, ok_bind, satAdd_width]
      exact ih h.next _
    rw [if_neg hdigit, if_neg hdigit]
    cases LengthLetter.ofByte? c with
    | some letter => exact ih h.next _
    | none =>
      dsimp only
      by_cases hbracket : (c == 0x5B) = true
      · obtain ⟨table, hcompile, hholds⟩ := exists_compile hfits h.next
        rw [if_pos hbracket, if_pos hbracket, hcompile, ok_bind]
        cases (ScanSet.read rest).ending with
        | unterminated after => exact Reads.openSet after
        | closed after =>
          refine Reads.read ⟨_, table, _⟩ ⟨rfl, fun set hset => ?_⟩ rfl
          cases hset
          exact hholds.accepts_eq
      · have hnone : ∀ set, Conversion.ofByte c ≠ .set set := ofByte_ne_set c
        rw [if_neg hbracket, if_neg hbracket]
        refine Reads.read ⟨_, [], i + 1⟩ ⟨?_, fun set hset => absurd hset (hnone set)⟩ h.next.eq_sub
        dsimp only
        rw [bare_eq hnone]

end FormatScan.Machine
