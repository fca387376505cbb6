import FormatScan.Proofs.Format.Modifiers
import Mathlib.Data.List.Induction

/-!
# Length letters by number

A second `h` and a second `l` trade one flag for another, so the letters of a
directive cannot be read as a set. They can be read as a multiset: each flag is
settled by how often its letter occurs, and the order of the letters is nothing to it.
The first `h` is traded by the second one and set again by the third, which makes
short a matter of parity, while the flag it was traded for is never taken back.

With the flags in this form a width is the first one of a list whose flag is set. The
scanner adds letters up as the formatter does once `j`, `t` and `z` are taken for `q`.
-/

namespace FormatScan

/-- The byte that a length letter is written as. -/
def LengthLetter.byte : LengthLetter → UInt8
  | h => 0x68
  | l => 0x6C
  | q => 0x71
  | j => 0x6A
  | t => 0x74
  | z => 0x7A

/-- A length letter is read off the one byte that it is written as. -/
theorem LengthLetter.ofByte?_eq_some {c : UInt8} {letter : LengthLetter} :
    LengthLetter.ofByte? c = some letter ↔ c = letter.byte := by
  constructor
  · intro h
    have hbyte : ∀ d : UInt8, Byte.char c = Byte.char d → c = d := fun d => Format.eq_of_char_eq
    unfold LengthLetter.ofByte? at h
    split at h
    case h_1 hc => cases h; exact hbyte 0x68 hc
    case h_2 hc => cases h; exact hbyte 0x6C hc
    case h_3 hc => cases h; exact hbyte 0x71 hc
    case h_4 hc => cases h; exact hbyte 0x6A hc
    case h_5 hc => cases h; exact hbyte 0x74 hc
    case h_6 hc => cases h; exact hbyte 0x7A hc
    case h_7 => cases h
  · rintro rfl
    cases letter <;> decide

/-- A text has as many length letters of a kind as bytes that write it. -/
theorem count_letters (text : Bytes) (letter : LengthLetter) :
    (text.filterMap LengthLetter.ofByte?).count letter = text.count letter.byte := by
  rw [List.count_filterMap, List.count_eq_countP]
  refine List.countP_congr fun c _ => ?_
  rw [beq_iff_eq, beq_iff_eq]
  exact LengthLetter.ofByte?_eq_some

/-- The first width of a list whose flag is set, and that of an `int` when none is. -/
def OperandWidth.firstSet : List (Bool × OperandWidth) → OperandWidth
  | [] => .int
  | (isSet, width) :: rest => if isSet then width else firstSet rest

namespace LengthFlags

/-- The flags that the letters of a directive set, by the number of each letter. -/
def ofCounts (count : LengthLetter → Nat) : LengthFlags where
  short := count .h % 2 == 1
  char := 2 ≤ count .h
  long := count .l % 2 == 1
  longLong := 0 < count .q || 2 ≤ count .l
  widest := 0 < count .j
  difference := 0 < count .t
  size := 0 < count .z

/-- One more letter adds one to its number. -/
theorem add_ofCounts (count : LengthLetter → Nat) (letter : LengthLetter) :
    (ofCounts count).add letter =
      ofCounts fun other => count other + if letter == other then 1 else 0 := by
  cases letter with
  | h =>
    rcases Nat.mod_two_eq_zero_or_one (count .h) with hparity | hparity
    · have hnext : (count .h + 1) % 2 = 1 := by omega
      have hmore : 2 ≤ count .h + 1 ↔ 2 ≤ count .h := by omega
      simp [ofCounts, add, hparity, hnext, hmore]
    · have hnext : (count .h + 1) % 2 = 0 := by omega
      have hmore : 1 ≤ count .h := by omega
      simp [ofCounts, add, hparity, hnext, hmore]
  | l =>
    rcases Nat.mod_two_eq_zero_or_one (count .l) with hparity | hparity
    · have hnext : (count .l + 1) % 2 = 1 := by omega
      have hmore : 2 ≤ count .l + 1 ↔ 2 ≤ count .l := by omega
      simp [ofCounts, add, hparity, hnext, hmore]
    · have hnext : (count .l + 1) % 2 = 0 := by omega
      have hmore : 1 ≤ count .l := by omega
      simp [ofCounts, add, hparity, hnext, hmore]
  | q | j | t | z => simp [ofCounts, add]

/-- Adding letters up gives the flags of their numbers. -/
theorem foldl_add (letters : List LengthLetter) :
    letters.foldl add {} = ofCounts fun letter => letters.count letter := by
  -- The last letter is added to the flags of those in front, so the list is taken from its end.
  induction letters using List.reverseRecOn with
  | nil => rfl
  | append_singleton letters letter ih =>
    rw [List.foldl_append, List.foldl_cons, List.foldl_nil, ih, add_ofCounts]
    congr 1
    funext other
    rw [List.count_append, List.count_singleton]

/-- Two letters may be added in either order. -/
theorem add_swap (flags : LengthFlags) (first second : LengthLetter) :
    (flags.add first).add second = (flags.add second).add first := by
  obtain ⟨short, char, long, longLong, widest, difference, size⟩ := flags
  cases first <;> cases second <;> cases short <;> cases long <;> rfl

end LengthFlags

/-- What the scanner takes a length letter for. -/
def LengthLetter.folded : LengthLetter → LengthLetter
  | h => h
  | l => l
  | q | j | t | z => q

namespace LengthFlags

/-- The scanner adds a letter as what it takes it for. -/
theorem addForTarget_eq (flags : LengthFlags) (letter : LengthLetter) :
    flags.addForTarget letter = flags.add letter.folded := by
  cases letter <;> rfl

/-- The number of each letter once the others are taken for `q`. -/
def foldedCount (count : LengthLetter → Nat) : LengthLetter → Nat
  | .h => count .h
  | .l => count .l
  | .q => count .q + count .j + count .t + count .z
  | .j | .t | .z => 0

/-- Taking letters for others adds up their numbers. -/
theorem count_map_folded (letters : List LengthLetter) (letter : LengthLetter) :
    (letters.map LengthLetter.folded).count letter =
      foldedCount (fun other => letters.count other) letter := by
  induction letters with
  | nil => cases letter <;> rfl
  | cons first letters ih =>
    rw [List.map_cons, List.count_cons, ih]
    cases letter <;> cases first <;> simp +arith [foldedCount, LengthLetter.folded]

/-- Adding letters up as the scanner does gives the flags of their numbers. -/
theorem foldl_addForTarget (letters : List LengthLetter) :
    letters.foldl addForTarget {} =
      ofCounts (foldedCount fun letter => letters.count letter) := by
  have hadd : addForTarget = fun flags letter => flags.add letter.folded := by
    funext flags letter
    exact addForTarget_eq flags letter
  rw [hadd, ← List.foldl_map, foldl_add]
  congr 1
  funext letter
  exact count_map_folded letters letter

/-- The width of a formatter operand is the first one set in the order `j`, `q`, `t`,
`l`, `z`, `h`, `hh`. -/
theorem forOperand_eq (flags : LengthFlags) :
    flags.forOperand = OperandWidth.firstSet
      [(flags.widest, .widest), (flags.longLong, .longLong), (flags.difference, .difference),
        (flags.long, .long), (flags.size, .size), (flags.short, .short), (flags.char, .char)] :=
  rfl

/-- The width of a count that the formatter stores is the first one set in the same
order without `t`. -/
theorem forCount_eq (flags : LengthFlags) :
    flags.forCount = OperandWidth.firstSet
      [(flags.widest, .widest), (flags.longLong, .longLong), (flags.long, .long),
        (flags.size, .size), (flags.short, .short), (flags.char, .char)] :=
  rfl

/-- The width of a scanner target is the first one set in the order `hh`, `h`, `l`,
`q`. -/
theorem forTarget_eq (flags : LengthFlags) :
    flags.forTarget = OperandWidth.firstSet
      [(flags.char, .char), (flags.short, .short), (flags.long, .long),
        (flags.longLong, .longLong)] :=
  rfl

end LengthFlags

end FormatScan
