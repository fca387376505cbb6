import FormatScan.Proofs.Text.Delimited
import FormatScan.Text.Integer

/-!
# Integers that settings spell

A number is spelled by digits, the last one of least weight; zeros in front make no
difference, and letters may be of either case. A setting spells an integer in decimal, with
a plus or a minus in front, or behind `0x` in base 16. Every spelling of an integer in the
range is read as that integer, and every spelling of one outside of it is refused. So the
notation makes no difference.
-/

namespace FormatScan.Text

/-- A character is the digit for a value below 16, in either case. -/
def IsDigit (c : Char) (d : Nat) : Prop :=
  d < 16 ∧ (c = Nat.digitChar d ∨ c = (Nat.digitChar d).toUpper)

/-- A run of digits in a base spells a number. -/
inductive SpellsNumber (base : Nat) : List Char → Nat → Prop
  /-- A digit spells its value. -/
  | single {c : Char} {d : Nat} (hc : IsDigit c d) (hd : d < base) : SpellsNumber base [c] d
  /-- A digit behind others has the least weight. -/
  | snoc {digits : List Char} {n : Nat} {c : Char} {d : Nat} (hn : SpellsNumber base digits n)
      (hc : IsDigit c d) (hd : d < base) : SpellsNumber base (digits ++ [c]) (n * base + d)

/-- A setting spells an integer. Where the range has no negative numbers, a minus stands for
one that is out of range, and zero is spelled without it. -/
inductive SpellsInteger (range : Range) : List Char → Int → Prop
  /-- In decimal. -/
  | decimal {digits : List Char} {n : Nat} (h : SpellsNumber 10 digits n) :
      SpellsInteger range digits n
  /-- In decimal behind a plus. -/
  | plus {digits : List Char} {n : Nat} (h : SpellsNumber 10 digits n) :
      SpellsInteger range ('+' :: digits) n
  /-- In decimal behind a minus. -/
  | minus {digits : List Char} {n : Nat} (h : SpellsNumber 10 digits n)
      (hsign : range.least < 0 ∨ 0 < n) : SpellsInteger range ('-' :: digits) (-n)
  /-- In base 16. -/
  | hex {digits : List Char} {n : Nat} (h : SpellsNumber 16 digits n) :
      SpellsInteger range ('0' :: 'x' :: digits) n
  /-- In base 16 with a plus. -/
  | hexPlus {digits : List Char} {n : Nat} (h : SpellsNumber 16 digits n) :
      SpellsInteger range ('0' :: 'x' :: '+' :: digits) n

/-! ## Reading digits -/

theorem IsDigit.digitValue? {c : Char} {d : Nat} (h : IsDigit c d) : digitValue? c = some d := by
  have hall : ∀ d < 16, Text.digitValue? (Nat.digitChar d) = some d ∧
      Text.digitValue? (Nat.digitChar d).toUpper = some d := by decide
  obtain ⟨hd, rfl | rfl⟩ := h
  · exact (hall d hd).1
  · exact (hall d hd).2

/-- A digit is no sign, and below ten it is no letter either. -/
theorem IsDigit.ne {c : Char} {d : Nat} (h : IsDigit c d) :
    c ≠ '+' ∧ c ≠ '-' ∧ (d < 10 → c ≠ 'x') := by
  have hlower : ∀ d < 16, Nat.digitChar d ≠ '+' ∧ Nat.digitChar d ≠ '-' ∧
      (d < 10 → Nat.digitChar d ≠ 'x') := by decide
  have hupper : ∀ d < 16, (Nat.digitChar d).toUpper ≠ '+' ∧ (Nat.digitChar d).toUpper ≠ '-' ∧
      (d < 10 → (Nat.digitChar d).toUpper ≠ 'x') := by decide
  obtain ⟨hd, rfl | rfl⟩ := h
  · exact hlower d hd
  · exact hupper d hd

theorem addDigits?_append (base : Nat) (first second : List Char) (n : Nat) :
    addDigits? base n (first ++ second) =
      (addDigits? base n first).bind fun m => addDigits? base m second := by
  induction first generalizing n with
  | nil => rfl
  | cons c first ih =>
    rw [List.cons_append, addDigits?, addDigits?]
    cases digitValue? c with
    | none => rfl
    | some d =>
      dsimp only
      split
      · exact ih _
      · rfl

theorem addDigits?_digit {base n d : Nat} {c : Char} (hc : IsDigit c d) (hd : d < base) :
    addDigits? base n [c] = some (n * base + d) := by
  simp [addDigits?, hc.digitValue?, hd]

namespace SpellsNumber

variable {base n : Nat} {digits : List Char}

theorem ne_nil (h : SpellsNumber base digits n) : digits ≠ [] := by
  cases h with
  | single => exact List.cons_ne_nil _ _
  | snoc => exact List.append_ne_nil_of_right_ne_nil _ (List.cons_ne_nil _ _)

/-- Every character of a spelled number is a digit of the base. -/
theorem isDigit (h : SpellsNumber base digits n) : ∀ c ∈ digits, ∃ d < base, IsDigit c d := by
  induction h with
  | single hc hd => exact List.forall_mem_singleton.mpr ⟨_, hd, hc⟩
  | snoc _ hc hd ih =>
    exact List.forall_mem_append.mpr ⟨ih, List.forall_mem_singleton.mpr ⟨_, hd, hc⟩⟩

/-- A spelled number is read. -/
theorem digits?_eq (h : SpellsNumber base digits n) : digits? base digits = some n := by
  have hadd : addDigits? base 0 digits = some n := by
    induction h with
    | single hc hd => rw [addDigits?_digit hc hd, Nat.zero_mul, Nat.zero_add]
    | snoc _ hc hd ih => rw [addDigits?_append, ih, Option.bind_some, addDigits?_digit hc hd]
  rw [digits?, if_neg (by simpa using h.ne_nil), hadd]

/-- Digits may have a sign in front, since they have none of their own. -/
theorem unsigned?_eq (h : SpellsNumber base digits n) :
    unsigned? base digits = some n ∧ unsigned? base ('+' :: digits) = some n := by
  refine ⟨?_, h.digits?_eq⟩
  rw [unsigned?.eq_2 _ _ fun rest heq => ?_]
  · exact h.digits?_eq
  · obtain ⟨d, -, hd⟩ := h.isDigit '+' (heq ▸ List.mem_cons_self)
    exact hd.ne.1 rfl

theorem signed?_eq (h : SpellsNumber 10 digits n) : signed? digits = some (n : Int) ∧
    signed? ('+' :: digits) = some (n : Int) ∧ signed? ('-' :: digits) = some (-(n : Int)) := by
  obtain ⟨hplain, hplus⟩ := h.unsigned?_eq
  have hminus : ∀ rest, digits ≠ '-' :: rest := by
    intro rest heq
    obtain ⟨d, -, hd⟩ := h.isDigit '-' (heq ▸ List.mem_cons_self)
    exact hd.ne.2.1 rfl
  refine ⟨?_, ?_, ?_⟩
  · rw [signed?.eq_2 _ fun rest heq => hminus rest heq, hplain]
    rfl
  · rw [signed?.eq_2 _ fun rest heq => absurd (List.cons.inj heq).1 (by decide), hplus]
    rfl
  · rw [signed?, h.digits?_eq]
    rfl

end SpellsNumber

/-! ## Reading integers -/

theorem Range.contains_iff {range : Range} {n : Int} :
    range.contains n = true ↔ range.least ≤ n ∧ n ≤ range.greatest := by
  rw [contains, Bool.and_eq_true, decide_eq_true_eq, decide_eq_true_eq]

section Reading

variable {range : Range} {text : List Char} {n : Int}

/-- What does not start like a number in base 16 is read in decimal. -/
theorem integer?_eq_decimal? (h : ∀ rest, text ≠ '0' :: 'x' :: rest) :
    integer? range text = decimal? range text := integer?.eq_2 _ _ fun rest heq => h rest heq

/-- A number that is read with a sign and without one is read in every range. -/
theorem decimal?_eq {n : Nat} (hsigned : signed? text = some (n : Int))
    (hunsigned : unsigned? 10 text = some n) :
    decimal? range text = if range.contains n then some (n : Int) else none := by
  unfold decimal?
  split
  · rw [hsigned]
    rfl
  · rw [hunsigned]
    rfl

/-- A number in base 16 has to be in the range of words, and then in the wanted one. -/
theorem integer?_hex {n : Nat} (hgreatest : range.greatest ≤ Word.largest)
    (h : unsigned? 16 text = some n) :
    integer? range ('0' :: 'x' :: text) = if range.contains n then some (n : Int) else none := by
  rw [integer?, h]
  change (Option.filter range.contains (if Range.word.contains n then some (n : Int) else none)) = _
  by_cases hword : Range.word.contains n = true
  · rw [if_pos hword]
    rfl
  · have hout : range.contains n = false := by
      have hlarge : ¬(n : Int) ≤ Word.largest := by
        simpa [Range.contains, Range.word] using hword
      rw [Range.contains, Bool.and_eq_false_iff]
      right
      exact decide_eq_false fun hle => hlarge (Int.le_trans hle hgreatest)
    rw [if_neg hword, hout]
    rfl

/-- An integer in the range is read from each of its spellings, and from those of any other
integer none is read. -/
theorem SpellsInteger.integer?_eq (h : SpellsInteger range text n)
    (hgreatest : range.greatest ≤ Word.largest) :
    integer? range text = if range.contains n then some n else none := by
  have hsign : ∀ {sign : Char} {digits : List Char}, sign ≠ '0' → ∀ rest,
      sign :: digits ≠ '0' :: 'x' :: rest := fun hne _ heq => hne (List.cons.inj heq).1
  cases h with
  | decimal h =>
    have hhex : ∀ rest, text ≠ '0' :: 'x' :: rest := by
      intro rest heq
      obtain ⟨d, hlt, hd⟩ := h.isDigit 'x' (heq ▸ List.mem_cons_of_mem _ List.mem_cons_self)
      exact hd.ne.2.2 hlt rfl
    rw [integer?_eq_decimal? hhex]
    exact decimal?_eq h.signed?_eq.1 h.unsigned?_eq.1
  | plus h =>
    rw [integer?_eq_decimal? (hsign (by decide))]
    exact decimal?_eq h.signed?_eq.2.1 h.unsigned?_eq.2
  | @minus digits n h hminus =>
    rw [integer?_eq_decimal? (hsign (by decide)), decimal?]
    by_cases hrange : range.least < 0
    · rw [if_pos hrange, h.signed?_eq.2.2]
      rfl
    · have hout : ¬range.contains (-(n : Int)) = true := by
        rw [Range.contains_iff]
        omega
      rw [if_neg hrange, if_neg hout]
      rfl
  | hex h => exact integer?_hex hgreatest h.unsigned?_eq.1
  | hexPlus h => exact integer?_hex hgreatest h.unsigned?_eq.2

end Reading

/-! ## The usual spellings -/

theorem isDigit_digitChar {d : Nat} (h : d < 16) : IsDigit (Nat.digitChar d) d := ⟨h, .inl rfl⟩

theorem isDigit_hexDigit {d : Nat} (h : d < 16) : IsDigit (hexDigit d) d := by
  have hall : ∀ d < 16, hexDigit d = Nat.digitChar d := by decide
  exact ⟨h, .inl (hall d h)⟩

/-- The decimal digits of a number spell it. -/
theorem spellsNumber_toDigits (n : Nat) : SpellsNumber 10 (Nat.toDigits 10 n) n := by
  induction n using Nat.strongRecOn with
  | ind n ih =>
    rw [Nat.toDigits_eq_if (by decide)]
    split
    case isTrue h => exact .single (isDigit_digitChar (by omega)) h
    case isFalse h =>
      have hlast : n % 10 < 10 := Nat.mod_lt n (by decide)
      have hsnoc := (ih (n / 10) (by omega)).snoc (isDigit_digitChar (by omega)) hlast
      rwa [Nat.div_add_mod'] at hsnoc

/-- The digits of a number in base 16 spell it. -/
theorem spellsNumber_hexText (n : Nat) : SpellsNumber 16 (hexText n) n := by
  fun_induction hexText n with
  | case1 n h => exact .single (isDigit_hexDigit h) h
  | case2 n h ih =>
    have hlast : n % 16 < 16 := Nat.mod_lt n (by decide)
    have hsnoc := ih.snoc (isDigit_hexDigit hlast) hlast
    rwa [Nat.div_add_mod'] at hsnoc

/-- The two digits of a byte spell it. -/
theorem spellsNumber_hexPair (c : UInt8) : SpellsNumber 16 (hexPair c) c.toNat := by
  have hlt := c.toNat_lt
  have hhigh : c.toNat / 16 < 16 := by omega
  have hlow : c.toNat % 16 < 16 := Nat.mod_lt _ (by decide)
  have hfirst : SpellsNumber 16 [hexDigit (c.toNat / 16)] (c.toNat / 16) :=
    .single (isDigit_hexDigit hhigh) hhigh
  have hsnoc := hfirst.snoc (isDigit_hexDigit hlow) hlow
  rwa [Nat.div_add_mod'] at hsnoc

/-- An integer is spelled as it is written. -/
theorem spellsInteger_toString (range : Range) (n : Int) :
    SpellsInteger range (toString n).toList n := by
  rw [toList_integer]
  by_cases hn : 0 ≤ n
  · rw [if_pos hn]
    have hspells : SpellsInteger range (Nat.toDigits 10 n.toNat) n.toNat :=
      .decimal (spellsNumber_toDigits n.toNat)
    rwa [Int.toNat_of_nonneg hn] at hspells
  · rw [if_neg hn]
    have hspells : SpellsInteger range ('-' :: Nat.toDigits 10 (-n).toNat) (-(-n).toNat) :=
      .minus (spellsNumber_toDigits (-n).toNat) (.inr (by omega))
    rwa [Int.toNat_of_nonneg (by omega), Int.neg_neg] at hspells

end FormatScan.Text
