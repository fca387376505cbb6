import FormatScan.Numeral.Digits
import FormatScan.Numeral.Reading

/-!
# The value of a run of digits

A run of digits in a base has an exact value, however long it is. The digits
that are written for a number have that number as their value, and a sum of
digits kept within a limit is the value as long as the value is within the
limit. Both engines meet in this value: one writes its digits, the other adds
them up.
-/

namespace FormatScan

namespace Byte

/-- Whether a byte is a digit below a base. -/
def isDigitBelow (base : Nat) (c : UInt8) : Bool := (digitValue? c).any (· < base)

/-- The value of a byte as a digit, 0 for a byte that is none. -/
def digitOf (c : UInt8) : Nat := (digitValue? c).getD 0

/-- Blanks, signs and the zero byte are digits in no base. -/
theorem digitValue?_eq_none {c : UInt8} (h : isSpace c = true ∨ c = 0 ∨ c = 0x2B ∨ c = 0x2D) :
    digitValue? c = none := by
  unfold digitValue? isDigit isUpper isLower
  simp only [isSpace, Bool.or_eq_true, Bool.and_eq_true, beq_iff_eq, decide_eq_true_eq,
    UInt8.le_iff_toNat_le, ← UInt8.toNat_inj, UInt8.reduceToNat] at h ⊢
  rw [if_neg, if_neg, if_neg] <;> omega

/-- A digit is neither blank, nor zero, nor a sign. -/
theorem class_of_isDigitBelow {base : Nat} {c : UInt8} (h : isDigitBelow base c = true) :
    isSpace c = false ∧ c ≠ 0 ∧ c ≠ 0x2B ∧ c ≠ 0x2D := by
  have hn : ¬(isSpace c = true ∨ c = 0 ∨ c = 0x2B ∨ c = 0x2D) := by
    intro hc
    rw [isDigitBelow, digitValue?_eq_none hc] at h
    exact absurd h Bool.false_ne_true
  simpa only [not_or, Bool.not_eq_true] using hn

/-- A digit below a base has its value below that base. -/
theorem digitOf_lt {base : Nat} {c : UInt8} (h : isDigitBelow base c = true) :
    digitOf c < base := by
  unfold isDigitBelow at h
  unfold digitOf
  cases hd : digitValue? c with
  | none =>
    rw [hd] at h
    exact absurd h Bool.false_ne_true
  | some d =>
    rw [hd] at h
    exact of_decide_eq_true h

end Byte

namespace Numeral

/-- The byte for a digit reads back as that digit, in either case. -/
theorem digitValue?_digitByte (upper : Bool) {d : Nat} (hd : d < 36) :
    Byte.digitValue? (digitByte upper d) = some d := by
  revert upper d
  decide +kernel

/-- The byte for a digit below a base is one. -/
theorem isDigitBelow_digitByte (upper : Bool) {base d : Nat} (hb : base ≤ 36) (hd : d < base) :
    Byte.isDigitBelow base (digitByte upper d) = true := by
  rw [Byte.isDigitBelow, digitValue?_digitByte upper (by omega)]
  exact decide_eq_true hd

/-- The exact value of a run of digits in a base, the most significant digit
first. -/
def runValue (base : Nat) (run : Bytes) : Nat :=
  run.foldl (fun value c => value * base + Byte.digitOf c) 0

/-- A digit behind a run multiplies its value by the base. -/
theorem runValue_concat (base : Nat) (run : Bytes) (c : UInt8) :
    runValue base (run ++ [c]) = runValue base run * base + Byte.digitOf c := by
  rw [runValue, List.foldl_append]
  rfl

/-- The digits of a number, the last one split off. -/
theorem digits_eq {base : Nat} (hb : 2 ≤ base) (upper : Bool) (n : Nat) :
    digits base upper n =
      if n < base then [digitByte upper n]
      else digits base upper (n / base) ++ [digitByte upper (n % base)] := by
  unfold digits
  rw [leastFirst]
  by_cases hn : n < base
  · rw [dif_neg (by omega), if_pos hn]
    rfl
  · rw [dif_pos (by omega), if_neg hn, List.reverse_cons]

/-- Every number has a digit. -/
theorem digits_ne_nil {base : Nat} (hb : 2 ≤ base) (upper : Bool) (n : Nat) :
    digits base upper n ≠ [] := by
  rw [digits_eq hb]
  split <;> simp

/-- All digits of a number are digits below its base. -/
theorem isDigitBelow_of_mem_digits {base : Nat} (hb : 2 ≤ base) (hb' : base ≤ 36) (upper : Bool)
    (n : Nat) : ∀ c ∈ digits base upper n, Byte.isDigitBelow base c = true := by
  induction n using Nat.strongRecOn with
  | ind n ih =>
    intro c hc
    rw [digits_eq hb] at hc
    by_cases hn : n < base
    · rw [if_pos hn, List.mem_singleton] at hc
      rw [hc]
      exact isDigitBelow_digitByte upper hb' hn
    · rw [if_neg hn, List.mem_append, List.mem_singleton] at hc
      cases hc with
      | inl hc => exact ih (n / base) (Nat.div_lt_self (by omega) (by omega)) c hc
      | inr hc =>
        rw [hc]
        exact isDigitBelow_digitByte upper hb' (Nat.mod_lt n (by omega))

/-- The digits of a number have that number as their value. -/
theorem runValue_digits {base : Nat} (hb : 2 ≤ base) (hb' : base ≤ 36) (upper : Bool) (n : Nat) :
    runValue base (digits base upper n) = n := by
  induction n using Nat.strongRecOn with
  | ind n ih =>
    have hdigit : ∀ d < base, Byte.digitOf (digitByte upper d) = d := by
      intro d hd
      rw [Byte.digitOf, digitValue?_digitByte upper (by omega)]
      rfl
    rw [digits_eq hb]
    by_cases hn : n < base
    · rw [if_pos hn]
      have hc := runValue_concat base [] (digitByte upper n)
      rw [hdigit n hn] at hc
      simpa [runValue] using hc
    · have hi := ih (n / base) (Nat.div_lt_self (by omega) (by omega))
      rw [if_neg hn, runValue_concat, hi, hdigit _ (Nat.mod_lt n (by omega))]
      exact Nat.div_add_mod' n base

/-- The number of digits stays below a bound that the number respects. -/
theorem length_digits_le {base : Nat} (hb : 2 ≤ base) (upper : Bool) {n k : Nat}
    (hk : 0 < k) (hn : n < Nat.pow base k) : (digits base upper n).length ≤ k := by
  induction k generalizing n with
  | zero => omega
  | succ k ih =>
    have hpow : n < Nat.pow base k * base := hn
    rw [digits_eq hb]
    by_cases hs : n < base
    · rw [if_pos hs, List.length_singleton]
      omega
    · have hk' : 0 < k := by
        apply Nat.pos_of_ne_zero
        rintro rfl
        have hone : n < 1 * base := hpow
        omega
      have hdiv : n / base < Nat.pow base k := by
        rw [Nat.div_lt_iff_lt_mul (by omega)]
        exact hpow
      have hi := ih hk' hdiv
      rw [if_neg hs, List.length_append, List.length_singleton]
      omega

/-- A total is right for an exact value under a limit: it is that value within
the limit, and marked as an overflow beyond it. -/
structure Total.Counts (total : Total) (limit value : Nat) : Prop where
  /-- Within the limit nothing is lost. -/
  exact_of_le : value ≤ limit → total = ⟨value, false⟩
  /-- Beyond the limit the overflow is marked. -/
  overflow_of_lt : limit < value → total.overflow = true

/-- The test ahead of a sum decides whether the sum would be within the limit. -/
theorem Total.add_eq {limit base digit : Nat} (hd : digit < base) (value : Nat) :
    Total.add limit base ⟨value, false⟩ digit =
      if value * base + digit ≤ limit then ⟨value * base + digit, false⟩ else ⟨value, true⟩ := by
  have hsplit : limit / base * base + limit % base = limit := Nat.div_add_mod' limit base
  have hr : limit % base < base := Nat.mod_lt limit (by omega)
  unfold Total.add
  rcases Nat.lt_trichotomy value (limit / base) with hlt | heq | hgt
  · have hmul : (value + 1) * base ≤ limit / base * base := Nat.mul_le_mul_right base hlt
    rw [Nat.add_mul, Nat.one_mul] at hmul
    rw [if_pos (show value * base + digit ≤ limit by omega), if_neg]
    simp only [Bool.false_or, Bool.or_eq_true, Bool.and_eq_true, decide_eq_true_eq, beq_iff_eq]
    omega
  · have hmul : value * base + limit % base = limit := by
      rw [heq]
      exact hsplit
    by_cases hfit : digit ≤ limit % base
    · rw [if_pos (show value * base + digit ≤ limit by omega), if_neg]
      simp only [Bool.false_or, Bool.or_eq_true, Bool.and_eq_true, decide_eq_true_eq, beq_iff_eq]
      omega
    · rw [if_neg (show ¬value * base + digit ≤ limit by omega), if_pos]
      simp only [Bool.false_or, Bool.or_eq_true, Bool.and_eq_true, decide_eq_true_eq, beq_iff_eq]
      omega
  · have hmul : (limit / base + 1) * base ≤ value * base := Nat.mul_le_mul_right base hgt
    rw [Nat.add_mul, Nat.one_mul] at hmul
    rw [if_neg (show ¬value * base + digit ≤ limit by omega), if_pos]
    simp only [Bool.false_or, Bool.or_eq_true, Bool.and_eq_true, decide_eq_true_eq, beq_iff_eq]
    omega

/-- One more digit keeps a total right. -/
theorem Total.Counts.add {total : Total} {limit value base digit : Nat}
    (h : total.Counts limit value) (hd : digit < base) :
    (Total.add limit base total digit).Counts limit (value * base + digit) := by
  have hgrow : value ≤ value * base + digit :=
    Nat.le_trans (Nat.le_mul_of_pos_right value (by omega)) (Nat.le_add_right _ _)
  by_cases hin : value ≤ limit
  · rw [h.exact_of_le hin, Total.add_eq hd]
    constructor
    · intro hle
      rw [if_pos hle]
    · intro hlt
      rw [if_neg (by omega)]
  · have hover := h.overflow_of_lt (by omega)
    constructor
    · intro hle
      omega
    · intro _
      unfold Total.add
      rw [hover]
      rfl

/-- Adding up a run of digits gives its exact value within the limit. -/
theorem counts_foldl_add {limit base : Nat} {run : Bytes}
    (hr : ∀ c ∈ run, Byte.isDigitBelow base c = true) :
    ((run.map Byte.digitOf).foldl (Total.add limit base) ⟨0, false⟩).Counts limit
      (runValue base run) := by
  have hstep : ∀ (run : Bytes) (total : Total) (value : Nat),
      (∀ c ∈ run, Byte.isDigitBelow base c = true) → total.Counts limit value →
      ((run.map Byte.digitOf).foldl (Total.add limit base) total).Counts limit
        (run.foldl (fun value c => value * base + Byte.digitOf c) value) := by
    intro run
    induction run with
    | nil =>
      intro total value _ ht
      exact ht
    | cons c run ih =>
      intro total value hall ht
      rw [List.map_cons, List.foldl_cons, List.foldl_cons]
      exact ih _ _ (fun x hx => hall x (List.mem_cons_of_mem c hx))
        (ht.add (Byte.digitOf_lt (hall c List.mem_cons_self)))
  refine hstep run ⟨0, false⟩ 0 hr ⟨fun _ => rfl, fun h => ?_⟩
  omega

end Numeral

end FormatScan
