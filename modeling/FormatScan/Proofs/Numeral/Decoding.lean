import FormatScan.Proofs.Numeral.Value

/-!
# What a decoder returns

A decoder finds the parts of a number text from the front: blanks, a sign, a
base mark and the longest run of digits. It returns the exact value of that run
with its sign, brought into the range of the word, and the place where the run
ends. A text without digits gives zero and consumes nothing.
-/

namespace FormatScan.Numeral

/-- The parts of a number text behind its blanks. -/
structure Parts where
  /-- A minus sign was read. -/
  negative : Bool
  /-- The base in force. -/
  base : Nat
  /-- The digits of the number. -/
  run : Bytes
  /-- The text behind the digits. -/
  rest : Bytes
deriving DecidableEq, Repr

/-- Find the parts of a text from its front. -/
def Parts.of (base : Nat) (text : Bytes) : Parts :=
  let signed := readSign (text.dropWhile Byte.isSpace)
  let based := readBase base signed.2
  ⟨signed.1, based.1, based.2.takeWhile (Byte.isDigitBelow based.1),
    based.2.dropWhile (Byte.isDigitBelow based.1)⟩

/-- A magnitude with its sign. -/
def signedBy (negative : Bool) (magnitude : Nat) : Int :=
  if negative then -(magnitude : Int) else magnitude

/-- The unsigned word for a sign and a magnitude: a magnitude out of range
becomes the largest word, and a minus sign negates within the word. -/
def wordOf (negative : Bool) (magnitude : Nat) : UInt64 :=
  if Word.largest < magnitude then UInt64.ofNat Word.largest
  else Word.ofInt (signedBy negative magnitude)

/-- The signed word for a sign and a magnitude: the nearest one. -/
def quadOf (negative : Bool) (magnitude : Nat) : Int64 :=
  Int64.ofInt (Quad.clamp (signedBy negative magnitude))

/-- An unsigned word comes back from its number. -/
theorem wordOf_toNat (value : UInt64) : wordOf false value.toNat = value := by
  have hlt := value.toNat_lt
  have hle : ¬Word.largest < value.toNat := by
    unfold Word.largest
    omega
  have hmod : (signedBy false value.toNat % (Word.largest + 1)).toNat = value.toNat := by
    unfold signedBy Word.largest
    rw [if_neg (by decide)]
    omega
  rw [wordOf, if_neg hle, Word.ofInt, hmod, UInt64.ofNat_toNat]

/-- Reading the leading digits splits a text where the digits end. -/
theorem digitRun_eq (base : Nat) (text : Bytes) :
    digitRun base text =
      ((text.takeWhile (Byte.isDigitBelow base)).map Byte.digitOf,
        text.dropWhile (Byte.isDigitBelow base)) := by
  induction text with
  | nil => rfl
  | cons c rest ih =>
    rw [digitRun]
    cases hd : Byte.digitValue? c with
    | none =>
      have hc : ¬Byte.isDigitBelow base c = true := by
        rw [Byte.isDigitBelow, hd]
        exact Bool.false_ne_true
      rw [List.takeWhile_cons_of_neg hc, List.dropWhile_cons_of_neg hc]
      rfl
    | some d =>
      have hbelow : Byte.isDigitBelow base c = decide (d < base) := by
        rw [Byte.isDigitBelow, hd]
        rfl
      have hvalue : Byte.digitOf c = d := by
        rw [Byte.digitOf, hd]
        rfl
      by_cases hlt : d < base
      · have hc : Byte.isDigitBelow base c = true := by
          rw [hbelow]
          exact decide_eq_true hlt
        dsimp only
        rw [if_pos hlt, ih, List.takeWhile_cons_of_pos hc, List.dropWhile_cons_of_pos hc,
          List.map_cons, hvalue]
      · have hc : ¬Byte.isDigitBelow base c = true := by
          rw [hbelow]
          simpa using hlt
        dsimp only
        rw [if_neg hlt, List.takeWhile_cons_of_neg hc, List.dropWhile_cons_of_neg hc]
        rfl

section Bases

variable {base : Nat}

/-- A text without digits shows no number. -/
theorem read_of_run_nil (limit : Bool → Nat) {text : Bytes}
    (hr : (Parts.of base text).run = []) : read base limit text = .none := by
  unfold read
  split
  · rfl
  · dsimp only
    rw [digitRun_eq, if_pos]
    dsimp only [Parts.of] at hr
    rw [hr]
    rfl

/-- A text with digits shows the sum of these under the limit of its sign, and
ends where they do. -/
theorem exists_read_of_run (h1 : base ≠ 1) (h36 : base ≤ 36) (limit : Bool → Nat) {text : Bytes}
    (hr : (Parts.of base text).run ≠ []) :
    ∃ total : Total,
      total.Counts (limit (Parts.of base text).negative)
        (runValue (Parts.of base text).base (Parts.of base text).run) ∧
      read base limit text =
        ⟨total, (Parts.of base text).negative,
          text.length - (Parts.of base text).rest.length⟩ := by
  refine ⟨_, counts_foldl_add (List.all_eq_true.mp List.all_takeWhile), ?_⟩
  unfold read
  rw [if_neg (by simp only [Bool.or_eq_true, beq_iff_eq, decide_eq_true_eq]; omega)]
  dsimp only
  rw [digitRun_eq, if_neg]
  · rfl
  · simp only [List.isEmpty_iff, List.map_eq_nil_iff]
    exact hr

/-- The unsigned decoder returns nothing for a text without digits. -/
theorem decodeUnsigned_of_run_nil {text : Bytes} (hr : (Parts.of base text).run = []) :
    decodeUnsigned text base = ⟨0, 0⟩ := by
  unfold decodeUnsigned decodeWord
  rw [read_of_run_nil _ hr]
  rfl

/-- The unsigned decoder returns the word of the sign and the exact value. -/
theorem decodeUnsigned_of_run (h1 : base ≠ 1) (h36 : base ≤ 36) {text : Bytes}
    (hr : (Parts.of base text).run ≠ []) :
    decodeUnsigned text base =
      ⟨wordOf (Parts.of base text).negative
          (runValue (Parts.of base text).base (Parts.of base text).run),
        text.length - (Parts.of base text).rest.length⟩ := by
  have hcount : Word.count 64 = Word.largest + 1 := by decide
  obtain ⟨total, htotal, hread⟩ := exists_read_of_run h1 h36 (fun _ => Word.count 64 - 1) hr
  unfold decodeUnsigned decodeWord wordOf
  rw [hread]
  dsimp only
  generalize runValue (Parts.of base text).base (Parts.of base text).run = value at htotal ⊢
  generalize (Parts.of base text).negative = negative at htotal ⊢
  rw [hcount] at htotal ⊢
  by_cases hin : Word.largest < value
  · rw [htotal.overflow_of_lt (by omega), if_pos hin]
    rfl
  · rw [htotal.exact_of_le (by omega), if_neg hin]
    congr 1
    cases negative with
    | false =>
      dsimp only [Word.ofInt, signedBy]
      congr 1
      simp only [Bool.false_eq_true, if_false]
      rw [Int.emod_eq_of_lt (by omega) (by omega), Int.toNat_natCast]
    | true =>
      dsimp only [Word.ofInt, signedBy]
      congr 1
      simp only [Bool.false_eq_true, if_false, if_true]
      dsimp only [Word.largest] at hin ⊢
      omega

/-- The signed decoder returns nothing for a text without digits. -/
theorem decodeSigned_of_run_nil {text : Bytes} (hr : (Parts.of base text).run = []) :
    decodeSigned text base = ⟨0, 0⟩ := by
  unfold decodeSigned
  rw [read_of_run_nil _ hr]
  rfl

/-- The signed decoder returns the word nearest to the exact value with its
sign. -/
theorem decodeSigned_of_run (h1 : base ≠ 1) (h36 : base ≤ 36) {text : Bytes}
    (hr : (Parts.of base text).run ≠ []) :
    decodeSigned text base =
      ⟨quadOf (Parts.of base text).negative
          (runValue (Parts.of base text).base (Parts.of base text).run),
        text.length - (Parts.of base text).rest.length⟩ := by
  obtain ⟨total, htotal, hread⟩ := exists_read_of_run h1 h36
    (fun negative => if negative then Quad.halfCount else Quad.halfCount - 1) hr
  unfold decodeSigned quadOf
  rw [hread]
  dsimp only at htotal ⊢
  generalize runValue (Parts.of base text).base (Parts.of base text).run = value at htotal ⊢
  generalize (Parts.of base text).negative = negative at htotal ⊢
  congr 2
  dsimp only [signedBy, Quad.clamp, Quad.least, Quad.greatest, Quad.halfCount] at htotal ⊢
  cases negative with
  | false =>
    simp only [Bool.false_eq_true, if_false] at htotal ⊢
    by_cases hin : value ≤ 9223372036854775807
    · rw [htotal.exact_of_le hin]
      simp only [Bool.false_eq_true, if_false]
      omega
    · rw [htotal.overflow_of_lt (by omega)]
      simp only [if_true]
      omega
  | true =>
    simp only [if_true] at htotal ⊢
    by_cases hin : value ≤ 9223372036854775808
    · rw [htotal.exact_of_le hin]
      simp only [Bool.false_eq_true, if_false]
      omega
    · rw [htotal.overflow_of_lt (by omega)]
      simp only [if_true]
      omega

end Bases

end FormatScan.Numeral
