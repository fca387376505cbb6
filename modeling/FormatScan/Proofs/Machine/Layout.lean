import FormatScan.Proofs.Format.Denotation
import FormatScan.Proofs.Machine.Encoder
import FormatScan.Proofs.Machine.Output

/-!
# Laying out fields

A field is written straight to the output: padding, sign, base mark, zeros and
digits, or the part of a text that is wanted. Widths are signed words, and their sums
stay at the bounds, but for one: the mark and the sign together have at most three
bytes. The magnitude of a negative number is found by a change of sign that wraps, so
the least number keeps its bits and has them for its magnitude.
-/

namespace FormatScan.Machine

open Numeral Format

/-- The signed word that an unsigned one is taken for. -/
def asQuad (n : Nat) : Int := (UInt64.ofNat n).toInt64.toInt

/-- Write padding on one of two sides. -/
def padWhen (wanted : Bool) (out : Output) (byte : UInt8) (count : Int) : Checked Output :=
  if wanted then pad out byte count else .ok out

/-- Write the sign of a negative number. -/
def putSign (negative : Bool) (out : Output) : Checked Output :=
  if negative then put out 0x2D else .ok out

/-- Write a number with its sign. -/
def layOut (out : Output) (settings : Settings) (base : Nat) (upper negative : Bool)
    (magnitude : UInt64) : Checked Output := do
  let scratch ← writeScratch (List.replicate scratchSize 0) base upper magnitude
  let count := asQuad scratch.length
  let mark := baseMark settings base magnitude.toNat
  let ahead ← addQuad (asQuad mark.length) (if negative then 1 else 0)
  let least :=
    if settings.zero && !settings.left then Quad.satSub settings.width ahead
    else settings.precision
  let blanks := Quad.satSub settings.width (Quad.satAdd ahead (max least count))
  let zeros := Quad.satSub least count
  let out ← padWhen (!settings.left) out 0x20 blanks
  let out ← putSign negative out
  let out ← putAll out mark
  let out ← pad out 0x30 zeros
  let digits ← forward scratch
  let out ← putAll out digits
  padWhen settings.left out 0x20 blanks

/-- Write a number, of which the bits are given in the width of its operand. -/
def number (out : Output) (settings : Settings) (base : Nat) (upper signed : Bool)
    (bits : UInt64) : Checked Output :=
  let negative := signed && bits.toInt64 < 0
  layOut out settings base upper negative (if negative then (-bits.toInt64).toUInt64 else bits)

/-- Write a text up to its first zero byte, and to the precision when there is a dot. -/
def string (out : Output) (settings : Settings) (value : Option Bytes) : Checked Output := do
  let text := value.getD absentText
  let whole ← slice text 0 (text.findIdx (· == 0))
  let count := if settings.dotted then min settings.precision.toNat whole.length else whole.length
  let byte : UInt8 := if settings.zero then 0x30 else 0x20
  let blanks := Quad.satSub settings.width (asQuad count)
  let out ← padWhen (!settings.left) out byte blanks
  let kept ← slice whole 0 count
  let out ← putAll out kept
  padWhen settings.left out byte blanks

/-- A length that memory allows is the signed word it is taken for. -/
theorem asQuad_eq {n : Nat} (h : n ≤ 9223372036854775807) : asQuad n = n := by
  unfold asQuad
  rw [UInt64.toInt64_ofNat', ← Int64.ofInt_eq_ofNat]
  exact Int64.toInt_ofInt_of_le (by omega) (by omega)

/-- Padding stands on the left unless the right is asked for. -/
theorem blanks_left (left : Bool) (blanks : Int) :
    (if (!left) = true then blanks else 0) = if left then 0 else blanks := by
  cases left <;> rfl

section Writing

variable {out : Output} (h : out.Sound)

include h

/-- Padding that is not wanted is padding of no length. -/
theorem padWhen_eq (wanted : Bool) (byte : UInt8) (count : Int) :
    padWhen wanted out byte count =
      .ok (out.write [padding byte (if wanted then count else 0)]) := by
  cases wanted with
  | true => exact pad_eq h byte count
  | false =>
    have hnone : out.write [padding byte 0] = out := h.write_nothing rfl
    exact congrArg Except.ok hnone.symm

/-- A sign is written in front of a negative number only. -/
theorem putSign_eq (negative : Bool) :
    putSign negative out = .ok (out.write [.text (if negative then [0x2D] else [])]) := by
  cases negative with
  | true => exact put_eq h 0x2D
  | false =>
    have hnone : out.write [.text []] = out := h.write_nothing rfl
    exact congrArg Except.ok hnone.symm

/-- Laying out a number meets no fault, in a base from 2 to 36. -/
theorem layOut_eq {base : Nat} (hb : 2 ≤ base) (hb' : base ≤ 36) (settings : Settings)
    (upper negative : Bool) (magnitude : UInt64) :
    layOut out settings base upper negative magnitude =
      .ok (out.write (numberField settings base upper negative magnitude.toNat)) := by
  have hdigits : (Numeral.writeScratch (List.replicate scratchSize 0) base upper
      magnitude).length = (digits base upper magnitude.toNat).length := by
    rw [digits, List.length_reverse]
    rfl
  have hcount : (digits base upper magnitude.toNat).length ≤ 64 := by
    rw [digits, List.length_reverse]
    exact length_leastFirst_le hb upper magnitude
  have hmark : (baseMark settings base magnitude.toNat).length ≤ 2 := by
    unfold baseMark
    split
    · split
      · decide
      · split <;> decide
    · decide
  have hsign : (if negative then 1 else 0 : Int) =
      ((if negative then [0x2D] else [] : Bytes).length : Int) ∧
        (if negative then [0x2D] else [] : Bytes).length ≤ 1 := by
    cases negative <;> decide
  have hahead : addQuad (asQuad (baseMark settings base magnitude.toNat).length)
      (if negative then 1 else 0) =
        .ok ((baseMark settings base magnitude.toNat).length +
          ((if negative then [0x2D] else [] : Bytes).length : Int)) := by
    rw [asQuad_eq (by omega), hsign.1]
    refine require_of ?_ _ _
    unfold Quad.least Quad.greatest
    omega
  unfold layOut
  rw [writeScratch_eq hb hb' upper magnitude List.length_replicate, ok_bind]
  dsimp only
  rw [hahead, ok_bind, hdigits, asQuad_eq (by omega)]
  simp only [padWhen_eq, putSign_eq, putAll_eq, pad_eq, h, Output.Sound.write, ok_bind,
    forward_writeScratch hb, Output.write_append, blanks_left]
  rfl

/-- The magnitude of a signed word is found by a change of sign that wraps. -/
theorem number_signed {base : Nat} (hb : 2 ≤ base) (hb' : base ≤ 36) (settings : Settings)
    (upper : Bool) {value : Int} (hleast : Quad.least ≤ value) (hgreatest : value ≤ Quad.greatest) :
    number out settings base upper true (Int64.ofInt value).toUInt64 =
      .ok (out.write (numberField settings base upper (value < 0) value.natAbs)) := by
  unfold Quad.least at hleast
  unfold Quad.greatest at hgreatest
  have hvalue : (Int64.ofInt value).toInt = value :=
    Int64.toInt_ofInt_of_le (by omega) (by omega)
  have hnegative : decide (Int64.ofInt value < 0) = decide (value < 0) := by
    rw [decide_eq_decide, Int64.lt_iff_toInt_lt, hvalue]
    rfl
  have hmagnitude : (if decide (value < 0) then (-Int64.ofInt value).toUInt64
      else (Int64.ofInt value).toUInt64).toNat = value.natAbs := by
    have hword : ∀ n : Nat, n ≤ 9223372036854775808 → (Int64.ofNat n).toUInt64.toNat = n := by
      intro n hn
      rw [Int64.toUInt64_ofNat', UInt64.toNat_ofNat']
      omega
    by_cases hn : value < 0
    · have hneg : -value = (value.natAbs : Int) := by omega
      rw [if_pos (by simpa using hn), ← Int64.ofInt_neg, hneg, Int64.ofInt_eq_ofNat]
      exact hword _ (by omega)
    · have hpos : value = (value.natAbs : Int) := by omega
      rw [if_neg (by simpa using hn)]
      conv => lhs; rw [hpos]
      rw [Int64.ofInt_eq_ofNat]
      exact hword _ (by omega)
  unfold number
  dsimp only
  rw [Int64.toInt64_toUInt64, Bool.true_and, hnegative, layOut_eq h hb hb', hmagnitude]

/-- An unsigned word is its own magnitude. -/
theorem number_unsigned {base : Nat} (hb : 2 ≤ base) (hb' : base ≤ 36) (settings : Settings)
    (upper : Bool) (bits : UInt64) :
    number out settings base upper false bits =
      .ok (out.write (numberField settings base upper false bits.toNat)) := by
  unfold number
  rw [Bool.false_and]
  exact layOut_eq h hb hb' settings upper false bits

/-- Writing a text meets no fault. -/
theorem string_eq (settings : Settings) {value : Option Bytes}
    (hfits : ∀ text, value = some text → Fits text) :
    string out settings value = .ok (out.write (textField settings value)) := by
  have hlength : (untilZero (value.getD absentText)).length ≤ 9223372036854775807 := by
    have hsub : (untilZero (value.getD absentText)).length ≤ (value.getD absentText).length :=
      (List.takeWhile_sublist _).length_le
    cases value with
    | none => exact Nat.le_trans hsub (by decide +kernel)
    | some text => exact Nat.le_trans hsub (hfits text rfl)
  have hkept : ∀ whole : Bytes, ∃ kept : Bytes,
      (if settings.dotted then whole.take settings.precision.toNat else whole) = kept ∧
        (if settings.dotted then min settings.precision.toNat whole.length else whole.length) =
          kept.length ∧
        kept.length ≤ whole.length ∧ slice whole 0 kept.length = .ok kept := by
    intro whole
    have hfront : ∀ n, slice whole 0 (whole.take n).length = .ok (whole.take n) := by
      intro n
      have hle : (whole.take n).length ≤ whole.length := (List.take_sublist n whole).length_le
      rw [slice_eq (Nat.zero_le _) hle, List.drop_zero, List.length_take, ← List.take_eq_take_min]
    cases settings.dotted with
    | true =>
      exact ⟨_, rfl, List.length_take.symm, (List.take_sublist _ whole).length_le, hfront _⟩
    | false =>
      have hall := hfront whole.length
      rw [List.take_length] at hall
      exact ⟨whole, rfl, rfl, Nat.le_refl _, hall⟩
  obtain ⟨kept, hkept, hcount, hle, hslice⟩ := hkept (untilZero (value.getD absentText))
  unfold string textField
  dsimp only
  rw [slice_untilZero, ok_bind, hcount, hkept, asQuad_eq (Nat.le_trans hle hlength), hslice]
  simp only [padWhen_eq, putAll_eq, h, Output.Sound.write, ok_bind, Output.write_append,
    blanks_left]
  rfl

end Writing

end FormatScan.Machine
