import FormatScan.Proofs.Format.Denotation
import FormatScan.Proofs.Numeral.Inverse

/-!
# The layout of fields

A field is described here by exact numbers: a number is a sign, a mark, zeros and digits, and
blanks bring it to its width; under the zero flag zeros take the place of the blanks, and of
the precision. The sums behind it stay in the range of signed words, so a width and a
precision near the bounds do not add up exactly. Wherever they do not, the padding is none,
and the field is the exact one all the same.
-/

namespace FormatScan.Format

open Numeral

/-! ## What modifiers settle -/

/-- Settings that modifiers can amount to. -/
structure Settings.Sound (settings : Settings) : Prop where
  /-- The width is not negative. -/
  width_nonneg : 0 ≤ settings.width
  /-- The width is a signed word. -/
  width_le : settings.width ≤ Quad.greatest
  /-- The precision is a signed word. -/
  precision_range : Quad.least ≤ settings.precision ∧ settings.precision ≤ Quad.greatest
  /-- There is no precision without a dot. -/
  undotted : settings.dotted = false → settings.precision = 0

/-- The settings in front of the modifiers are sound. -/
theorem Settings.sound_start : Settings.Sound {} :=
  ⟨by decide, by decide, by decide, fun _ => rfl⟩

/-- What a star takes is a signed word of 32 bits. -/
theorem star_range (bits : UInt64) :
    -2147483648 ≤ OperandWidth.int.signed bits ∧ OperandWidth.int.signed bits ≤ 2147483647 := by
  have hle := Int.le_bmod (x := (bits.toNat : Int)) (m := Word.count 32) (by decide)
  have hlt := Int.bmod_lt (x := (bits.toNat : Int)) (m := Word.count 32) (by decide)
  have hcount : (Word.count 32 : Int) = 4294967296 := by decide
  change -2147483648 ≤ (bits.toNat : Int).bmod (Word.count 32) ∧
    (bits.toNat : Int).bmod (Word.count 32) ≤ 2147483647
  omega

section Settling

variable {settings : Settings} (h : settings.Sound)

include h

/-- An amount in digits keeps settings sound. -/
theorem Settings.Sound.setAmount (value : Nat) : (settings.setAmount value).Sound := by
  have hrange : 0 ≤ Quad.clamp value ∧ Quad.clamp value ≤ Quad.greatest := by
    unfold Quad.clamp Quad.least Quad.greatest
    omega
  have hleast : Quad.least ≤ 0 := by decide
  unfold Settings.setAmount
  by_cases hdot : settings.dotted = true
  · rw [if_pos hdot]
    refine ⟨h.width_nonneg, h.width_le, ⟨by dsimp only; omega, hrange.2⟩, fun hno => ?_⟩
    exact absurd (hdot.symm.trans hno) (by decide)
  · rw [if_neg hdot]
    exact ⟨hrange.1, hrange.2, h.precision_range, h.undotted⟩

/-- An amount from an operand keeps settings sound. -/
theorem Settings.Sound.setStar {amount : Int} (hleast : -2147483648 ≤ amount)
    (hgreatest : amount ≤ 2147483647) : (settings.setStar amount).Sound := by
  have hwords : Quad.least = -9223372036854775808 ∧ Quad.greatest = 9223372036854775807 :=
    ⟨rfl, rfl⟩
  unfold Settings.setStar
  by_cases hdot : settings.dotted = true
  · rw [if_pos hdot]
    refine ⟨h.width_nonneg, h.width_le, ⟨by dsimp only; omega, by dsimp only; omega⟩,
      fun hno => ?_⟩
    exact absurd (hdot.symm.trans hno) (by decide)
  · rw [if_neg hdot]
    -- a negative width is turned around, which a word of 32 bits survives
    by_cases hneg : amount < 0
    · rw [if_pos hneg]
      exact ⟨by dsimp only; omega, by dsimp only; omega, h.precision_range, h.undotted⟩
    · rw [if_neg hneg]
      exact ⟨by dsimp only; omega, by dsimp only; omega, h.precision_range, h.undotted⟩

/-- One modifier keeps settings sound. -/
theorem Settings.Sound.apply {next : Settings} {operands rest : Operands} {modifier : Modifier}
    (happly : settings.apply operands modifier = .ok (next, rest)) : next.Sound := by
  cases modifier with
  | star =>
    unfold Settings.apply at happly
    dsimp only at happly
    split at happly
    case h_1 bits operands' htake =>
      cases happly
      exact h.setStar (star_range bits).1 (star_range bits).2
    case h_2 => cases happly
  | amount value => cases happly; exact h.setAmount value
  | dot =>
    cases happly
    exact ⟨h.width_nonneg, h.width_le, h.precision_range, fun hno => Bool.noConfusion hno⟩
  | left | alternate | plus | zero | length =>
    cases happly
    exact ⟨h.width_nonneg, h.width_le, h.precision_range, h.undotted⟩

/-- A list of modifiers keeps settings sound. -/
theorem Settings.Sound.applyAll {settled : Settings} {operands rest : Operands}
    {modifiers : List Modifier}
    (happly : settings.applyAll operands modifiers = .ok (settled, rest)) : settled.Sound := by
  induction modifiers generalizing settings operands with
  | nil =>
    cases happly
    exact h
  | cons modifier modifiers ih =>
    rw [Settings.applyAll] at happly
    split at happly
    case h_1 next operands' hnext => exact ih (h.apply hnext) happly
    case h_2 => cases happly

end Settling

/-! ## Exact layout -/

/-- A field is a body with padding of one byte on one side, up to a width. -/
def Pads (left : Bool) (byte : UInt8) (width : Int) (body field : Bytes) : Prop :=
  ∃ count : Nat, (field.length : Int) = max width body.length ∧
    field = if left then body ++ List.replicate count byte else List.replicate count byte ++ body

/-- A number field lays out a sign, a mark and digits. Under the zero flag, unless the padding
is on the right, zeros in front of the digits fill the width. Otherwise they fill the
precision, and blanks fill the width. -/
def LaysOut (settings : Settings) (sign mark digits field : Bytes) : Prop :=
  if settings.zero = true ∧ settings.left = false then
    ∃ zeros : Nat, field = sign ++ (mark ++ (List.replicate zeros 0x30 ++ digits)) ∧
      (field.length : Int) = max settings.width (sign.length + mark.length + digits.length : Nat)
  else
    ∃ zeros : Nat, (zeros : Int) = max 0 (settings.precision - digits.length) ∧
      Pads settings.left 0x20 settings.width
        (sign ++ (mark ++ (List.replicate zeros 0x30 ++ digits))) field

/-- Padding on one side of a body, as long as the width exceeds it. -/
theorem pads_of_count {left : Bool} {byte : UInt8} {width : Int} {body : Bytes} {count : Int}
    (h : count.toNat = (width - body.length).toNat) :
    Pads left byte width body
      (List.replicate (if left then 0 else count).toNat byte ++
        (body ++ List.replicate (if left then count else 0).toNat byte)) := by
  refine ⟨count.toNat, ?_, ?_⟩
  · cases left <;> simp <;> omega
  · cases left <;> simp

/-- A body that fills its width is not padded. -/
theorem Pads.eq_body {left : Bool} {byte : UInt8} {width : Int} {body field : Bytes}
    (h : Pads left byte width body field) (hwidth : width ≤ body.length) : field = body := by
  obtain ⟨count, hlength, hfield⟩ := h
  have hnone : count = 0 := by
    cases left <;> simp [hfield] at hlength <;> omega
  rw [hfield, hnone]
  cases left <;> simp

/-! ### Saturated amounts

A difference or a sum that saturates is of no consequence: the exact one leaves no padding
either. -/

section Amounts

variable {width a b : Int}

theorem toNat_satSub (h : a ≤ Quad.greatest) (hb : 0 ≤ b) :
    (Quad.satSub a b).toNat = (a - b).toNat := by
  unfold Quad.satSub Quad.clamp Quad.least Quad.greatest at *
  omega

theorem toNat_satSub_satAdd (hwidth : width ≤ Quad.greatest) (ha : 0 ≤ a) (hb : 0 ≤ b) :
    (Quad.satSub width (Quad.satAdd a b)).toNat = (width - (a + b)).toNat := by
  unfold Quad.satSub Quad.satAdd Quad.clamp Quad.least Quad.greatest at *
  omega

theorem toNat_satSub_satSub (hwidth : width ≤ Quad.greatest) (ha : 0 ≤ a) (hb : 0 ≤ b) :
    (Quad.satSub (Quad.satSub width a) b).toNat = (width - (a + b)).toNat := by
  unfold Quad.satSub Quad.clamp Quad.least Quad.greatest at *
  omega

/-- Nothing is left of a width behind all that it leaves. -/
theorem toNat_satSub_filled (hwidth : width ≤ Quad.greatest) (hnonneg : 0 ≤ width) (ha : 0 ≤ a)
    (hb : 0 ≤ b) :
    (Quad.satSub width (Quad.satAdd a (max (Quad.satSub width a) b))).toNat = 0 := by
  unfold Quad.satSub Quad.satAdd Quad.clamp Quad.least Quad.greatest at *
  omega

end Amounts

/-- The stream of a number field, with the least number of digits and the padding that its
settings come to. -/
theorem stream_numberField (settings : Settings) (base : Nat) (upper negative : Bool)
    (magnitude : Nat) :
    let sign : Bytes := if negative then [0x2D] else []
    let mark := baseMark settings base magnitude
    let digits := digits base upper magnitude
    let ahead : Int := mark.length + sign.length
    let least :=
      if settings.zero && !settings.left then Quad.satSub settings.width ahead
      else settings.precision
    let blanks := Quad.satSub settings.width (Quad.satAdd ahead (max least digits.length))
    Piece.stream (numberField settings base upper negative magnitude) =
      List.replicate (if settings.left then 0 else blanks).toNat 0x20 ++
        ((sign ++ (mark ++ (List.replicate (Quad.satSub least digits.length).toNat 0x30 ++
          digits))) ++
          List.replicate (if settings.left then blanks else 0).toNat 0x20) := by
  intro sign mark digits ahead least blanks
  unfold numberField padding
  simp only [Piece.stream_cons, Piece.stream_nil, Piece.bytes, List.append_nil, List.append_assoc]
  rfl

/-- A number field is laid out exactly. -/
theorem laysOut_numberField {settings : Settings} (h : settings.Sound) (base : Nat)
    (upper negative : Bool) (magnitude : Nat) :
    LaysOut settings (if negative then [0x2D] else []) (baseMark settings base magnitude)
      (digits base upper magnitude)
      (Piece.stream (numberField settings base upper negative magnitude)) := by
  have hstream := stream_numberField settings base upper negative magnitude
  generalize Piece.stream (numberField settings base upper negative magnitude) = field
    at hstream ⊢
  generalize (if negative then [0x2D] else [] : Bytes) = sign at hstream ⊢
  generalize baseMark settings base magnitude = mark at hstream ⊢
  generalize digits base upper magnitude = digits at hstream ⊢
  dsimp only at hstream
  have hwidth := h.width_le
  have hlengths : ∀ zeros : Nat, (sign ++ (mark ++ (List.replicate zeros 0x30 ++ digits))).length =
      (mark.length + sign.length) + (zeros + digits.length) := by
    intro zeros
    simp only [List.length_append, List.length_replicate]
    omega
  unfold LaysOut
  by_cases hfill : settings.zero = true ∧ settings.left = false
  · have hleast : (settings.zero && !settings.left) = true := by
      rw [hfill.1, hfill.2]
      rfl
    -- zeros fill the width, so no blanks are left
    rw [if_pos hleast, hfill.2, if_neg Bool.false_ne_true, if_neg Bool.false_ne_true,
      toNat_satSub_filled hwidth h.width_nonneg (by omega) (by omega),
      toNat_satSub_satSub hwidth (by omega) (by omega), Int.toNat_zero, List.replicate_zero,
      List.nil_append, List.append_nil] at hstream
    rw [if_pos hfill]
    refine ⟨_, hstream, ?_⟩
    rw [hstream, hlengths]
    omega
  · have hleast : ¬(settings.zero && !settings.left) = true := by simpa using hfill
    have hprecision := h.precision_range.2
    rw [if_neg hleast, toNat_satSub hprecision (by omega)] at hstream
    rw [if_neg hfill]
    refine ⟨_, ?_, hstream ▸ pads_of_count ?_⟩
    · omega
    · rw [toNat_satSub_satAdd hwidth (by omega) (by omega), hlengths]
      omega

/-! ## Numbers -/

/-- The number that an integer directive writes, out of the bits of its operand. -/
def IntegerForm.number (width : OperandWidth) (bits : UInt64) : IntegerForm → Int
  | signed _ => width.signed bits
  | unsigned _ => width.unsigned bits
  | address => bits.toNat

/-- The mark in front of a number. Zero has none; an address has one if it has no width, and
the others have one under the flag, where their base has a mark. -/
def IntegerForm.mark (settings : Settings) (number : Int) (form : IntegerForm) : Bytes :=
  if number = 0 then []
  else if form = address then if settings.width = 0 then [0x30, 0x78] else []
  else if settings.alternate = true then
    if form.base = 8 then [0x30] else if form.base = 16 then [0x30, 0x78] else []
  else []

/-- The digits of a magnitude: a numeral with that value, and with letters of one case. -/
structure IsDigits (base : Nat) (upper : Bool) (magnitude : Nat) (digits : Bytes) : Prop where
  /-- No zero stands in front, unless it is the zero alone. -/
  numeral : IsNumeral base digits
  /-- The value. -/
  value_eq : runValue base digits = magnitude
  /-- The case of the letters. -/
  letters : ∀ c ∈ digits, (if upper then Byte.isLower c else Byte.isUpper c) = false

/-- A digit is no letter of the other case. -/
theorem letter_digitByte (upper : Bool) {d : Nat} (hd : d < 36) :
    (if upper then Byte.isLower (digitByte upper d) else Byte.isUpper (digitByte upper d)) =
      false := by
  revert upper d
  decide +kernel

theorem isDigits_digits {base : Nat} (hb : 2 ≤ base) (hb' : base ≤ 36) (upper : Bool)
    (magnitude : Nat) : IsDigits base upper magnitude (digits base upper magnitude) := by
  refine ⟨isNumeral_digits hb hb' upper magnitude, runValue_digits hb hb' upper magnitude, ?_⟩
  induction magnitude using Nat.strongRecOn with
  | ind n ih =>
    intro c hc
    rw [digits_eq hb] at hc
    by_cases hn : n < base
    · rw [if_pos hn, List.mem_singleton] at hc
      rw [hc]
      exact letter_digitByte upper (by omega)
    · rw [if_neg hn, List.mem_append, List.mem_singleton] at hc
      rcases hc with hfront | rfl
      · exact ih (n / base) (Nat.div_lt_self (by omega) (by omega)) c hfront
      · have hlt := Nat.mod_lt n (show 0 < base by omega)
        exact letter_digitByte upper (by omega)

/-- A field of a number: its digits are laid out behind its sign and its mark. -/
def IntegerForm.IsField (settings : Settings) (upper : Bool) (number : Int) (field : Bytes)
    (form : IntegerForm) : Prop :=
  ∃ digits, IsDigits form.base upper number.natAbs digits ∧
    LaysOut settings (if number < 0 then [0x2D] else []) (form.mark settings number) digits field

/-- The mark of a field is that of its number. -/
theorem baseMark_natAbs (settings : Settings) (base : Nat) (number : Int) :
    baseMark settings base number.natAbs =
      if number = 0 then []
      else if settings.alternate = true then
        if base = 8 then [0x30] else if base = 16 then [0x30, 0x78] else []
      else [] := by
  unfold baseMark
  by_cases hzero : number = 0
  · simp [hzero]
  · by_cases halternate : settings.alternate = true <;> simp [hzero, halternate]

section Numbers

variable {settings : Settings} (h : settings.Sound) (upper : Bool)

include h

/-- A number field is that of its number, whatever decides about its mark. -/
theorem isField_numberField (form : IntegerForm) (hb : 2 ≤ form.base) (hb' : form.base ≤ 36)
    (alternate : Bool) {number : Int}
    (hmark : baseMark { settings with alternate := alternate } form.base number.natAbs =
      form.mark settings number) :
    form.IsField settings upper number (Piece.stream
      (numberField { settings with alternate := alternate } form.base upper (number < 0)
        number.natAbs)) := by
  have hsound : Settings.Sound { settings with alternate := alternate } :=
    ⟨h.width_nonneg, h.width_le, h.precision_range, h.undotted⟩
  have hlaid := laysOut_numberField hsound form.base upper (number < 0) number.natAbs
  rw [hmark] at hlaid
  simp only [decide_eq_true_eq] at hlaid
  exact ⟨_, isDigits_digits hb hb' upper number.natAbs, hlaid⟩

/-- The field of a number that is no address. -/
theorem isField_of_base (form : IntegerForm)
    (hb : form.base = 8 ∨ form.base = 10 ∨ form.base = 16)
    (hform : form ≠ .address) (number : Int) :
    form.IsField settings upper number
      (Piece.stream (numberField settings form.base upper (number < 0) number.natAbs)) := by
  refine isField_numberField h upper form (by omega) (by omega) settings.alternate ?_
  rw [baseMark_natAbs, IntegerForm.mark, if_neg hform]

/-- The field of an address. -/
theorem isField_address (number : Int) :
    IntegerForm.IsField settings false number (Piece.stream
      (numberField { settings with alternate := settings.width == 0 } 16 false (number < 0)
        number.natAbs)) .address := by
  refine isField_numberField h false .address (by decide) (by decide) (settings.width == 0) ?_
  rw [baseMark_natAbs, IntegerForm.mark, if_pos rfl]
  simp [IntegerForm.base]

variable {operand : FormatArg} {bits : UInt64} (ho : operand.bits? = some bits)
  (used pending : List FormatArg)

include ho

/-- An integer operand is laid out as a field of its number. -/
theorem exists_integer_isField {base : Nat} (hb : base = 8 ∨ base = 10 ∨ base = 16)
    (signed : Bool) :
    let form : IntegerForm := if signed then .signed base else .unsigned base
    ∃ pieces, integer settings ⟨used, operand :: pending⟩ base upper signed =
        .ok (pieces, ⟨used ++ [operand], pending⟩) ∧
      form.IsField settings upper (form.number settings.length.forOperand bits)
        (Piece.stream pieces) := by
  unfold integer
  rw [takeBits_eq ho]
  cases signed with
  | true =>
    have hfield := isField_of_base h upper (.signed base) hb IntegerForm.noConfusion
      (settings.length.forOperand.signed bits)
    exact ⟨_, rfl, hfield⟩
  | false =>
    have hfield := isField_of_base h upper (.unsigned base) hb IntegerForm.noConfusion
      (settings.length.forOperand.unsigned bits)
    rw [Int.natAbs_natCast, decide_eq_false (by omega)] at hfield
    exact ⟨_, rfl, hfield⟩

/-- An integer conversion lays out the number of its operand. -/
theorem exists_perform_isField {c : UInt8} {form : IntegerForm}
    (hform : IntegerForm.ofByte? settings.plus c = some form) (produced : Nat) :
    ∃ pieces, (Conversion.ofByte c).perform settings ⟨⟨used, operand :: pending⟩, produced⟩ =
        .ok (pieces, ⟨used ++ [operand], pending⟩) ∧
      form.IsField settings (c == 0x58) (form.number settings.length.forOperand bits)
        (Piece.stream pieces) := by
  have hinteger := fun base (hb : base = 8 ∨ base = 10 ∨ base = 16) upper =>
    exists_integer_isField h upper ho used pending hb
  unfold IntegerForm.ofByte? at hform
  split at hform
  case h_1 => cases hform; exact hinteger 10 (by omega) false true
  case h_2 => cases hform; exact hinteger 10 (by omega) false true
  case h_3 => cases hform; exact hinteger 16 (by omega) false true
  case h_4 => cases hform; exact hinteger 10 (by omega) false settings.plus
  case h_5 => cases hform; exact hinteger 10 (by omega) false false
  case h_6 => cases hform; exact hinteger 8 (by omega) false false
  case h_7 => cases hform; exact hinteger 16 (by omega) false false
  case h_8 => cases hform; exact hinteger 16 (by omega) true false
  case h_9 =>
    cases hform
    have hfield := isField_address h (bits.toNat : Int)
    rw [Int.natAbs_natCast, decide_eq_false (by omega)] at hfield
    refine ⟨_, ?_, hfield⟩
    have hpointer : Conversion.ofByte 0x70 = .pointer := by decide
    rw [hpointer, Conversion.perform, takeBits_eq ho]
  case h_10 => cases hform

end Numbers

/-! ## Texts -/

/-- What a text directive keeps of its operand: the bytes in front of the first zero byte, and
no more of them than the precision if there is a dot. -/
def keptText (settings : Settings) (value : Option Bytes) : Bytes :=
  let whole := untilZero (value.getD (bytesOf "(null)"))
  if settings.dotted then whole.take (max 0 settings.precision).toNat else whole

/-- A text field is what is kept of the operand with padding on one side. -/
theorem pads_textField {settings : Settings} (h : settings.Sound) (value : Option Bytes) :
    Pads settings.left (if settings.zero then 0x30 else 0x20) settings.width
      (keptText settings value) (Piece.stream (textField settings value)) := by
  have hprecision : (max 0 settings.precision).toNat = settings.precision.toNat := by omega
  unfold keptText textField padding
  simp only [Piece.stream_cons, Piece.stream_nil, Piece.bytes, List.append_nil, hprecision]
  exact pads_of_count (toNat_satSub h.width_le (by omega))

/-- A text conversion lays out its operand. -/
theorem exists_perform_text {settings : Settings} (h : settings.Sound) (value : Option Bytes)
    (used pending : List FormatArg) (produced : Nat) :
    ∃ pieces, Conversion.text.perform settings ⟨⟨used, .text value :: pending⟩, produced⟩ =
        .ok (pieces, ⟨used ++ [.text value], pending⟩) ∧
      Pads settings.left (if settings.zero then 0x30 else 0x20) settings.width
        (keptText settings value) (Piece.stream pieces) :=
  ⟨_, rfl, pads_textField h value⟩

/-! ## Directives -/

/-- Behind its percent sign a directive puts out a field, and formatting goes on behind it
with the operands that it leaves. -/
def Puts (text : Bytes) (progress : Progress) (after : Bytes) (operands : Operands)
    (field : Bytes) : Prop :=
  ∃ pieces, Piece.stream pieces = field ∧
    run (0x25 :: text) progress =
      (run after { progress.add pieces with operands := operands }).after pieces

theorem puts_of_perform {text after : Bytes} {directive : Directive}
    {settings : Settings} {progress : Progress} {operands rest : Operands} {pieces : List Piece}
    (hread : Directive.read false text = (directive, after))
    (hnamed : directive.conversion ≠ .invalid)
    (happly : Settings.applyAll {} progress.operands directive.modifiers = .ok (settings, operands))
    (hperform : directive.conversion.perform settings ⟨operands, progress.produced⟩ =
      .ok (pieces, rest)) :
    Puts text progress after rest (Piece.stream pieces) := by
  refine ⟨pieces, rfl, run_directive hread hnamed ?_⟩
  rw [Directive.perform, happly]
  exact hperform

/-- The modifiers of a directive come to a width that is not negative, and to a precision
that is zero without a dot. An integer directive puts out its operand as sign, mark, zeros and
digits, and a text directive puts out what it keeps of its operand. Both are padded as exact
numbers say, however near the width and the precision are to the bounds of their words. -/
theorem run_lays_out {text after : Bytes} {c : UInt8} {modifiers : List Modifier}
    {progress : Progress} {settings : Settings} {used pending : List FormatArg}
    {operand : FormatArg}
    (hread : Directive.read false text = (⟨modifiers, Conversion.ofByte c⟩, after))
    (happly : Settings.applyAll {} progress.operands modifiers =
      .ok (settings, ⟨used, operand :: pending⟩)) :
    settings.Sound ∧
      (∀ form bits, IntegerForm.ofByte? settings.plus c = some form → operand.bits? = some bits →
        ∃ field, Puts text progress after ⟨used ++ [operand], pending⟩ field ∧
          form.IsField settings (c == 0x58) (form.number settings.length.forOperand bits) field) ∧
      ∀ value, c = 0x73 → operand = .text value →
        ∃ field, Puts text progress after ⟨used ++ [operand], pending⟩ field ∧
          Pads settings.left (if settings.zero then 0x30 else 0x20) settings.width
            (keptText settings value) field := by
  have hsound : settings.Sound := Settings.sound_start.applyAll happly
  refine ⟨hsound, fun form bits hform hbits => ?_, fun value hc hvalue => ?_⟩
  · obtain ⟨pieces, hperform, hfield⟩ :=
      exists_perform_isField hsound hbits used pending hform progress.produced
    exact ⟨_, puts_of_perform hread (isModifier_of_form hform).2.2 happly hperform, hfield⟩
  · subst hc hvalue
    obtain ⟨pieces, hperform, hpads⟩ :=
      exists_perform_text hsound value used pending progress.produced
    have hnamed : Conversion.ofByte 0x73 = .text := by decide
    rw [hnamed] at hread
    exact ⟨_, puts_of_perform hread Conversion.noConfusion happly hperform, hpads⟩

/-- In `%-#0*.3hhX` the width -12 turns the field back to the right, so zeros fill it behind
the mark, and the precision counts for nothing. -/
theorem run_lays_out_turned :
    let text : Bytes := [0x2D, 0x23, 0x30, 0x2A, 0x2E, 0x33, 0x68, 0x68, 0x58, 0x2E]
    let progress : Progress := ⟨.start [.int (-12), .uint 0xFFAB], 0⟩
    ∃ field digits zeros,
      Puts text progress [0x2E] ⟨[.int (-12), .uint 0xFFAB], []⟩ field ∧
        field = [0x30, 0x78] ++ (List.replicate zeros 0x30 ++ digits) ∧ field.length = 12 ∧
        IsDigits 16 true 0xAB digits := by
  intro text progress
  let modifiers : List Modifier :=
    [.left, .alternate, .zero, .star, .dot, .amount 3, .length .h, .length .h]
  let settings : Settings :=
    { alternate := true, zero := true, dotted := true, width := 12, precision := 3,
      length := { char := true } }
  have hread : Directive.read false text = (⟨modifiers, Conversion.ofByte 0x58⟩, [0x2E]) := by
    decide +kernel
  have happly : Settings.applyAll {} progress.operands modifiers =
      .ok (settings, ⟨[.int (-12)], [.uint 0xFFAB]⟩) := by
    have hstar : OperandWidth.int.signed (Int64.toUInt64 (-12)) = -12 := by decide +kernel
    have hbits : (FormatArg.int (-12)).bits? = some (Int64.toUInt64 (-12)) := rfl
    simp only [modifiers, progress, Settings.applyAll, Settings.apply, Cursor.start,
      takeBits_eq hbits, hstar]
    rfl
  obtain ⟨-, hnumbers, -⟩ := run_lays_out hread happly
  obtain ⟨field, hputs, hfield⟩ := hnumbers (.unsigned 16) 0xFFAB rfl rfl
  have hnumber : (IntegerForm.unsigned 16).number settings.length.forOperand 0xFFAB = 171 := by
    decide
  rw [hnumber] at hfield
  obtain ⟨digits, hdigits, hlaid⟩ := hfield
  have hfill : settings.zero = true ∧ settings.left = false := ⟨rfl, rfl⟩
  rw [LaysOut, if_pos hfill] at hlaid
  obtain ⟨zeros, hzeros, hlength⟩ := hlaid
  have hcount : digits.length = 2 := by
    have hlower := digits_runValue (by decide) (by decide) hdigits.numeral
    rw [hdigits.value_eq] at hlower
    have hlengths := congrArg List.length hlower
    rw [List.length_map] at hlengths
    rw [← hlengths]
    decide +kernel
  have hmark : (IntegerForm.unsigned 16).mark settings 171 = [0x30, 0x78] := by decide
  have hwidth : settings.width = 12 := rfl
  rw [if_neg (by decide), hmark] at hzeros hlength
  rw [hcount, hwidth] at hlength
  exact ⟨field, digits, zeros, hputs, hzeros, Int.ofNat_inj.mp hlength, hdigits⟩

end FormatScan.Format
