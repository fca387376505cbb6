import FormatScan.Proofs.Format.Modifiers
import FormatScan.Proofs.Format.Truncation
import FormatScan.Proofs.Numeral.Grammar

/-!
# What the text of an integer says

A directive for an integer lays out a sign, a base mark and digits between blanks,
and fills up with blanks and zeros as its flags and amounts say. None of that
touches the number: a field is a number text whose digits have the magnitude of
the operand as their value, however many zeros stand in front of them, and blanks
alone stand behind it. The decoder that matches the conversion therefore returns
the operand, narrowed to the width that the length letters ask for.
-/

namespace FormatScan.Format

open Numeral

/-- How the text of an integer directive is to be read. -/
inductive IntegerForm where
  /-- As a signed number in a base. -/
  | signed (base : Nat)
  /-- As an unsigned number in a base. -/
  | unsigned (base : Nat)
  /-- As an address in base 16. -/
  | address
deriving DecidableEq, Repr

namespace IntegerForm

/-- How the text of a conversion byte is to be read; `plus` tells of a plus sign
among the modifiers. -/
def ofByte? (plus : Bool) : UInt8 → Option IntegerForm
  | 0x64 => some (.signed 10)
  | 0x69 => some (.signed 10)
  | 0x79 => some (.signed 16)
  | 0x72 => some (if plus then .signed 10 else .unsigned 10)
  | 0x75 => some (.unsigned 10)
  | 0x6F => some (.unsigned 8)
  | 0x78 => some (.unsigned 16)
  | 0x58 => some (.unsigned 16)
  | 0x70 => some .address
  | _ => none

/-- The base of a form. -/
def base : IntegerForm → Nat
  | signed base => base
  | unsigned base => base
  | address => 16

/-- The bytes behind an offset are spaces, and the number in front of it is not
empty. -/
def SpacesBehind (text : Bytes) (finish : Nat) : Prop :=
  0 < finish ∧ finish ≤ text.length ∧ ∀ c ∈ text.drop finish, c = 0x20

/-- A text says the low bits of a word in a form: the decoder of the form returns
exactly these, with their sign where the form has one, and leaves nothing but
spaces. An address is the whole word. -/
def Denotes (width : OperandWidth) (bits : UInt64) (text : Bytes) : IntegerForm → Prop
  | signed base =>
    (decodeSigned text base).value.toInt = width.signed bits ∧
      SpacesBehind text (decodeSigned text base).finish
  | unsigned base =>
    (decodeUnsigned text base).value.toNat = width.unsigned bits ∧
      SpacesBehind text (decodeUnsigned text base).finish
  | address =>
    (decodeUnsigned text 16).value = bits ∧ SpacesBehind text (decodeUnsigned text 16).finish

end IntegerForm

/-- Zeros in front of a run do not change its value. -/
theorem runValue_replicate_zero (base count : Nat) (run : Bytes) :
    runValue base (List.replicate count 0x30 ++ run) = runValue base run := by
  induction count with
  | zero => rfl
  | succ count ih =>
    have hzero : 0 * base + Byte.digitOf 0x30 = 0 := by
      rw [Nat.zero_mul, Nat.zero_add]
      decide
    rw [List.replicate_succ, List.cons_append, runValue, List.foldl_cons, hzero]
    exact ih

/-- A zero is a digit in every base. -/
theorem isDigitBelow_zero {base : Nat} (hb : 0 < base) : Byte.isDigitBelow base 0x30 = true := by
  have hvalue : Byte.digitValue? 0x30 = some 0 := by decide
  rw [Byte.isDigitBelow, hvalue]
  exact decide_eq_true hb

/-- A number field is sign, mark and digits, with blanks on both sides and zeros in
front of the digits. -/
theorem exists_stream_numberField (settings : Settings) (base : Nat) (upper negative : Bool)
    (magnitude : Nat) :
    ∃ before zeros behind,
      Piece.stream (numberField settings base upper negative magnitude) =
        List.replicate before 0x20 ++ ((if negative then [0x2D] else []) ++
          (baseMark settings base magnitude ++ (List.replicate zeros 0x30 ++
            digits base upper magnitude ++ List.replicate behind 0x20))) := by
  unfold numberField padding
  simp only [Piece.stream_cons, Piece.stream_nil, Piece.bytes, List.append_assoc, List.append_nil]
  exact ⟨_, _, _, rfl⟩

/-- The zeros and the digits of a number are a run with the number as its value. -/
theorem isRun_zeros_digits {base : Nat} (hb : 2 ≤ base) (hb' : base ≤ 36) (upper : Bool)
    (zeros magnitude : Nat) :
    IsRun base (List.replicate zeros 0x30 ++ digits base upper magnitude) ∧
      runValue base (List.replicate zeros 0x30 ++ digits base upper magnitude) = magnitude := by
  refine ⟨⟨?_, ?_⟩, ?_⟩
  · exact List.append_ne_nil_of_right_ne_nil _ (digits_ne_nil hb upper magnitude)
  · intro c hc
    rcases List.mem_append.mp hc with hzero | hdigit
    · rw [(List.mem_replicate.mp hzero).2]
      exact isDigitBelow_zero (by omega)
    · exact isDigitBelow_of_mem_digits hb hb' upper magnitude c hdigit
  · rw [runValue_replicate_zero, runValue_digits hb hb']

/-- The mark of base 8 is a digit like any other zero; what is left of a base mark
is the mark of base 16. -/
theorem exists_baseMark {base : Nat} (hb : base = 8 ∨ base = 10 ∨ base = 16)
    (settings : Settings) (magnitude : Nat) :
    ∃ mark zeros, baseMark settings base magnitude = mark ++ List.replicate zeros 0x30 ∧
      (mark = [] ∨ base = 16 ∧ mark = [0x30, 0x78]) := by
  unfold baseMark
  split
  · rcases hb with rfl | rfl | rfl
    · exact ⟨[], 1, rfl, Or.inl rfl⟩
    · exact ⟨[], 0, rfl, Or.inl rfl⟩
    · exact ⟨[0x30, 0x78], 0, rfl, Or.inr ⟨rfl, rfl⟩⟩
  · exact ⟨[], 0, rfl, Or.inl rfl⟩

/-- The parts of a number field: spaces on both sides, a minus sign or none, a mark or
none, and a run. -/
def fieldParts (before : Nat) (negative : Bool) (mark run : Bytes) (behind : Nat) : NumberText where
  blanks := List.replicate before 0x20
  sign := if negative then [0x2D] else []
  mark := mark
  run := run
  rest := List.replicate behind 0x20

section Parts

variable {base : Nat} {mark run : Bytes} (hbase : base ≠ 0)
  (hmark : mark = [] ∨ base = 16 ∧ mark = [0x30, 0x78]) (hrun : IsRun base run)

include hbase hmark in
/-- A number field shows the base that it is written in. -/
theorem shown_fieldParts (before : Nat) (negative : Bool) (behind : Nat) :
    (fieldParts before negative mark run behind).shown base = base := by
  unfold NumberText.shown fieldParts
  dsimp only
  rcases hmark with rfl | ⟨rfl, rfl⟩
  · rw [if_neg (not_not_intro rfl), if_neg hbase]
  · rfl

include hmark hrun in
/-- Behind its sign a number field starts with neither a blank nor another sign. -/
theorem head_fieldParts {behind : Nat} {c : UInt8}
    (hc : (mark ++ (run ++ List.replicate behind 0x20)).head? = some c) :
    ¬Byte.isSpace c = true ∧ ¬IsSign c := by
  rcases hmark with rfl | ⟨_, rfl⟩
  · obtain ⟨first, digits, hfirst⟩ := List.exists_cons_of_ne_nil hrun.ne_nil
    have hclass := Byte.class_of_isDigitBelow (hrun.digits first (by rw [hfirst]; simp))
    rw [hfirst] at hc
    cases hc
    rw [hclass.1]
    exact ⟨Bool.false_ne_true, fun hsign => hsign.elim hclass.2.2.1 hclass.2.2.2⟩
  · cases hc
    exact ⟨by decide, fun hsign => by rcases hsign with h | h <;> cases h⟩

include hrun in
/-- Behind a zero of the run stands another digit or a space, and neither is a
mark. -/
theorem no_mark_in_run (hsixteen : base = 16) {behind : Nat} {x : UInt8} {tail : Bytes}
    (h : run ++ List.replicate behind 0x20 = 0x30 :: x :: tail) : ¬IsMark x := by
  intro hx
  obtain ⟨first, digits, hfirst⟩ := List.exists_cons_of_ne_nil hrun.ne_nil
  rw [hfirst, List.cons_append] at h
  have hnext := (List.cons.inj h).2
  cases digits with
  | nil =>
    have hmem : x ∈ List.replicate behind (0x20 : UInt8) := by
      rw [List.nil_append] at hnext
      rw [hnext]
      exact List.mem_cons_self
    rw [(List.mem_replicate.mp hmem).2] at hx
    rcases hx with h | h <;> cases h
  | cons second digits =>
    have hsecond : second = x := (List.cons.inj hnext).1
    have hdigit := hrun.digits second (by rw [hfirst]; simp)
    rw [hsecond, hsixteen] at hdigit
    exact not_isDigitBelow_of_isMark hx hdigit

include hbase hmark hrun in
/-- A number field is cut into its own parts. -/
theorem splits_fieldParts (before : Nat) (negative : Bool) (behind : Nat) :
    (fieldParts before negative mark run behind).Splits base
      (List.replicate before 0x20 ++ ((if negative then [0x2D] else []) ++
        (mark ++ (run ++ List.replicate behind 0x20)))) where
  text_eq := rfl
  blank := by
    intro c hc
    rw [(List.mem_replicate.mp hc).2]
    decide
  no_blank := by
    intro c hc
    cases negative with
    | false => exact (head_fieldParts hmark hrun hc).1
    | true => cases hc; decide
  signed := by
    cases negative with
    | false => exact Or.inl rfl
    | true => exact Or.inr ⟨0x2D, Or.inr rfl, rfl⟩
  no_sign := fun _ c hc => (head_fieldParts hmark hrun hc).2
  marked := by
    rcases hmark with rfl | ⟨rfl, rfl⟩
    · exact Or.inl rfl
    · exact Or.inr ⟨Or.inr rfl, 0x78, Or.inl rfl, rfl⟩
  no_mark := fun _ hmarks x tail h => no_mark_in_run hrun (by omega) h
  digit := by
    rw [shown_fieldParts hbase hmark]
    exact hrun.digits
  no_digit := by
    rw [shown_fieldParts hbase hmark]
    intro c hc hdigit
    have hspace := (List.mem_replicate.mp (List.mem_of_mem_head? hc)).2
    have hnone : Byte.digitValue? 0x20 = none := by decide
    rw [hspace, Byte.isDigitBelow, hnone] at hdigit
    cases hdigit

end Parts

/-- A number field is a number text with the magnitude as the value of its digits,
and with nothing but spaces behind them. -/
theorem exists_splits_numberField {base : Nat} (hb : base = 8 ∨ base = 10 ∨ base = 16)
    (settings : Settings) (upper negative : Bool) (magnitude : Nat) :
    ∃ parts : NumberText,
      parts.Splits base (Piece.stream (numberField settings base upper negative magnitude)) ∧
        parts.negative = negative ∧ parts.shown base = base ∧ parts.run ≠ [] ∧
        runValue base parts.run = magnitude ∧ ∀ c ∈ parts.rest, c = 0x20 := by
  obtain ⟨before, zeros, behind, hstream⟩ :=
    exists_stream_numberField settings base upper negative magnitude
  obtain ⟨mark, more, hbaseMark, hmark⟩ := exists_baseMark hb settings magnitude
  have hleast : 2 ≤ base := by omega
  have hgreatest : base ≤ 36 := by omega
  obtain ⟨hrun, hvalue⟩ := isRun_zeros_digits hleast hgreatest upper (more + zeros) magnitude
  have htext : Piece.stream (numberField settings base upper negative magnitude) =
      List.replicate before 0x20 ++ ((if negative then [0x2D] else []) ++
        (mark ++ (List.replicate (more + zeros) 0x30 ++ digits base upper magnitude ++
          List.replicate behind 0x20))) := by
    rw [hstream, hbaseMark, ← List.replicate_append_replicate]
    simp only [List.append_assoc]
  refine ⟨fieldParts before negative mark _ behind, ?_, ?_,
    shown_fieldParts (by omega) hmark before negative behind, hrun.ne_nil, hvalue,
    fun c hc => (List.mem_replicate.mp hc).2⟩
  · rw [htext]
    exact splits_fieldParts (by omega) hmark hrun before negative behind
  · cases negative <;> rfl

/-- Behind the end of a number only spaces are left. -/
theorem spacesBehind_of_splits {base : Nat} {parts : NumberText} {text : Bytes}
    (h : parts.Splits base text) (hrun : parts.run ≠ []) (hrest : ∀ c ∈ parts.rest, c = 0x20) :
    IntegerForm.SpacesBehind text parts.finish := by
  have hfinish := h.finish_eq
  have hlength := List.length_pos_iff.mpr hrun
  have hpositive : parts.run.length ≤ parts.finish := Nat.le_add_left _ _
  refine ⟨by omega, by omega, ?_⟩
  rw [h.drop_finish]
  exact hrest

section Fields

variable {base : Nat} (hb : base = 8 ∨ base = 10 ∨ base = 16) (settings : Settings) (upper : Bool)
  (magnitude : Nat)

include hb

/-- The signed decoder reads the number of a field. -/
theorem decodeSigned_numberField (negative : Bool)
    (hleast : Quad.least ≤ signedBy negative magnitude)
    (hgreatest : signedBy negative magnitude ≤ Quad.greatest) :
    let text := Piece.stream (numberField settings base upper negative magnitude)
    (decodeSigned text base).value.toInt = signedBy negative magnitude ∧
      IntegerForm.SpacesBehind text (decodeSigned text base).finish := by
  intro text
  obtain ⟨parts, hsplits, hsign, hshown, hrun, hvalue, hrest⟩ :=
    exists_splits_numberField hb settings upper negative magnitude
  have hdecode := hsplits.decodeSigned_eq (by omega) (by omega) hrun
  rw [hshown, hvalue, hsign] at hdecode
  change decodeSigned text base = _ at hdecode
  rw [hdecode]
  refine ⟨?_, spacesBehind_of_splits hsplits hrun hrest⟩
  dsimp only
  rw [toInt_quadOf]
  unfold Quad.least Quad.greatest signedBy at *
  omega

/-- The unsigned decoder reads the number of a field without a sign. -/
theorem decodeUnsigned_numberField (hlargest : magnitude ≤ Word.largest) :
    let text := Piece.stream (numberField settings base upper false magnitude)
    (decodeUnsigned text base).value.toNat = magnitude ∧
      IntegerForm.SpacesBehind text (decodeUnsigned text base).finish := by
  intro text
  obtain ⟨parts, hsplits, hsign, hshown, hrun, hvalue, hrest⟩ :=
    exists_splits_numberField hb settings upper false magnitude
  have hdecode := hsplits.decodeUnsigned_eq (by omega) (by omega) hrun
  rw [hshown, hvalue, hsign] at hdecode
  change decodeUnsigned text base = _ at hdecode
  rw [hdecode]
  refine ⟨?_, spacesBehind_of_splits hsplits hrun hrest⟩
  dsimp only
  have hword : Word.largest = 2 ^ 64 - 1 := by decide
  rw [toNat_wordOf, if_neg (by omega)]
  rfl

end Fields

/-- The signed number in the low bits of a word is a signed word. -/
theorem signed_range (width : OperandWidth) (bits : UInt64) :
    Quad.least ≤ width.signed bits ∧ width.signed bits ≤ Quad.greatest := by
  have hlow : ∀ size : Nat, 0 < size → size ≤ 18446744073709551616 →
      Quad.least ≤ (bits.toNat : Int).bmod size ∧ (bits.toNat : Int).bmod size ≤ Quad.greatest := by
    intro size hpos hsize
    have hle := Int.le_bmod (x := (bits.toNat : Int)) hpos
    have hlt := Int.bmod_lt (x := (bits.toNat : Int)) hpos
    unfold Quad.least Quad.greatest
    omega
  unfold OperandWidth.signed
  cases width <;> exact hlow _ (by decide) (by decide)

/-- The unsigned number in the low bits of a word is a word. -/
theorem unsigned_le (width : OperandWidth) (bits : UInt64) :
    width.unsigned bits ≤ Word.largest := by
  have hword : bits.toNat ≤ Word.largest := Nat.le_of_lt_succ bits.toNat_lt
  exact Nat.le_trans (Nat.mod_le _ _) hword

/-- An integer operand is written as a field that says it. -/
theorem exists_integer {base : Nat} (hb : base = 8 ∨ base = 10 ∨ base = 16) (settings : Settings)
    (upper signed : Bool) {operand : FormatArg} {bits : UInt64} (ho : operand.bits? = some bits)
    (used pending : List FormatArg) :
    ∃ pieces, integer settings ⟨used, operand :: pending⟩ base upper signed =
        .ok (pieces, ⟨used ++ [operand], pending⟩) ∧
      IntegerForm.Denotes settings.length.forOperand bits (Piece.stream pieces)
        (if signed then .signed base else .unsigned base) := by
  cases signed with
  | true =>
    refine ⟨numberField settings base upper (settings.length.forOperand.signed bits < 0)
      (settings.length.forOperand.signed bits).natAbs, ?_, ?_⟩
    · unfold integer
      rw [takeBits_eq ho]
      rfl
    · obtain ⟨hleast, hgreatest⟩ := signed_range settings.length.forOperand bits
      have hvalue : signedBy (settings.length.forOperand.signed bits < 0)
          (settings.length.forOperand.signed bits).natAbs =
            settings.length.forOperand.signed bits := by
        unfold signedBy
        simp only [decide_eq_true_eq]
        omega
      have hdecode := decodeSigned_numberField hb settings upper
        (settings.length.forOperand.signed bits).natAbs
        (settings.length.forOperand.signed bits < 0) (by rwa [hvalue]) (by rwa [hvalue])
      rw [hvalue] at hdecode
      exact hdecode
  | false =>
    refine ⟨numberField settings base upper false (settings.length.forOperand.unsigned bits),
      ?_, ?_⟩
    · unfold integer
      rw [takeBits_eq ho]
      rfl
    · exact decodeUnsigned_numberField hb settings upper _
        (unsigned_le settings.length.forOperand bits)

/-- A conversion to an integer takes its operand and says it. -/
theorem exists_perform_integer {settings : Settings} {c : UInt8} {form : IntegerForm}
    (hform : IntegerForm.ofByte? settings.plus c = some form) {operand : FormatArg} {bits : UInt64}
    (ho : operand.bits? = some bits) (used pending : List FormatArg) (produced : Nat) :
    ∃ pieces, (Conversion.ofByte c).perform settings ⟨⟨used, operand :: pending⟩, produced⟩ =
        .ok (pieces, ⟨used ++ [operand], pending⟩) ∧
      form.Denotes settings.length.forOperand bits (Piece.stream pieces) := by
  have hinteger := fun base (hb : base = 8 ∨ base = 10 ∨ base = 16) upper signed =>
    exists_integer hb settings upper signed ho used pending
  unfold IntegerForm.ofByte? at hform
  split at hform
  case h_1 => cases hform; exact hinteger 10 (by omega) false true
  case h_2 => cases hform; exact hinteger 10 (by omega) false true
  case h_3 => cases hform; exact hinteger 16 (by omega) false true
  case h_4 =>
    cases hform
    exact hinteger 10 (by omega) false settings.plus
  case h_5 => cases hform; exact hinteger 10 (by omega) false false
  case h_6 => cases hform; exact hinteger 8 (by omega) false false
  case h_7 => cases hform; exact hinteger 16 (by omega) false false
  case h_8 => cases hform; exact hinteger 16 (by omega) true false
  case h_9 =>
    cases hform
    have hbase : 16 = 8 ∨ 16 = 10 ∨ 16 = 16 := by omega
    have hdecode := decodeUnsigned_numberField hbase
      { settings with alternate := settings.width == 0 } false bits.toNat
      (Nat.le_of_lt_succ bits.toNat_lt)
    refine ⟨_, ?_, UInt64.toNat_inj.mp hdecode.1, hdecode.2⟩
    have hpointer : Conversion.ofByte 0x70 = .pointer := by decide
    rw [hpointer, Conversion.perform, takeBits_eq ho]
  case h_10 => cases hform

/-- The byte of an integer conversion ends the modifiers. -/
theorem isModifier_of_form {plus : Bool} {c : UInt8} {form : IntegerForm}
    (hform : IntegerForm.ofByte? plus c = some form) : c ≠ 0 ∧ isModifier c = false ∧
      Conversion.ofByte c ≠ .invalid := by
  unfold IntegerForm.ofByte? at hform
  split at hform
  case h_10 => cases hform
  all_goals decide

/-- An integer directive says its operand. It may have any modifiers in any order:
flags, amounts in digits, stars with integer operands of any sign, and length
letters. What it writes is read back, by the decoder that matches its conversion
byte, as the operand narrowed to the width that its length letters resolve to, or
as the whole word for an address. Behind the number nothing but spaces is left. -/
theorem printAll_denotes_operand (modifiers : Bytes) (c : UInt8) (form : IntegerForm)
    (stars : List FormatArg) (operand : FormatArg) (bits : UInt64)
    (hmodifiers : ∀ m ∈ modifiers, isModifier m = true)
    (hform : IntegerForm.ofByte? (modifiers.contains 0x2B) c = some form)
    (hlength : stars.length = modifiers.count 0x2A)
    (hstars : ∀ star ∈ stars, star.bits?.isSome = true) (hoperand : operand.bits? = some bits) :
    let printed := printAll (0x25 :: (modifiers ++ [c])) (stars ++ [operand])
    let letters := (modifiers.filterMap LengthLetter.ofByte?).foldl LengthFlags.add {}
    printed.result = .ok (min printed.sink.bytes.length Word.largest) ∧
      printed.args = stars ++ [operand] ∧
      form.Denotes letters.forOperand bits printed.sink.bytes := by
  intro printed letters
  obtain ⟨hzero, hmodifier, hnamed⟩ := isModifier_of_form hform
  obtain ⟨written, hread, hwrites⟩ :=
    Directive.exists_read_modifiers hmodifiers hzero hmodifier false []
  obtain ⟨settled, happly, hletters, hplus⟩ := Settings.exists_applyAll written {}
    (hlength.trans hwrites.stars.symm) hstars
  have hsettled : settled.length = letters := by rw [hletters, hwrites.letters]
  have hsign : settled.plus = modifiers.contains 0x2B := by
    rw [hplus, hwrites.plus]
    exact Bool.false_or _
  rw [← hsign] at hform
  obtain ⟨pieces, hperform, hdenotes⟩ := exists_perform_integer hform hoperand stars [] 0
  have hdirective : Directive.perform ⟨written, Conversion.ofByte c⟩
      ⟨.start (stars ++ [operand]), 0⟩ = .ok (pieces, ⟨stars ++ [operand], []⟩) := by
    unfold Directive.perform
    dsimp only [Cursor.start]
    rw [happly]
    exact hperform
  have hformat : format (0x25 :: (modifiers ++ [c])) (stars ++ [operand]) =
      ⟨pieces ++ [], ⟨stars ++ [operand], []⟩, .ok (Piece.countFrom 0 pieces)⟩ := by
    rw [format, run_directive hread hnamed hdirective, run_nil]
    rfl
  rw [List.append_nil] at hformat
  have hbytes : printed.sink.bytes = Piece.stream pieces := by
    rw [printAll_bytes, hformat]
  refine ⟨?_, ?_, ?_⟩
  · have hresult := congrArg Formatted.result hformat
    rw [Piece.countFrom_eq (Nat.zero_le _), Nat.zero_add, ← hbytes] at hresult
    exact hresult
  · have hargs := congrArg (fun formatted => formatted.operands.all) hformat
    exact hargs.trans (List.append_nil _)
  · rw [hbytes, ← hsettled]
    exact hdenotes

/-- The directive `%-+#0*.*lhhy` with the widths -12 and -3 says the least signed
word. The first star turns the field back to the right, so zeros fill it. -/
theorem printAll_denotes_operand_least :
    IntegerForm.ofByte? true 0x79 = some (.signed 16) ∧
      (IntegerForm.signed 16).Denotes .long 9223372036854775808
        (printAll [0x25, 0x2D, 0x2B, 0x23, 0x30, 0x2A, 0x2E, 0x2A, 0x6C, 0x68, 0x68, 0x79]
          [.int (-12), .int (-3), .int Int64.minValue]).sink.bytes := by
  have hform : IntegerForm.ofByte? true 0x79 = some (.signed 16) := rfl
  have hmodifiers : ∀ m ∈ [0x2D, 0x2B, 0x23, 0x30, 0x2A, 0x2E, 0x2A, 0x6C, 0x68, 0x68],
      isModifier m = true := by decide +kernel
  refine ⟨hform, ?_⟩
  exact (printAll_denotes_operand [0x2D, 0x2B, 0x23, 0x30, 0x2A, 0x2E, 0x2A, 0x6C, 0x68, 0x68] 0x79
    (.signed 16) [.int (-12), .int (-3)] (.int Int64.minValue) 9223372036854775808 hmodifiers
    hform (by decide) (by decide) (by decide)).2.2

end FormatScan.Format
