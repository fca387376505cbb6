import FormatScan.Proofs.Scan.Field
import FormatScan.Proofs.Scan.Steps

/-!
# What a hexadecimal conversion takes

A field and the decoder behind it do not agree on where the `x` of base 16 may
stand: the field allows it at the second place, the decoder behind a zero only.
They differ on a sign, an `x` and a digit. Such a field is taken, and its decoder
finds no number there. Every other field that is taken is a spelled number, which
the decoder consumes to its end.
-/

namespace FormatScan.Scan

open Numeral

/-- A text starts with a sign, an `x` and a digit behind them. -/
def SignBeforeMark (text : Bytes) : Prop :=
  ∃ sign x run rest, text = sign :: x :: (run ++ rest) ∧ IsSign sign ∧ IsMark x ∧ IsRun 16 run

/-- A text starts with a number of base 16. -/
def StartsWithHex (text : Bytes) : Prop :=
  ∃ number negative run rest, text = number ++ rest ∧ Spells 16 number negative run

/-- What becomes of a field of base 16 by the bytes that its width leaves it. -/
inductive HexField (front : Bytes) : Option Field → Prop where
  /-- No number stands in front. -/
  | refused (hmark : ¬SignBeforeMark front) (hnone : ¬StartsWithHex front) : HexField front none
  /-- A number stands in front and is taken. -/
  | spelled {text rest run : Bytes} {negative : Bool} {state : FieldState}
      (hfront : front = text ++ rest) (hbase : state.base = 16)
      (h : Spells 16 text negative run) (hmark : ¬SignBeforeMark front) :
      HexField front (some ⟨text, state⟩)
  /-- A mark stands behind a sign and is taken with its run. -/
  | misplaced {sign x : UInt8} {run rest : Bytes} {state : FieldState}
      (hfront : front = sign :: x :: (run ++ rest)) (hbase : state.base = 16)
      (hs : IsSign sign) (hx : IsMark x) (hr : IsRun 16 run) :
      HexField front (some ⟨sign :: x :: run, state⟩)

/-- The longest run of digits, when there is one. -/
theorem isRun_takeWhile {base : Nat} {text : Bytes}
    (h : text.takeWhile (Byte.isDigitBelow base) ≠ []) :
    IsRun base (text.takeWhile (Byte.isDigitBelow base)) :=
  ⟨h, List.all_eq_true.mp List.all_takeWhile⟩

/-- A sign is no digit, whatever the base. -/
theorem not_isDigitBelow_of_isSign {base : Nat} {sign : UInt8} (hs : IsSign sign) :
    ¬Byte.isDigitBelow base sign = true := by
  intro hd
  obtain ⟨-, -, hplus, hminus⟩ := Byte.class_of_isDigitBelow hd
  rcases hs with rfl | rfl
  · exact hplus rfl
  · exact hminus rfl

/-- No sign is a zero. -/
theorem not_isSign_zero : ¬IsSign 0x30 := by
  rintro (h | h) <;> cases h

/-- Behind a sign a number goes on with a digit, without one it starts with a
digit. -/
theorem StartsWithHex.cases {c : UInt8} {tail : Bytes} (h : StartsWithHex (c :: tail)) :
    Byte.isDigitBelow 16 c = true ∨
      (IsSign c ∧ tail.takeWhile (Byte.isDigitBelow 16) ≠ []) := by
  obtain ⟨number, negative, run, rest, htext, hspells⟩ := h
  have hdigit : ∀ run : Bytes, IsRun 16 run → tail = run ++ rest →
      tail.takeWhile (Byte.isDigitBelow 16) ≠ [] := by
    intro run hr htail
    rw [htail, List.takeWhile_append_of_pos hr.digits]
    exact List.append_ne_nil_of_left_ne_nil hr.ne_nil _
  cases hspells with
  | plain hr => exact Or.inl (isDigitBelow_of_head? hr (by rw [← htext]; rfl))
  | plus hr =>
    obtain ⟨rfl, htail⟩ := List.cons.inj htext
    exact Or.inr ⟨Or.inl rfl, hdigit _ hr htail⟩
  | minus hr =>
    obtain ⟨rfl, htail⟩ := List.cons.inj htext
    exact Or.inr ⟨Or.inr rfl, hdigit _ hr htail⟩
  | marked _ _ _ =>
    obtain ⟨rfl, _⟩ := List.cons.inj htext
    exact Or.inl (by decide)

section Take

variable {format : NumberFormat} (hb : format.base = 16) (hm : format.marked = true)

include hb hm

/-- A sign in front of a mark takes the mark, and is refused when no digit
follows. -/
theorem HexField.of_sign_mark {width : Nat} {input : Bytes} {sign x : UInt8} {rest : Bytes}
    (hs : IsSign sign) (hx : IsMark x)
    (hfront : input.take (fieldLimit width) = sign :: x :: rest) :
    HexField (sign :: x :: rest) (Field.take? format width input) := by
  have hreach := Field.follow_sign_mark hb hm hs hx rest
  rw [← hfront] at hreach
  by_cases hr : rest.takeWhile (Byte.isDigitBelow 16) = []
  · rw [(Field.take?_of_reaches hreach).1 (not_not_intro hr)]
    refine HexField.refused ?_ ?_
    · rintro ⟨sign', x', run, rest', htext, _, _, hrun⟩
      obtain ⟨_, htail⟩ := List.cons.inj htext
      obtain ⟨_, hrest⟩ := List.cons.inj htail
      rw [hrest, List.takeWhile_append_of_pos hrun.digits] at hr
      exact hrun.ne_nil (List.append_eq_nil_iff.mp hr).1
    · intro hstart
      rcases hstart.cases with hd | ⟨_, hd⟩
      · exact not_isDigitBelow_of_isSign hs hd
      · rw [List.takeWhile_cons_of_neg (not_isDigitBelow_of_isMark hx)] at hd
        exact hd rfl
  · have hrun := isRun_takeWhile hr
    obtain ⟨state, hbase, htake⟩ :=
      Field.exists_take?_of_run [sign, x] (Nat.le_refl 16) hrun hreach hr
    rw [htake]
    have hsplit : sign :: x :: rest = sign :: x :: (rest.takeWhile (Byte.isDigitBelow 16) ++
        rest.dropWhile (Byte.isDigitBelow 16)) := by
      rw [List.takeWhile_append_dropWhile]
    exact HexField.misplaced hsplit hbase hs hx hrun

/-- A sign in front of anything else takes the run behind it, and is refused when
there is none. -/
theorem HexField.of_sign_run {width : Nat} {input : Bytes} {sign : UInt8} {rest : Bytes}
    (hs : IsSign sign) (hx : ∀ c, rest.head? = some c → ¬IsMark c)
    (hfront : input.take (fieldLimit width) = sign :: rest) :
    HexField (sign :: rest) (Field.take? format width input) := by
  have hreach := Field.follow_sign_run hb hm hs hx
  rw [← hfront] at hreach
  have hmark : ¬SignBeforeMark (sign :: rest) := by
    rintro ⟨_, x, run, tail, htext, _, hmark, _⟩
    obtain ⟨_, hrest⟩ := List.cons.inj htext
    exact hx x (by rw [hrest]; rfl) hmark
  by_cases hr : rest.takeWhile (Byte.isDigitBelow 16) = []
  · rw [(Field.take?_of_reaches hreach).1 (not_not_intro hr)]
    refine HexField.refused hmark ?_
    intro hstart
    rcases hstart.cases with hd | ⟨_, hd⟩
    · exact not_isDigitBelow_of_isSign hs hd
    · exact hd hr
  · have hrun := isRun_takeWhile hr
    obtain ⟨state, hbase, htake⟩ :=
      Field.exists_take?_of_run [sign] (Nat.le_refl 16) hrun hreach hr
    have hsplit : sign :: rest = (sign :: rest.takeWhile (Byte.isDigitBelow 16)) ++
        rest.dropWhile (Byte.isDigitBelow 16) := by
      rw [List.cons_append, List.takeWhile_append_dropWhile]
    rw [htake]
    rcases hs with rfl | rfl
    · exact HexField.spelled hsplit hbase (Spells.plus hrun) hmark
    · exact HexField.spelled hsplit hbase (Spells.minus hrun) hmark

/-- A mark behind a zero is taken with the run behind it, and given back when
there is none: then the zero alone is the number. -/
theorem HexField.of_zero_mark {width : Nat} {input : Bytes} {x : UInt8} {rest : Bytes}
    (hx : IsMark x) (hfront : input.take (fieldLimit width) = 0x30 :: x :: rest) :
    HexField (0x30 :: x :: rest) (Field.take? format width input) := by
  have hreach := Field.follow_zero_mark hb hm hx rest
  rw [← hfront] at hreach
  have hmark : ¬SignBeforeMark (0x30 :: x :: rest) := by
    rintro ⟨_, _, _, _, htext, hsign, _, _⟩
    obtain ⟨rfl, _⟩ := List.cons.inj htext
    exact not_isSign_zero hsign
  by_cases hr : rest.takeWhile (Byte.isDigitBelow 16) = []
  · have hlast : ([0x30, x] : Bytes).getLast?.any isMark = true := by
      rcases hx with rfl | rfl <;> rfl
    have hzero : IsRun 16 [0x30] :=
      ⟨List.cons_ne_nil _ _, List.forall_mem_singleton.mpr (by decide)⟩
    obtain ⟨state, hbase, htake⟩ := (Field.take?_of_reaches hreach).2 trivial
    rw [hr, if_pos hlast] at htake
    rw [htake]
    have hsplit : 0x30 :: x :: rest = [0x30] ++ x :: rest := rfl
    exact HexField.spelled hsplit hbase (Spells.plain hzero) hmark
  · have hrun := isRun_takeWhile hr
    obtain ⟨state, hbase, htake⟩ :=
      Field.exists_take?_of_run [0x30, x] (Nat.le_refl 16) hrun hreach trivial
    rw [htake]
    have hsplit : 0x30 :: x :: rest = (0x30 :: x :: rest.takeWhile (Byte.isDigitBelow 16)) ++
        rest.dropWhile (Byte.isDigitBelow 16) := by
      rw [List.cons_append, List.cons_append, List.takeWhile_append_dropWhile]
    exact HexField.spelled hsplit hbase (Spells.marked rfl hx hrun) hmark

/-- With neither a sign nor `0x` in front, the longest run is taken. -/
theorem HexField.of_run {width : Nat} {input front : Bytes}
    (hs : ∀ c, front.head? = some c → ¬IsSign c)
    (hx : ∀ x rest, front = 0x30 :: x :: rest → ¬IsMark x)
    (hfront : input.take (fieldLimit width) = front) :
    HexField front (Field.take? format width input) := by
  have hreach := Field.follow_marked_run hb hm hs hx
  have hmark : ¬SignBeforeMark front := by
    rintro ⟨sign, _, _, _, htext, hsign, _, _⟩
    exact hs sign (by rw [htext]; rfl) hsign
  by_cases hr : front.takeWhile (Byte.isDigitBelow 16) = []
  · rw [← hfront] at hreach
    rw [(Field.take?_of_reaches hreach).1 (by rw [hfront]; exact not_not_intro hr)]
    refine HexField.refused hmark ?_
    intro hstart
    cases front with
    | nil =>
      obtain ⟨number, _, _, _, htext, hspells⟩ := hstart
      have hnil := (List.append_eq_nil_iff.mp htext.symm).1
      rw [hnil] at hspells
      cases hspells with
      | plain hrun => exact hrun.ne_nil rfl
    | cons c rest =>
      rcases hstart.cases with hd | ⟨hsign, _⟩
      · rw [List.takeWhile_cons_of_pos hd] at hr
        cases hr
      · exact hs c rfl hsign
  · have hrun := isRun_takeWhile hr
    rw [← hfront] at hreach hrun hr
    obtain ⟨state, hbase, htake⟩ :=
      Field.exists_take?_of_run [] (Nat.le_refl 16) hrun hreach hr
    rw [hfront] at htake hrun
    rw [htake]
    exact HexField.spelled List.takeWhile_append_dropWhile.symm hbase (Spells.plain hrun) hmark

/-- What becomes of a field of base 16, whatever its input. -/
theorem hexField_take? (width : Nat) (input : Bytes) :
    HexField (input.take (fieldLimit width)) (Field.take? format width input) := by
  generalize hfront : input.take (fieldLimit width) = front
  by_cases hs : ∃ sign rest, front = sign :: rest ∧ IsSign sign
  · obtain ⟨sign, rest, rfl, hs⟩ := hs
    by_cases hx : ∃ x tail, rest = x :: tail ∧ IsMark x
    · obtain ⟨x, tail, rfl, hx⟩ := hx
      exact HexField.of_sign_mark hb hm hs hx hfront
    · refine HexField.of_sign_run hb hm hs ?_ hfront
      intro c hc hmark
      obtain ⟨tail, rfl⟩ := List.head?_eq_some_iff.mp hc
      exact hx ⟨c, tail, rfl, hmark⟩
  · by_cases hx : ∃ x tail, front = 0x30 :: x :: tail ∧ IsMark x
    · obtain ⟨x, tail, rfl, hx⟩ := hx
      exact HexField.of_zero_mark hb hm hx hfront
    · refine HexField.of_run hb hm ?_ ?_ hfront
      · intro c hc hsign
        obtain ⟨tail, rfl⟩ := List.head?_eq_some_iff.mp hc
        exact hs ⟨c, tail, rfl, hsign⟩
      · intro x tail hzero hmark
        exact hx ⟨x, tail, hzero, hmark⟩

end Take

/-- The decoder finds no number behind a sign and a mark. -/
theorem decodeUnsigned_misplaced {sign x : UInt8} (hs : IsSign sign) (hx : IsMark x)
    (run : Bytes) : decodeUnsigned (sign :: x :: run) 16 = ⟨0, 0⟩ := by
  have hfirst : ¬Byte.isDigitBelow 16 x = true := not_isDigitBelow_of_isMark hx
  have hsign : readSign (sign :: x :: run) = (sign == 0x2D, x :: run) := by
    rcases hs with rfl | rfl <;> rfl
  have hspace : (sign :: x :: run).dropWhile Byte.isSpace = sign :: x :: run := by
    rcases hs with rfl | rfl <;> rfl
  have hbase : readBase 16 (x :: run) = (16, x :: run) := by
    rcases hx with rfl | rfl <;> rfl
  have hnil : (Parts.of 16 (sign :: x :: run)).run = [] := by
    unfold Parts.of
    rw [hspace, hsign]
    dsimp only
    rw [hbase]
    exact List.takeWhile_cons_of_neg hfirst
  exact decodeUnsigned_of_run_nil hnil

/-- The number format of the two hexadecimal conversions. -/
theorem ofByte_hex (pointer : Bool) :
    Conversion.ofByte (if pointer then 0x70 else 0x78) =
      .number { base := 16, signed := false, marked := true, pointer := pointer } := by
  cases pointer <;> rfl

/-- A hexadecimal conversion, with or without an address as its target, refuses
an input without a number in front. Otherwise it takes a front of its input and
stores what the decoder returns for it. The decoder consumes all of that front,
and the word is that of a spelled number, exactly when no sign stands before an
`x` and a digit there. Such a front is taken as well, and zero is stored. -/
theorem perform_hex (pointer : Bool) (directive : Directive) (progress : Progress) :
    let performed := (Conversion.ofByte (if pointer then 0x70 else 0x78)).perform directive progress
    let front := progress.input.take (fieldLimit directive.width)
    (performed = .error .mismatch ∧ ¬SignBeforeMark front ∧ ¬StartsWithHex front) ∨
      ∃ text bits, text ≠ [] ∧ text <+: front ∧
        performed = (progress.advance text.length).assign directive.suppressed
          (if pointer then .pointer else .integer)
          (if pointer then intoPointer bits else intoInteger directive.length.forTarget bits) ∧
        bits = (decodeUnsigned text 16).value ∧
        ((decodeUnsigned text 16).finish = text.length ↔ ¬SignBeforeMark front) ∧
        ((∃ negative run, Spells 16 text negative run ∧
          bits = wordOf negative (runValue 16 run)) ↔ ¬SignBeforeMark front) ∧
        (SignBeforeMark front → bits = 0) := by
  dsimp only
  rw [ofByte_hex, perform_number]
  have hfield : HexField (progress.input.take (fieldLimit directive.width))
      (Field.take? ⟨16, false, true, pointer⟩ directive.width progress.input) :=
    hexField_take? rfl rfl directive.width progress.input
  generalize progress.input.take (fieldLimit directive.width) = front at hfield ⊢
  generalize Field.take? ⟨16, false, true, pointer⟩ directive.width progress.input = taken
    at hfield ⊢
  cases hfield with
  | refused hmark hnone => exact Or.inl ⟨rfl, hmark, hnone⟩
  | @spelled text rest run negative state hfront hbase h hmark =>
    right
    have hdecode := h.decodeUnsigned_eq (by omega) (by omega)
    have hbits : Field.bits ⟨16, false, true, pointer⟩ ⟨text, state⟩ =
        (decodeUnsigned text 16).value := by
      rw [← hbase]
      rfl
    refine ⟨text, Field.bits ⟨16, false, true, pointer⟩ ⟨text, state⟩, ?_, ⟨rest, hfront.symm⟩,
      rfl, hbits, ?_, ?_, fun hno => absurd hno hmark⟩
    · rintro rfl
      cases h with
      | plain hr => exact hr.ne_nil rfl
    · rw [hdecode]
      exact iff_of_true rfl hmark
    · refine iff_of_true ⟨negative, run, h, ?_⟩ hmark
      rw [hbits, hdecode]
  | @misplaced sign x run rest state hfront hbase hs hx hr =>
    right
    have hmark : SignBeforeMark front := ⟨sign, x, run, rest, hfront, hs, hx, hr⟩
    have hdecode := decodeUnsigned_misplaced hs hx run
    have hbits : Field.bits ⟨16, false, true, pointer⟩ ⟨sign :: x :: run, state⟩ =
        (decodeUnsigned (sign :: x :: run) 16).value := by
      rw [← hbase]
      rfl
    refine ⟨sign :: x :: run, _, List.cons_ne_nil _ _, ⟨rest, hfront.symm⟩, rfl, hbits, ?_, ?_,
      fun _ => ?_⟩
    · rw [hdecode]
      exact iff_of_false (Nat.succ_ne_zero _).symm (not_not_intro hmark)
    · refine iff_of_false ?_ (not_not_intro hmark)
      rintro ⟨negative, digits, hspells, _⟩
      have hfinish := hspells.decodeUnsigned_eq (by omega) (by omega)
      rw [hdecode] at hfinish
      exact absurd (congrArg Decoded.finish hfinish) (Nat.succ_ne_zero _).symm
    · rw [hbits, hdecode]

/-- A plus sign, an `x` and a digit are taken, all three bytes, and zero is stored:
the decoder finds no number in them. -/
theorem perform_hex_plus_mark :
    let directive : Directive := { conversion := Conversion.ofByte 0x78 }
    let progress : Progress := { input := [0x2B, 0x78, 0x31], targets := .start [.uint 7] }
    (directive.perform progress).map (fun done => (done.read, done.targets.all)) =
        .ok (3, [.uint 0]) ∧
      (decodeUnsigned [0x2B, 0x78, 0x31] 16).finish ≠ 3 := by
  decide

end FormatScan.Scan
