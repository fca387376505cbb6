import FormatScan.Proofs.Numeral.Decoding
import Mathlib.Data.List.TakeWhile

/-!
# Spelled numbers

A spelled number is a run of digits behind at most one sign, or behind `0x` in
base 16. A decoder consumes such a text completely and returns the value of its
run; this is what a text has to look like for a scanner to hand it on.
-/

namespace FormatScan.Numeral

/-- The sign bytes. -/
def IsSign (c : UInt8) : Prop := c = 0x2B ∨ c = 0x2D

/-- An `x` of either case. -/
def IsMark (c : UInt8) : Prop := c = 0x78 ∨ c = 0x58

/-- A run of digits below a base, with at least one of them. -/
structure IsRun (base : Nat) (run : Bytes) : Prop where
  /-- There is a digit. -/
  ne_nil : run ≠ []
  /-- There is nothing else. -/
  digits : ∀ c ∈ run, Byte.isDigitBelow base c = true

/-- A text spells a number in a base: its sign and its digits. -/
inductive Spells (base : Nat) : Bytes → Bool → Bytes → Prop where
  /-- Digits alone. -/
  | plain {run : Bytes} (hr : IsRun base run) : Spells base run false run
  /-- Digits behind a plus sign. -/
  | plus {run : Bytes} (hr : IsRun base run) : Spells base (0x2B :: run) false run
  /-- Digits behind a minus sign. -/
  | minus {run : Bytes} (hr : IsRun base run) : Spells base (0x2D :: run) true run
  /-- Digits behind the mark of base 16. -/
  | marked {x : UInt8} {run : Bytes} (hb : base = 16) (hx : IsMark x) (hr : IsRun base run) :
      Spells base (0x30 :: x :: run) false run

/-- An `x` is no hexadecimal digit. -/
theorem not_isDigitBelow_of_isMark {x : UInt8} (hx : IsMark x) :
    ¬Byte.isDigitBelow 16 x = true := by
  rcases hx with rfl | rfl <;> decide

/-- A text that starts with `0x` has an `x` at its second place. -/
theorem exists_of_hexMarked {text : Bytes} (h : hexMarked text = true) :
    ∃ x rest, IsMark x ∧ text = 0x30 :: x :: rest := by
  unfold hexMarked at h
  split at h
  · exact ⟨0x78, _, Or.inl rfl, rfl⟩
  · exact ⟨0x58, _, Or.inr rfl, rfl⟩
  · cases h

/-- Digits keep their base: a run has no `x` that could change it. -/
theorem readBase_run {base : Nat} (h0 : base ≠ 0) {run : Bytes} (hr : IsRun base run) :
    readBase base run = (base, run) := by
  have hmark : ¬((base == 0 || base == 16) && hexMarked run) = true := by
    intro h
    rw [Bool.and_eq_true, Bool.or_eq_true, beq_iff_eq, beq_iff_eq] at h
    obtain ⟨hbase, hmarked⟩ := h
    have hbase : base = 16 := by omega
    obtain ⟨x, rest, hx, htext⟩ := exists_of_hexMarked hmarked
    have hd := hr.digits x (by rw [htext]; simp)
    rw [hbase] at hd
    exact not_isDigitBelow_of_isMark hx hd
  have hzero : ¬(base == 0) = true := by simpa using h0
  unfold readBase
  rw [if_neg hmark, if_neg hzero]

/-- A run has neither blanks nor a sign in front of it. -/
theorem readSign_run {base : Nat} {run : Bytes} (hr : IsRun base run) :
    run.dropWhile Byte.isSpace = run ∧ readSign run = (false, run) := by
  cases run with
  | nil => exact absurd rfl hr.ne_nil
  | cons c rest =>
    obtain ⟨hspace, _, hplus, hminus⟩ := Byte.class_of_isDigitBelow (hr.digits c List.mem_cons_self)
    constructor
    · rw [List.dropWhile_cons_of_neg (by rw [hspace]; exact Bool.false_ne_true)]
    · unfold readSign
      split
      · rename_i heq
        exact absurd (List.cons.inj heq).1 hminus
      · rename_i heq
        exact absurd (List.cons.inj heq).1 hplus
      · rfl

/-- Digits end only where their run does. -/
theorem span_run {base : Nat} {run : Bytes} (hr : IsRun base run) :
    run.takeWhile (Byte.isDigitBelow base) = run ∧
      run.dropWhile (Byte.isDigitBelow base) = [] := by
  have hsplit : run.takeWhile (Byte.isDigitBelow base) = run := by
    rw [List.takeWhile_eq_self_iff]
    exact hr.digits
  refine ⟨hsplit, ?_⟩
  rw [List.dropWhile_eq_nil_iff]
  exact hr.digits

/-- The parts of a text follow from what its front shows: no blank, a sign or
none, and a base mark or none in front of the digits. -/
theorem parts_of_front {base shown : Nat} {text body run : Bytes} {negative : Bool}
    (hspace : text.dropWhile Byte.isSpace = text) (hsign : readSign text = (negative, body))
    (hbase : readBase base body = (shown, run)) (hr : IsRun shown run) :
    Parts.of base text = ⟨negative, shown, run, []⟩ := by
  unfold Parts.of
  rw [hspace, hsign]
  dsimp only
  rw [hbase]
  dsimp only
  rw [(span_run hr).1, (span_run hr).2]

/-- The parts of a spelled number, with nothing left over. -/
theorem Spells.parts {base : Nat} (h0 : base ≠ 0) {text run : Bytes} {negative : Bool}
    (h : Spells base text negative run) : Parts.of base text = ⟨negative, base, run, []⟩ := by
  cases h with
  | plain hr =>
    obtain ⟨hspace, hsign⟩ := readSign_run hr
    exact parts_of_front hspace hsign (readBase_run h0 hr) hr
  | plus hr => exact parts_of_front rfl rfl (readBase_run h0 hr) hr
  | minus hr => exact parts_of_front rfl rfl (readBase_run h0 hr) hr
  | @marked x run hb hx hr =>
    have hbase : readBase base (0x30 :: x :: run) = (base, run) := by
      rw [hb]
      rcases hx with rfl | rfl <;> rfl
    exact parts_of_front rfl rfl hbase hr

/-- A spelled number has at least one digit. -/
theorem Spells.isRun {base : Nat} {text run : Bytes} {negative : Bool}
    (h : Spells base text negative run) : IsRun base run := by
  cases h with
  | plain hr => exact hr
  | plus hr => exact hr
  | minus hr => exact hr
  | marked hb hx hr => exact hr

section Decoders

variable {base : Nat} {text run : Bytes} {negative : Bool}

/-- The unsigned decoder consumes a spelled number and returns its word. -/
theorem Spells.decodeUnsigned_eq (h : Spells base text negative run) (hb : 2 ≤ base)
    (hb' : base ≤ 36) :
    decodeUnsigned text base = ⟨wordOf negative (runValue base run), text.length⟩ := by
  have hp := h.parts (by omega)
  have hr : (Parts.of base text).run ≠ [] := by
    rw [hp]
    exact h.isRun.ne_nil
  rw [decodeUnsigned_of_run (by omega) hb' hr, hp]
  rfl

/-- The signed decoder consumes a spelled number and returns its word. -/
theorem Spells.decodeSigned_eq (h : Spells base text negative run) (hb : 2 ≤ base)
    (hb' : base ≤ 36) :
    decodeSigned text base = ⟨quadOf negative (runValue base run), text.length⟩ := by
  have hp := h.parts (by omega)
  have hr : (Parts.of base text).run ≠ [] := by
    rw [hp]
    exact h.isRun.ne_nil
  rw [decodeSigned_of_run (by omega) hb' hr, hp]
  rfl

end Decoders

end FormatScan.Numeral
