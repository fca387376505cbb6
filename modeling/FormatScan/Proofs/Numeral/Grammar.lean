import FormatScan.Proofs.Numeral.Spelling
import Mathlib.Data.List.Induction
import Mathlib.Data.Nat.Digits.Defs

/-!
# The grammar of number texts

Every text falls into five parts: blanks, a sign, a base mark, digits and a rest.
Each of the first four parts is as long as it can be where it stands, so there is
exactly one way to cut a text. The decoders are described by this cut alone: all
of them end where the digits end, and their values are the exact value of the
digits, brought into the range of the word.

A zero byte belongs to none of the first four parts. What is said about the cut of
a text up to its first zero byte holds for the whole text.
-/

namespace FormatScan.Numeral

/-- A front whose bytes pass a test, ahead of a byte that fails it, is what
`takeWhile` finds. -/
theorem span_of_maximal {test : UInt8 → Bool} {front back : Bytes}
    (hfront : ∀ c ∈ front, test c = true) (hback : ∀ c, back.head? = some c → ¬test c = true) :
    (front ++ back).takeWhile test = front ∧ (front ++ back).dropWhile test = back := by
  rw [List.takeWhile_append_of_pos hfront, List.dropWhile_append_of_pos hfront]
  cases back with
  | nil => simp
  | cons c back =>
    have hc := hback c rfl
    rw [List.takeWhile_cons_of_neg hc, List.dropWhile_cons_of_neg hc, List.append_nil]
    exact ⟨rfl, rfl⟩

/-- The value of a run is that of its digits, the least significant one first. -/
theorem runValue_eq_ofDigits (base : Nat) (run : Bytes) :
    runValue base run = Nat.ofDigits base (run.map Byte.digitOf).reverse := by
  induction run using List.reverseRecOn with
  | nil => rfl
  | append_singleton run c ih =>
    rw [runValue_concat, ih, List.map_append, List.map_singleton, List.reverse_append,
      List.reverse_singleton, List.singleton_append, Nat.ofDigits_cons]
    ring

/-- A text cut into the parts of a number. -/
@[ext]
structure NumberText where
  /-- What is skipped in front. -/
  blanks : Bytes
  /-- The sign, or nothing. -/
  sign : Bytes
  /-- The mark of base 16, or nothing. -/
  mark : Bytes
  /-- The digits. -/
  run : Bytes
  /-- What does not belong to the number. -/
  rest : Bytes
deriving DecidableEq, Repr

namespace NumberText

/-- The number of bytes in front of the rest. -/
def finish (parts : NumberText) : Nat :=
  parts.blanks.length + parts.sign.length + parts.mark.length + parts.run.length

/-- Whether the sign is a minus sign. -/
def negative (parts : NumberText) : Bool := parts.sign == [0x2D]

/-- The base that a text has under a wanted one. A mark commits to base 16. Without
one, base 0 stands for base 8 in front of a zero, and for base 10 otherwise. -/
def shown (base : Nat) (parts : NumberText) : Nat :=
  if parts.mark ≠ [] then 16
  else if base = 0 then if (parts.run ++ parts.rest).head? = some 0x30 then 8 else 10
  else base

/-- The exact value of the digits. -/
def magnitude (base : Nat) (parts : NumberText) : Nat :=
  Nat.ofDigits (parts.shown base) (parts.run.map Byte.digitOf).reverse

/-- The way in which a text falls into parts under a wanted base. -/
structure Splits (base : Nat) (text : Bytes) (parts : NumberText) : Prop where
  /-- The parts are the text. -/
  text_eq : text = parts.blanks ++ (parts.sign ++ (parts.mark ++ (parts.run ++ parts.rest)))
  /-- The blanks are blank. -/
  blank : ∀ c ∈ parts.blanks, Byte.isSpace c = true
  /-- No blank follows them. -/
  no_blank : ∀ c, (parts.sign ++ (parts.mark ++ (parts.run ++ parts.rest))).head? = some c →
    ¬Byte.isSpace c = true
  /-- There is at most one sign. -/
  signed : parts.sign = [] ∨ ∃ c, IsSign c ∧ parts.sign = [c]
  /-- A sign is not left to the other parts. -/
  no_sign : parts.sign = [] → ∀ c, (parts.mark ++ (parts.run ++ parts.rest)).head? = some c →
    ¬IsSign c
  /-- A mark is `0x`, where the base allows it. -/
  marked : parts.mark = [] ∨ (base = 0 ∨ base = 16) ∧ ∃ x, IsMark x ∧ parts.mark = [0x30, x]
  /-- An allowed mark is not left to the other parts. -/
  no_mark : parts.mark = [] → base = 0 ∨ base = 16 →
    ∀ x tail, parts.run ++ parts.rest = 0x30 :: x :: tail → ¬IsMark x
  /-- The digits are below the base. -/
  digit : ∀ c ∈ parts.run, Byte.isDigitBelow (parts.shown base) c = true
  /-- No digit follows them. -/
  no_digit : ∀ c, parts.rest.head? = some c → ¬Byte.isDigitBelow (parts.shown base) c = true

variable {base : Nat} {text : Bytes} {parts : NumberText}

/-- The parts in front of the rest end where it starts. -/
theorem Splits.finish_eq (h : parts.Splits base text) :
    text.length - parts.rest.length = parts.finish := by
  have hlength := congrArg List.length h.text_eq
  simp only [List.length_append] at hlength
  unfold finish
  omega

/-- Behind the number lies the rest. -/
theorem Splits.drop_finish (h : parts.Splits base text) : text.drop parts.finish = parts.rest := by
  have htext : text = (parts.blanks ++ parts.sign ++ parts.mark ++ parts.run) ++ parts.rest := by
    rw [h.text_eq]
    simp only [List.append_assoc]
  have hlength : (parts.blanks ++ parts.sign ++ parts.mark ++ parts.run).length = parts.finish := by
    simp only [List.length_append, finish]
  rw [htext, ← hlength, List.drop_left]

/-- Reading a sign finds the sign of the cut. -/
theorem Splits.readSign_eq (h : parts.Splits base text) :
    readSign (parts.sign ++ (parts.mark ++ (parts.run ++ parts.rest))) =
      (parts.negative, parts.mark ++ (parts.run ++ parts.rest)) := by
  rcases h.signed with hnone | ⟨c, hc, hsome⟩
  · have hsign := h.no_sign hnone
    rw [negative, hnone, List.nil_append]
    unfold readSign
    split
    · rename_i heq
      exact absurd (Or.inr rfl) (hsign 0x2D (by rw [heq]; rfl))
    · rename_i heq
      exact absurd (Or.inl rfl) (hsign 0x2B (by rw [heq]; rfl))
    · rfl
  · rw [negative, hsome]
    rcases hc with rfl | rfl <;> rfl

/-- Reading a base finds the mark of the cut, and the base that it shows. -/
theorem Splits.readBase_eq (h : parts.Splits base text) :
    readBase base (parts.mark ++ (parts.run ++ parts.rest)) =
      (parts.shown base, parts.run ++ parts.rest) := by
  rcases h.marked with hnone | ⟨hbase, x, hx, hsome⟩
  · have hmark : ¬((base == 0 || base == 16) && hexMarked (parts.run ++ parts.rest)) = true := by
      intro hmarked
      rw [Bool.and_eq_true, Bool.or_eq_true, beq_iff_eq, beq_iff_eq] at hmarked
      obtain ⟨x, tail, hx, htext⟩ := exists_of_hexMarked hmarked.2
      exact h.no_mark hnone hmarked.1 x tail htext hx
    rw [shown, hnone, List.nil_append, readBase, if_neg hmark]
    by_cases hzero : base = 0
    · simp [hzero]
    · simp [hzero]
  · have hmark : ((base == 0 || base == 16) &&
        hexMarked ([0x30, x] ++ (parts.run ++ parts.rest))) = true := by
      rw [Bool.and_eq_true, Bool.or_eq_true, beq_iff_eq, beq_iff_eq]
      refine ⟨hbase, ?_⟩
      rcases hx with rfl | rfl <;> rfl
    rw [shown, hsome, readBase, if_pos hmark, if_pos (List.cons_ne_nil _ _)]
    rfl

/-- What a decoder finds in a text is the cut of that text. -/
theorem Splits.parts_eq (h : parts.Splits base text) :
    Parts.of base text = ⟨parts.negative, parts.shown base, parts.run, parts.rest⟩ := by
  have hblanks := (span_of_maximal h.blank h.no_blank).2
  have hdigits := span_of_maximal h.digit h.no_digit
  rw [← h.text_eq] at hblanks
  unfold Parts.of
  rw [hblanks, h.readSign_eq]
  dsimp only
  rw [h.readBase_eq]
  dsimp only
  rw [hdigits.1, hdigits.2]

section Decoders

variable (h1 : base ≠ 1) (h36 : base ≤ 36)

include h1 h36

/-- The unsigned decoder returns the word of the digits and ends behind them. -/
theorem Splits.decodeUnsigned_eq (h : parts.Splits base text) (hrun : parts.run ≠ []) :
    decodeUnsigned text base =
      ⟨wordOf parts.negative (runValue (parts.shown base) parts.run), parts.finish⟩ := by
  have hparts := h.parts_eq
  have hne : (Parts.of base text).run ≠ [] := by rwa [hparts]
  rw [decodeUnsigned_of_run h1 h36 hne, hparts, h.finish_eq]

/-- The signed decoder returns the word of the digits and ends behind them. -/
theorem Splits.decodeSigned_eq (h : parts.Splits base text) (hrun : parts.run ≠ []) :
    decodeSigned text base =
      ⟨quadOf parts.negative (runValue (parts.shown base) parts.run), parts.finish⟩ := by
  have hparts := h.parts_eq
  have hne : (Parts.of base text).run ≠ [] := by rwa [hparts]
  rw [decodeSigned_of_run h1 h36 hne, hparts, h.finish_eq]

end Decoders

/-- A text has a longest front whose bytes pass a test. -/
theorem exists_span (test : UInt8 → Bool) (text : Bytes) :
    ∃ front back, text = front ++ back ∧ (∀ c ∈ front, test c = true) ∧
      ∀ c, back.head? = some c → ¬test c = true := by
  refine ⟨text.takeWhile test, text.dropWhile test, List.takeWhile_append_dropWhile.symm,
    List.all_eq_true.mp List.all_takeWhile, ?_⟩
  intro c hc
  have hhead := List.head?_dropWhile_not test text
  rw [hc] at hhead
  simpa using hhead

/-- A text starts with a sign or does not. -/
theorem exists_sign (text : Bytes) :
    ∃ sign rest, text = sign ++ rest ∧ (sign = [] ∨ ∃ c, IsSign c ∧ sign = [c]) ∧
      (sign = [] → ∀ c, rest.head? = some c → ¬IsSign c) := by
  by_cases hsign : ∃ c tail, IsSign c ∧ text = c :: tail
  · obtain ⟨c, tail, hc, htext⟩ := hsign
    exact ⟨[c], tail, htext, Or.inr ⟨c, hc, rfl⟩, fun hnil => by cases hnil⟩
  · refine ⟨[], text, rfl, Or.inl rfl, ?_⟩
    intro _ c hc hs
    obtain ⟨tail, htext⟩ := List.head?_eq_some_iff.mp hc
    exact hsign ⟨c, tail, hs, htext⟩

/-- A text starts with a mark that the base allows or does not. -/
theorem exists_mark (base : Nat) (text : Bytes) :
    ∃ mark rest, text = mark ++ rest ∧
      (mark = [] ∨ (base = 0 ∨ base = 16) ∧ ∃ x, IsMark x ∧ mark = [0x30, x]) ∧
      (mark = [] → base = 0 ∨ base = 16 → ∀ x tail, rest = 0x30 :: x :: tail → ¬IsMark x) := by
  by_cases hmark : (base = 0 ∨ base = 16) ∧ ∃ x tail, IsMark x ∧ text = 0x30 :: x :: tail
  · obtain ⟨hbase, x, tail, hx, htext⟩ := hmark
    exact ⟨[0x30, x], tail, htext, Or.inr ⟨hbase, x, hx, rfl⟩, fun hnil => by cases hnil⟩
  · refine ⟨[], text, rfl, Or.inl rfl, ?_⟩
    intro _ hbase x tail htext hx
    exact hmark ⟨hbase, x, tail, hx, htext⟩

/-- Every text can be cut: each part is taken from the front of what the parts ahead
of it leave. -/
theorem exists_splits (base : Nat) (text : Bytes) :
    ∃ parts : NumberText, parts.Splits base text := by
  obtain ⟨blanks, unsigned, rfl, hblank, hnoblank⟩ := exists_span Byte.isSpace text
  obtain ⟨sign, unmarked, rfl, hsigned, hnosign⟩ := exists_sign unsigned
  obtain ⟨mark, body, rfl, hmarked, hnomark⟩ := exists_mark base unmarked
  obtain ⟨run, rest, rfl, hdigit, hnodigit⟩ := exists_span (Byte.isDigitBelow
    (if mark ≠ [] then 16 else if base = 0 then if body.head? = some 0x30 then 8 else 10 else base))
    body
  exact ⟨⟨blanks, sign, mark, run, rest⟩, rfl, hblank, hnoblank, hsigned, hnosign, hmarked,
    hnomark, hdigit, hnodigit⟩

/-- There is only one way to cut a text. -/
theorem Splits.unique {other : NumberText} (h : parts.Splits base text)
    (h' : other.Splits base text) : other = parts := by
  have hparts := h'.parts_eq.symm.trans h.parts_eq
  have hrun : other.run = parts.run := congrArg Parts.run hparts
  have hrest : other.rest = parts.rest := congrArg Parts.rest hparts
  have hblanks : other.blanks = parts.blanks := by
    have hfirst := (span_of_maximal h'.blank h'.no_blank).1
    have hsecond := (span_of_maximal h.blank h.no_blank).1
    rw [← h'.text_eq] at hfirst
    rw [← h.text_eq] at hsecond
    exact hfirst.symm.trans hsecond
  have hfront : other.sign ++ other.mark = parts.sign ++ parts.mark := by
    have htext := h'.text_eq.symm.trans h.text_eq
    rw [hblanks, hrun, hrest] at htext
    have hbody := List.append_cancel_left htext
    rw [← List.append_assoc, ← List.append_assoc parts.sign] at hbody
    exact List.append_cancel_right hbody
  -- A mark starts with a zero and a sign does not, so the sign is seen at the front.
  have hsigns : ∀ {p q : NumberText}, p.Splits base text → q.Splits base text →
      p.sign ++ p.mark = q.sign ++ q.mark → ∀ c, IsSign c → p.sign = [c] → q.sign = [c] := by
    intro p q hp hq heq c hc hpc
    rcases hq.signed with hnone | ⟨d, _, hqd⟩
    · rw [hpc, hnone] at heq
      rcases hq.marked with hempty | ⟨_, x, _, hmark⟩
      · rw [hempty] at heq
        cases heq
      · rw [hmark] at heq
        have hzero : c = 0x30 := (List.cons.inj heq).1
        rw [hzero] at hc
        rcases hc with hc | hc <;> cases hc
    · rw [hpc, hqd] at heq
      rw [hqd, (List.cons.inj heq).1]
  have hsign : other.sign = parts.sign := by
    rcases h'.signed with hnone | ⟨c, hc, hsome⟩
    · rcases h.signed with hnone' | ⟨d, hd, hsome'⟩
      · rw [hnone, hnone']
      · have hother := hsigns h h' hfront.symm d hd hsome'
        rw [hother, hsome']
    · rw [hsome, hsigns h' h hfront c hc hsome]
  have hmark : other.mark = parts.mark := by
    rw [hsign] at hfront
    exact List.append_cancel_left hfront
  exact NumberText.ext hblanks hsign hmark hrun hrest

/-- What follows a text up to its first zero byte is nothing, or starts there. -/
theorem head?_beyond_zero {text : Bytes} {c : UInt8}
    (hc : (text.dropWhile (· != 0)).head? = some c) : c = 0 := by
  have hhead := List.head?_dropWhile_not (· != 0) text
  rw [hc] at hhead
  simpa using hhead

/-- A zero byte behind a text does not change the base that it shows. -/
theorem shown_append_rest (base : Nat) (parts : NumberText) {tail : Bytes}
    (htail : ∀ c, tail.head? = some c → c = 0) :
    ({ parts with rest := parts.rest ++ tail } : NumberText).shown base = parts.shown base := by
  unfold shown
  dsimp only
  rw [← List.append_assoc]
  cases hbody : parts.run ++ parts.rest with
  | nil =>
    have hnone : tail.head? ≠ some 0x30 := fun hc => absurd (htail _ hc) (by decide)
    simp [hnone]
  | cons c body => rfl

/-- The cut of a text up to its first zero byte is the cut of the whole text, with
the bytes from there on in its rest. -/
theorem Splits.beyond_zero (h : parts.Splits base (untilZero text)) :
    ({ parts with rest := parts.rest ++ text.dropWhile (· != 0) } : NumberText).Splits base
      text := by
  have htail : ∀ c, (text.dropWhile (· != 0)).head? = some c → c = 0 :=
    fun c hc => head?_beyond_zero hc
  have htext : text = untilZero text ++ text.dropWhile (· != 0) :=
    List.takeWhile_append_dropWhile.symm
  generalize text.dropWhile (· != 0) = tail at htail htext ⊢
  have hhead : ∀ (front : Bytes) (c : UInt8), (front ++ tail).head? = some c →
      front.head? = some c ∨ c = 0 := by
    intro front c hc
    cases front with
    | nil => exact Or.inr (htail c hc)
    | cons d front => exact Or.inl hc
  have hshown := shown_append_rest base parts htail
  have hzero : ¬Byte.isDigitBelow (parts.shown base) 0 = true := by
    intro hd
    exact (Byte.class_of_isDigitBelow hd).2.1 rfl
  refine ⟨?_, h.blank, ?_, h.signed, ?_, h.marked, ?_, ?_, ?_⟩
  · have heq := h.text_eq
    rw [htext, heq]
    simp only [List.append_assoc]
  · intro c hc
    have hfront := hhead (parts.sign ++ (parts.mark ++ (parts.run ++ parts.rest))) c
      (by simpa only [List.append_assoc] using hc)
    rcases hfront with hold | rfl
    · exact h.no_blank c hold
    · decide
  · intro hnone c hc
    have hfront := hhead (parts.mark ++ (parts.run ++ parts.rest)) c
      (by simpa only [List.append_assoc] using hc)
    rcases hfront with hold | rfl
    · exact h.no_sign hnone c hold
    · rintro (heq | heq) <;> cases heq
  · intro hnone hbase x more heq hx
    dsimp only at heq
    rw [← List.append_assoc] at heq
    cases hbody : parts.run ++ parts.rest with
    | nil =>
      rw [hbody, List.nil_append] at heq
      have hc := htail 0x30 (by rw [heq]; rfl)
      cases hc
    | cons c body =>
      rw [hbody, List.cons_append] at heq
      obtain ⟨rfl, hbehind⟩ := List.cons.inj heq
      have hfront := hhead body x (by rw [hbehind]; rfl)
      rcases hfront with hold | rfl
      · obtain ⟨more', rfl⟩ := List.head?_eq_some_iff.mp hold
        exact h.no_mark hnone hbase x more' hbody hx
      · rcases hx with hx | hx <;> cases hx
  · rw [hshown]
    exact h.digit
  · rw [hshown]
    intro c hc
    rcases hhead parts.rest c hc with hold | rfl
    · exact h.no_digit c hold
    · exact hzero

end NumberText

/-- The word for a magnitude and its sign, as a number. -/
theorem toNat_wordOf (negative : Bool) (magnitude : Nat) :
    (wordOf negative magnitude).toNat =
      if 2 ^ 64 - 1 < magnitude then 2 ^ 64 - 1
      else if negative then (2 ^ 64 - magnitude) % 2 ^ 64
      else magnitude := by
  have hlargest : 2 ^ 64 - 1 = Word.largest := by decide
  unfold wordOf
  rw [hlargest]
  by_cases hover : Word.largest < magnitude
  · rw [if_pos hover, if_pos hover]
    decide
  · rw [if_neg hover, if_neg hover, Word.ofInt, UInt64.toNat_ofNat']
    dsimp only [Word.largest] at hover ⊢
    cases negative with
    | false =>
      simp only [signedBy, Bool.false_eq_true, if_false]
      omega
    | true =>
      simp only [signedBy, if_true]
      omega

/-- The signed word for a magnitude and its sign, as a number. -/
theorem toInt_quadOf (negative : Bool) (magnitude : Nat) :
    (quadOf negative magnitude).toInt =
      max (-9223372036854775808)
        (min (if negative then -(magnitude : Int) else magnitude) 9223372036854775807) := by
  rw [quadOf, Int64.toInt_ofInt_of_le]
  · rfl
  · unfold Quad.clamp Quad.least Quad.greatest
    omega
  · unfold Quad.clamp Quad.least Quad.greatest
    omega

/-- The decoders follow the grammar of number texts. The text up to its first zero
byte is cut into blanks, a sign, a mark, digits and a rest, in the only way there
is. All three decoders end behind the digits. The signed one returns the exact
value with its sign, held in the range of the word. The unsigned ones return the
largest word for a value beyond it, whatever the sign, and otherwise the value,
which a minus sign negates within the word. Where there are no digits, value and
end are zero, and so they are in base 1 and in the bases above 36. -/
theorem decode_follows_grammar (base : Nat) (text : Bytes) :
    ((base = 1 ∨ 36 < base) →
      decodeSigned text base = ⟨0, 0⟩ ∧ decodeUnsigned text base = ⟨0, 0⟩ ∧
        decodeMachineWord text base = ⟨0, 0⟩) ∧
    (¬(base = 1 ∨ 36 < base) →
      ∃ parts : NumberText, parts.Splits base (untilZero text) ∧
        (∀ other : NumberText, other.Splits base (untilZero text) → other = parts) ∧
        (parts.run = [] →
          decodeSigned text base = ⟨0, 0⟩ ∧ decodeUnsigned text base = ⟨0, 0⟩ ∧
            decodeMachineWord text base = ⟨0, 0⟩) ∧
        (parts.run ≠ [] →
          let m := parts.magnitude base
          ((decodeSigned text base).finish = parts.finish ∧
            (decodeUnsigned text base).finish = parts.finish ∧
            (decodeMachineWord text base).finish = parts.finish) ∧
          (decodeSigned text base).value.toInt =
            max (-9223372036854775808)
              (min (if parts.negative then -(m : Int) else m) 9223372036854775807) ∧
          (decodeUnsigned text base).value.toNat =
            (if 2 ^ 64 - 1 < m then 2 ^ 64 - 1
            else if parts.negative then (2 ^ 64 - m) % 2 ^ 64 else m) ∧
          (decodeMachineWord text base).value.toNat =
            (if 2 ^ 64 - 1 < m then 2 ^ 64 - 1
            else if parts.negative then (2 ^ 64 - m) % 2 ^ 64 else m))) := by
  refine ⟨?_, ?_⟩
  · intro hbase
    have hread : ∀ limit, read base limit text = .none := by
      intro limit
      rw [read, if_pos (by simpa using hbase)]
    unfold decodeMachineWord decodeSigned decodeUnsigned decodeWord
    rw [hread, hread]
    exact ⟨rfl, rfl, rfl⟩
  · intro hbase
    obtain ⟨parts, hsplits⟩ := NumberText.exists_splits base (untilZero text)
    have hwhole := hsplits.beyond_zero
    refine ⟨parts, hsplits, fun other hother => hsplits.unique hother, ?_, ?_⟩
    · intro hnil
      have hrun : (Parts.of base text).run = [] := by
        rw [hwhole.parts_eq]
        exact hnil
      exact ⟨decodeSigned_of_run_nil hrun, decodeUnsigned_of_run_nil hrun,
        decodeUnsigned_of_run_nil hrun⟩
    · intro hrun m
      have hvalue : runValue (({ parts with rest := parts.rest ++ text.dropWhile (· != 0) } :
          NumberText).shown base) parts.run = m := by
        rw [NumberText.shown_append_rest base parts fun c hc => NumberText.head?_beyond_zero hc,
          runValue_eq_ofDigits]
        rfl
      have hsigned := hwhole.decodeSigned_eq (by omega) (by omega) hrun
      have hunsigned := hwhole.decodeUnsigned_eq (by omega) (by omega) hrun
      rw [hvalue] at hsigned hunsigned
      unfold decodeMachineWord
      rw [hsigned, hunsigned]
      exact ⟨⟨rfl, rfl, rfl⟩, toInt_quadOf _ _, toNat_wordOf _ _, toNat_wordOf _ _⟩

end FormatScan.Numeral
