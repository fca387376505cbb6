import FormatScan.Format.Render
import FormatScan.Proofs.Output.Storage

/-!
# The steps of formatting

A directive that names its conversion is settled by its own bytes: reading it
takes a front of the format and does not look behind it. Whatever follows may be
exchanged without changing the directive. An invalid directive has no such
front, since it may be invalid only because the format ends.

The equations of `run` are stated once for each kind of step, a literal byte, a
directive that succeeds, one that fails and an invalid one. From them follow the
two facts about whole calls that the bounded-write contract rests on: the length
reported is the count of the pieces, and a failing call has produced what the
format in front of the failing directive produces.
-/

namespace FormatScan.Format

/-- A run of digits ends in front of a byte that is none, whatever follows. -/
theorem span_digits_append {digits : Bytes} (hd : ∀ c ∈ digits, Byte.isDigit c = true)
    {stop : UInt8} (hs : Byte.isDigit stop = false) (rest : Bytes) :
    (digits ++ stop :: rest).takeWhile Byte.isDigit = digits ∧
      (digits ++ stop :: rest).dropWhile Byte.isDigit = stop :: rest := by
  have hs' : ¬Byte.isDigit stop = true := by rw [hs]; exact Bool.false_ne_true
  constructor
  · rw [List.takeWhile_append_of_pos hd, List.takeWhile_cons_of_neg hs', List.append_nil]
  · rw [List.dropWhile_append_of_pos hd, List.dropWhile_cons_of_neg hs']

/-- A named directive takes some bytes from the front of the format and is the
same directive in front of any other rest. -/
theorem Directive.exists_consumed {dotted : Bool} {text : Bytes}
    (h : (Directive.read dotted text).1.conversion ≠ .invalid) :
    ∃ consumed, text = consumed ++ (Directive.read dotted text).2 ∧
      ∀ more,
        Directive.read dotted (consumed ++ more) = ((Directive.read dotted text).1, more) := by
  fun_induction Directive.read dotted text with
  | case1 => exact absurd rfl h
  | case2 => exact absurd rfl h
  | case3 dotted c rest hz hd run after ih =>
    obtain ⟨consumed, hrest, hmore⟩ := ih h
    -- What the directive takes behind the digits is not empty, so its first byte ends them.
    obtain ⟨stop, tail, hcons⟩ : ∃ stop tail, consumed = stop :: tail := by
      cases consumed with
      | nil =>
        have hnil := hmore []
        rw [List.append_nil, Directive.read] at hnil
        exact absurd (congrArg (fun read => read.1.conversion) hnil).symm h
      | cons stop tail => exact ⟨stop, tail, rfl⟩
    have hstop : Byte.isDigit stop = false := by
      have hhead := List.head?_dropWhile_not Byte.isDigit rest
      rw [hrest, hcons] at hhead
      simpa using hhead
    refine ⟨c :: (rest.takeWhile Byte.isDigit ++ consumed), ?_, ?_⟩
    · rw [List.cons_append, List.append_assoc, ← hrest, List.takeWhile_append_dropWhile]
    · intro more
      have hspan := span_digits_append
        (List.all_eq_true.mp (List.all_takeWhile (l := rest) (p := Byte.isDigit))) hstop
        (tail ++ more)
      have hm := hmore more
      rw [hcons, List.cons_append] at hm
      rw [hcons, List.cons_append, List.append_assoc, List.cons_append, Directive.read,
        if_neg hz, if_pos hd, hspan.1, hspan.2, hm]
  | case4 dotted c rest hz hd modifier hm after ih =>
    obtain ⟨consumed, hrest, hmore⟩ := ih h
    refine ⟨c :: consumed, ?_, ?_⟩
    · rw [List.cons_append, ← hrest]
    · intro more
      rw [List.cons_append, Directive.read, if_neg hz, if_neg hd, hm]
      dsimp only
      rw [hmore more]
  | case5 dotted c rest hz hd hm =>
    refine ⟨[c], rfl, ?_⟩
    intro more
    rw [List.cons_append, List.nil_append, Directive.read, if_neg hz, if_neg hd, hm]

/-- A modifier byte goes in front of the directive that follows it. -/
theorem Directive.read_modifier {dotted : Bool} {c : UInt8} {modifier : Modifier}
    (hz : c ≠ 0) (hd : ¬(Byte.isDigit c && (dotted || c != 0x30)) = true)
    (hm : Modifier.ofByte? c = some modifier) (rest : Bytes) :
    Directive.read dotted (c :: rest) =
      ((Directive.read (dotted || modifier == .dot) rest).1.cons modifier,
        (Directive.read (dotted || modifier == .dot) rest).2) := by
  rw [Directive.read, if_neg (by simpa using hz), if_neg hd, hm]

/-- Any other byte but zero ends the directive. -/
theorem Directive.read_conversion {dotted : Bool} {c : UInt8} (hz : c ≠ 0)
    (hd : ¬(Byte.isDigit c && (dotted || c != 0x30)) = true) (hm : Modifier.ofByte? c = none)
    (rest : Bytes) :
    Directive.read dotted (c :: rest) = (⟨[], Conversion.ofByte c⟩, rest) := by
  rw [Directive.read, if_neg (by simpa using hz), if_neg hd, hm]

/-- The base that a conversion writes numbers in, if it has one of its own. -/
def Conversion.base? : Conversion → Option Nat
  | .signed base | .unsigned base _ => some base
  | _ => none

/-- A directive writes numbers in bases 8, 10 and 16 only. -/
theorem Directive.base_of_read {dotted : Bool} {text : Bytes} {base : Nat}
    (h : (Directive.read dotted text).1.conversion.base? = some base) : 2 ≤ base ∧ base ≤ 36 := by
  fun_induction Directive.read dotted text with
  | case1 => cases h
  | case2 => cases h
  | case3 dotted c rest hz hd run after ih => exact ih h
  | case4 dotted c rest hz hd modifier hm after ih => exact ih h
  | case5 dotted c rest hz hd hm =>
    dsimp only [Conversion.ofByte] at h
    split at h <;> cases h <;> decide

/-- Formatting ends where the format does. -/
theorem run_nil (progress : Progress) :
    run [] progress = ⟨[], progress.operands, .ok progress.produced⟩ := by
  rw [run]

/-- A zero byte ends the format. -/
theorem run_zero (rest : Bytes) (progress : Progress) :
    run (0 :: rest) progress = ⟨[], progress.operands, .ok progress.produced⟩ := by
  rw [run, if_pos (by decide)]

/-- A byte that is no percent sign stands for itself. -/
theorem run_literal {c : UInt8} (hz : c ≠ 0) (hp : c ≠ 0x25) (rest : Bytes) (progress : Progress) :
    run (c :: rest) progress =
      (run rest (progress.add [Piece.text [c]])).after [Piece.text [c]] := by
  rw [run, if_neg (by simpa using hz), if_pos (by simpa using hp)]

/-- A directive that fails ends the call with nothing of its own. -/
theorem run_failed {rest : Bytes} {progress : Progress} {error : FormatError}
    (h : (Directive.read false rest).1.perform progress = .error error) :
    run (0x25 :: rest) progress = ⟨[], progress.operands, .error error⟩ := by
  rw [run, if_neg (by decide), if_neg (by decide)]
  dsimp only
  rw [h]

/-- A named directive adds its pieces, and formatting goes on behind it. -/
theorem run_directive {rest after : Bytes} {directive : Directive} {progress : Progress}
    {pieces : List Piece} {operands : Operands}
    (hr : Directive.read false rest = (directive, after))
    (hn : directive.conversion ≠ .invalid)
    (h : directive.perform progress = .ok (pieces, operands)) :
    run (0x25 :: rest) progress =
      (run after { progress.add pieces with operands := operands }).after pieces := by
  rw [run, if_neg (by decide), if_neg (by decide)]
  dsimp only
  rw [hr]
  dsimp only
  rw [h]
  exact if_neg (by simpa using hn)

/-- At an invalid directive the rest of the format stands for itself. -/
theorem run_invalid {rest : Bytes} {progress : Progress} {pieces : List Piece} {operands : Operands}
    (hi : (Directive.read false rest).1.conversion = .invalid)
    (h : (Directive.read false rest).1.perform progress = .ok (pieces, operands)) :
    run (0x25 :: rest) progress =
      ⟨[Piece.text (untilZero (0x25 :: rest))], operands,
        .ok (progress.add [Piece.text (untilZero (0x25 :: rest))]).produced⟩ := by
  rw [run, if_neg (by decide), if_neg (by decide)]
  dsimp only
  rw [h]
  exact if_pos (by rw [hi]; rfl)

/-- A call that succeeds reports the count of its pieces behind what was
produced before. -/
theorem produced_of_run_ok {format : Bytes} {progress : Progress} {length : Nat}
    (h : (run format progress).result = .ok length) :
    length = Piece.countFrom progress.produced (run format progress).pieces := by
  fun_induction run format progress with
  | case1 => exact (Except.ok.inj h).symm
  | case2 => exact (Except.ok.inj h).symm
  | case3 progress c rest hz hp pieces ih =>
    have hc := ih h
    dsimp only [Formatted.after]
    rw [Piece.countFrom_append]
    exact hc
  | case4 => cases h
  | case5 => exact (Except.ok.inj h).symm
  | case6 progress c rest hz hp read pieces operands hperform hn ih =>
    have hc := ih h
    dsimp only [Formatted.after]
    rw [Piece.countFrom_append]
    exact hc

/-- A call that fails does so at the percent sign of a directive that fails
there, and the format in front of that sign, taken alone, succeeds with the same
output and the same operands. -/
theorem exists_front_of_run_error {format : Bytes} {progress : Progress} {error : FormatError}
    (h : (run format progress).result = .error error) :
    ∃ front rest length, format = front ++ 0x25 :: rest ∧
      run front progress =
        ⟨(run format progress).pieces, (run format progress).operands, .ok length⟩ ∧
      (Directive.read false rest).1.perform ⟨(run format progress).operands, length⟩ =
        .error error := by
  fun_induction run format progress with
  | case1 => cases h
  | case2 => cases h
  | case3 progress c rest hz hp pieces ih =>
    obtain ⟨front, tail, length, hrest, hrun, hfail⟩ := ih h
    refine ⟨c :: front, tail, length, by rw [hrest, List.cons_append], ?_, hfail⟩
    rw [run_literal (by simpa using hz) (by simpa using hp), hrun]
    rfl
  | case4 progress c rest hz hp read e hperform =>
    have hc : c = 0x25 := by simpa using hp
    cases h
    rw [hc]
    exact ⟨[], rest, progress.produced, rfl, run_nil progress, hperform⟩
  | case5 => cases h
  | case6 progress c rest hz hp read pieces operands hperform hn ih =>
    obtain ⟨front, tail, length, hrest, hrun, hfail⟩ := ih h
    have hc : c = 0x25 := by simpa using hp
    have hn' : read.1.conversion ≠ .invalid := by simpa using hn
    obtain ⟨consumed, htext, hmore⟩ := Directive.exists_consumed hn'
    refine ⟨c :: (consumed ++ front), tail, length, ?_, ?_, hfail⟩
    · rw [List.cons_append, List.append_assoc, ← hrest, ← htext]
    · rw [hc, run_directive (hmore front) hn' hperform, hrun]
      rfl

end FormatScan.Format
