import FormatScan.Scan.Run
import Mathlib.Data.List.Infix

/-!
# The steps of scanning

How a directive is read in full is told once: modifiers one by one, and then a
closed set or another conversion byte. So it is settled by its own bytes, a scan set
included: reading it takes a front of the format and does not look behind it.
Whatever follows may be exchanged. A directive that is cut, and a scan set that
is still open, have no such front.

The equations of `run` are stated once for each kind of step. A step never turns
back: it reads on in the input, and it leaves the targets it does not take.
-/

namespace FormatScan

namespace ScanSet

/-- The members of a closed set stay what they are in front of any other rest. -/
theorem readMembers_append {last : UInt8} {text after : Bytes}
    (h : (readMembers last text).2 = .closed after) (more : Bytes) :
    readMembers last (text ++ more) = ((readMembers last text).1, .closed (after ++ more)) := by
  fun_induction readMembers last text with
  | case1 => cases h
  | case2 => cases h
  | case3 last c rest hz hc =>
    cases h
    rw [List.cons_append, readMembers.eq_def]
    dsimp only
    rw [if_neg hz, if_pos hc]
  | case4 => cases h
  | case5 last c hz hc hd bound tail hb read ih =>
    have hread := ih h
    rw [List.cons_append] at hread
    rw [List.cons_append, List.cons_append, readMembers.eq_def]
    dsimp only
    rw [if_neg hz, if_neg hc, if_pos hd, if_pos hb, hread]
  | case6 last c hz hc hd bound tail hb read ih =>
    have hread := ih h
    rw [List.cons_append, List.cons_append, readMembers.eq_def]
    dsimp only
    rw [if_neg hz, if_neg hc, if_pos hd, if_neg hb, hread]
  | case7 last c rest hz hc hd read ih =>
    have hread := ih h
    rw [List.cons_append, readMembers.eq_def]
    dsimp only
    rw [if_neg hz, if_neg hc, if_neg hd, hread]

/-- The body of a closed set stays what it is in front of any other rest. -/
theorem readBody_append {negated : Bool} {text after : Bytes}
    (h : (readBody negated text).ending = .closed after) (more : Bytes) :
    readBody negated (text ++ more) = ⟨(readBody negated text).set, .closed (after ++ more)⟩ := by
  cases text with
  | nil => cases h
  | cons c rest =>
    rw [readBody] at h ⊢
    rw [List.cons_append, readBody]
    by_cases hz : c == 0
    · rw [if_pos hz] at h
      cases h
    · rw [if_neg hz] at h ⊢
      rw [if_neg hz]
      dsimp only at h ⊢
      rw [readMembers_append h]

/-- Without a leading caret all that stands there is the body. -/
theorem read_of_ne {c : UInt8} (hc : c ≠ 0x5E) (rest : Bytes) :
    read (c :: rest) = readBody false (c :: rest) := by
  unfold read
  split
  · rename_i heq
    exact absurd (List.cons.inj heq).1 hc
  · rfl

/-- A closed set stays what it is in front of any other rest. -/
theorem read_append {text after : Bytes} (h : (read text).ending = .closed after) (more : Bytes) :
    read (text ++ more) = ⟨(read text).set, .closed (after ++ more)⟩ := by
  cases text with
  | nil => cases h
  | cons c rest =>
    by_cases hc : c = 0x5E
    · subst hc
      exact readBody_append h more
    · rw [read_of_ne hc] at h ⊢
      rw [List.cons_append, read_of_ne hc]
      exact readBody_append h more

/-- The members of a closed set are those of the front that is read. -/
theorem exists_readMembers_front {last : UInt8} {text after : Bytes}
    (h : (readMembers last text).2 = .closed after) :
    ∃ front, text = front ++ after ∧
      readMembers last front = ((readMembers last text).1, .closed []) := by
  fun_induction readMembers last text with
  | case1 => cases h
  | case2 => cases h
  | case3 last c rest hz hc =>
    cases h
    refine ⟨[c], rfl, ?_⟩
    rw [readMembers, if_neg hz, if_pos hc]
  | case4 => cases h
  | case5 last c hz hc hd bound tail hb read ih =>
    obtain ⟨front, htext, hfront⟩ := ih h
    cases front with
    | nil => cases congrArg Prod.snd hfront
    | cons head front =>
      obtain ⟨rfl, rfl⟩ := List.cons.inj htext
      refine ⟨c :: bound :: front, rfl, ?_⟩
      rw [readMembers.eq_def]
      dsimp only
      rw [if_neg hz, if_neg hc, if_pos hd, if_pos hb, hfront]
  | case6 last c hz hc hd bound tail hb read ih =>
    obtain ⟨front, rfl, hfront⟩ := ih h
    refine ⟨c :: bound :: front, rfl, ?_⟩
    rw [readMembers.eq_def]
    dsimp only
    rw [if_neg hz, if_neg hc, if_pos hd, if_neg hb, hfront]
  | case7 last c rest hz hc hd read ih =>
    obtain ⟨front, rfl, hfront⟩ := ih h
    refine ⟨c :: front, rfl, ?_⟩
    rw [readMembers.eq_def]
    dsimp only
    rw [if_neg hz, if_neg hc, if_neg hd, hfront]

/-- The body of a closed set is that of the front that is read. -/
theorem exists_readBody_front {negated : Bool} {text after : Bytes}
    (h : (readBody negated text).ending = .closed after) :
    ∃ front, text = front ++ after ∧
      readBody negated front = ⟨(readBody negated text).set, .closed []⟩ := by
  cases text with
  | nil => cases h
  | cons c rest =>
    rw [readBody] at h ⊢
    by_cases hz : c == 0
    · rw [if_pos hz] at h
      cases h
    · rw [if_neg hz] at h ⊢
      obtain ⟨front, rfl, hfront⟩ := exists_readMembers_front h
      refine ⟨c :: front, rfl, ?_⟩
      rw [readBody, if_neg hz, hfront]

/-- A closed set is that of the front that is read. -/
theorem exists_read_front {text after : Bytes} (h : (read text).ending = .closed after) :
    ∃ front, text = front ++ after ∧ read front = ⟨(read text).set, .closed []⟩ := by
  cases text with
  | nil => cases h
  | cons c rest =>
    by_cases hc : c = 0x5E
    · subst hc
      obtain ⟨front, rfl, hfront⟩ := @exists_readBody_front true rest after h
      exact ⟨0x5E :: front, rfl, hfront⟩
    · rw [read_of_ne hc] at h ⊢
      obtain ⟨front, htext, hfront⟩ := exists_readBody_front h
      cases front with
      | nil => cases congrArg Compiled.ending hfront
      | cons head front =>
        obtain ⟨rfl, rfl⟩ := List.cons.inj htext
        exact ⟨c :: front, rfl, by rw [read_of_ne hc, hfront]⟩

/-- Members are read from the front of the format. -/
theorem readMembers_suffix (last : UInt8) (text : Bytes) :
    (readMembers last text).2.rest <:+ text := by
  fun_induction readMembers last text with
  | case1 => exact List.suffix_rfl
  | case2 => exact List.suffix_rfl
  | case3 => exact List.suffix_cons _ _
  | case4 => exact List.nil_suffix
  | case5 last c _ _ _ bound after _ read ih => exact ih.trans (List.suffix_cons _ _)
  | case6 last c _ _ _ bound after _ read ih =>
    exact ih.trans ((List.suffix_cons _ _).trans (List.suffix_cons _ _))
  | case7 last c rest _ _ _ read ih => exact ih.trans (List.suffix_cons _ _)

/-- A set is read from the front of the format. -/
theorem read_suffix (text : Bytes) : (read text).ending.rest <:+ text := by
  have hbody : ∀ negated text, (readBody negated text).ending.rest <:+ text := by
    intro negated text
    cases text with
    | nil => exact List.suffix_rfl
    | cons c rest =>
      rw [readBody]
      split
      · exact List.suffix_rfl
      · exact (readMembers_suffix c rest).trans (List.suffix_cons _ _)
  unfold read
  split
  · exact (hbody true _).trans (List.suffix_cons _ _)
  · exact hbody false _

end ScanSet

namespace Scan

/-- The bytes that may stand between a percent sign and a conversion. -/
def isModifier (c : UInt8) : Bool :=
  c == 0x2A || Byte.isDigit c || (LengthLetter.ofByte? c).isSome

/-- What one more modifier byte makes of a directive. -/
def Directive.adjust (directive : Directive) (c : UInt8) : Directive :=
  if c == 0x2A then { directive with suppressed := true }
  else if Byte.isDigit c then
    { directive with width := min (directive.width * 10 + (c.toNat - 0x30)) Word.largest }
  else
    match LengthLetter.ofByte? c with
    | some letter => { directive with length := directive.length.addForTarget letter }
    | none => directive

/-- A modifier byte is read into the directive. -/
theorem Directive.readFrom_modifier {c : UInt8} (hc : isModifier c = true) (start : Directive)
    (rest : Bytes) :
    Directive.readFrom start (c :: rest) = Directive.readFrom (start.adjust c) rest := by
  have hz : ¬(c == 0) = true := by
    rw [beq_iff_eq]
    rintro rfl
    revert hc
    decide
  rw [Directive.readFrom, if_neg hz]
  unfold Directive.adjust
  by_cases hstar : (c == 0x2A) = true
  · rw [if_pos hstar, if_pos hstar]
  rw [if_neg hstar, if_neg hstar]
  by_cases hdigit : Byte.isDigit c = true
  · rw [if_pos hdigit, if_pos hdigit]
  rw [if_neg hdigit, if_neg hdigit]
  cases hletter : LengthLetter.ofByte? c with
  | some letter => rfl
  | none => simp [isModifier, hstar, hdigit, hletter] at hc

/-- A byte that is no modifier, no bracket and not zero names the conversion. -/
theorem Directive.readFrom_conversion {c : UInt8} (hc : isModifier c = false) (hz : c ≠ 0)
    (hset : c ≠ 0x5B) (start : Directive) (more : Bytes) :
    Directive.readFrom start (c :: more) =
      .read { start with conversion := Conversion.ofByte c } more := by
  have hclass := Bool.or_eq_false_iff.mp hc
  have hnumber := Bool.or_eq_false_iff.mp hclass.1
  have hletter : LengthLetter.ofByte? c = none := by simpa using hclass.2
  rw [Directive.readFrom, if_neg (by simpa using hz), if_neg (by simp [hnumber.1]),
    if_neg (by simp [hnumber.2]), hletter]
  exact if_neg (by simpa using hset)

/-- The set that a bracket opens is the conversion, when it is closed. -/
theorem Directive.readFrom_closed {rest after : Bytes}
    (h : (ScanSet.read rest).ending = .closed after) (start : Directive) :
    Directive.readFrom start (0x5B :: rest) =
      .read { start with conversion := .set (ScanSet.read rest).set } after := by
  have hletter : LengthLetter.ofByte? 0x5B = none := rfl
  rw [Directive.readFrom, if_neg (by decide), if_neg (by decide), if_neg (by decide), hletter]
  dsimp only
  rw [if_pos (by decide), h]

/-- A set that is left open is no conversion. -/
theorem Directive.readFrom_unterminated {rest after : Bytes}
    (h : (ScanSet.read rest).ending = .unterminated after) (start : Directive) :
    Directive.readFrom start (0x5B :: rest) = .openSet after := by
  have hletter : LengthLetter.ofByte? 0x5B = none := rfl
  rw [Directive.readFrom, if_neg (by decide), if_neg (by decide), if_neg (by decide), hletter]
  dsimp only
  rw [if_pos (by decide), h]

/-- How a directive is read in full, from what its modifiers amount to so far: a place in
the format, and the directive with the place behind it. -/
inductive Directive.Reads : Directive → Bytes → Directive → Bytes → Prop where
  /-- A modifier stands in front. -/
  | modifier {start directive : Directive} {c : UInt8} {rest after : Bytes}
      (hc : isModifier c = true) (h : Directive.Reads (start.adjust c) rest directive after) :
      Directive.Reads start (c :: rest) directive after
  /-- A closed set stands there. -/
  | set {start : Directive} {rest after : Bytes}
      (h : (ScanSet.read rest).ending = .closed after) :
      Directive.Reads start (0x5B :: rest)
        { start with conversion := .set (ScanSet.read rest).set } after
  /-- Any other conversion byte stands there. -/
  | conversion {start : Directive} {c : UInt8} {rest : Bytes} (hc : isModifier c = false)
      (hz : c ≠ 0) (hset : c ≠ 0x5B) :
      Directive.Reads start (c :: rest) { start with conversion := Conversion.ofByte c } rest

/-- A directive is read in full in just these ways. -/
theorem Directive.reads_iff {start directive : Directive} {text after : Bytes} :
    Directive.readFrom start text = .read directive after ↔
      Directive.Reads start text directive after := by
  constructor
  · intro h
    induction text generalizing start with
    | nil => cases h
    | cons c rest ih =>
      by_cases hc : isModifier c = true
      · rw [Directive.readFrom_modifier hc] at h
        exact .modifier hc (ih h)
      have hc' : isModifier c = false := by simpa using hc
      by_cases hz : c = 0
      · rw [hz, Directive.readFrom, if_pos (by decide)] at h
        cases h
      by_cases hset : c = 0x5B
      · subst hset
        cases hending : (ScanSet.read rest).ending with
        | closed tail =>
          rw [Directive.readFrom_closed hending] at h
          cases h
          exact .set hending
        | unterminated tail =>
          rw [Directive.readFrom_unterminated hending] at h
          cases h
      · rw [Directive.readFrom_conversion hc' hz hset] at h
        cases h
        exact .conversion hc' hz hset
  · intro h
    induction h with
    | modifier hc _ ih => rw [Directive.readFrom_modifier hc, ih]
    | set h => exact Directive.readFrom_closed h _
    | conversion hc hz hset => exact Directive.readFrom_conversion hc hz hset _ _

/-- A directive that is read in full stays what it is in front of any other
rest. -/
theorem Directive.readFrom_append {start directive : Directive} {text after : Bytes}
    (h : Directive.readFrom start text = .read directive after) (more : Bytes) :
    Directive.readFrom start (text ++ more) = .read directive (after ++ more) := by
  rw [Directive.reads_iff] at h ⊢
  induction h with
  | modifier hc _ ih => exact .modifier hc ih
  | @set start rest after h =>
    have hread := ScanSet.read_append h more
    have hset : Directive.Reads start (0x5B :: (rest ++ more)) _ (after ++ more) :=
      .set (congrArg ScanSet.Compiled.ending hread)
    rw [hread] at hset
    exact hset
  | conversion hc hz hset => exact .conversion hc hz hset

/-- A directive behind a percent sign stays what it is in front of any other
rest. -/
theorem Directive.read_append {directive : Directive} {text after : Bytes}
    (h : Directive.read text = .read directive after) (more : Bytes) :
    Directive.read (text ++ more) = .read directive (after ++ more) :=
  Directive.readFrom_append h more

/-- A directive that is read in full is read from a front of the format, and that front is
all of it. -/
theorem Directive.exists_readFrom_front {start directive : Directive} {text after : Bytes}
    (h : Directive.readFrom start text = .read directive after) :
    ∃ front, text = front ++ after ∧ Directive.readFrom start front = .read directive [] := by
  simp only [Directive.reads_iff] at h ⊢
  induction h with
  | @modifier _ _ c _ _ hc _ ih =>
    obtain ⟨front, rfl, hfront⟩ := ih
    exact ⟨c :: front, rfl, .modifier hc hfront⟩
  | @set start rest after h =>
    obtain ⟨front, rfl, hfront⟩ := ScanSet.exists_read_front h
    have hset : Directive.Reads start (0x5B :: front) _ [] :=
      .set (congrArg ScanSet.Compiled.ending hfront)
    rw [hfront] at hset
    exact ⟨0x5B :: front, rfl, hset⟩
  | @conversion _ c _ hc hz hset => exact ⟨[c], rfl, .conversion hc hz hset⟩

/-- A directive that is read in full is settled by a front of the format, whatever follows. -/
theorem Directive.exists_consumed {directive : Directive} {text after : Bytes}
    (h : Directive.read text = .read directive after) :
    ∃ consumed, text = consumed ++ after ∧
      ∀ more, Directive.read (consumed ++ more) = .read directive more := by
  obtain ⟨consumed, htext, hconsumed⟩ := Directive.exists_readFrom_front h
  exact ⟨consumed, htext, fun more => Directive.readFrom_append hconsumed more⟩

/-- A directive, or a scan set that is left open, is read from the front of the
format. -/
theorem Directive.readFrom_suffix {start : Directive} {text after : Bytes}
    (h : (∃ directive, Directive.readFrom start text = .read directive after) ∨
      Directive.readFrom start text = .openSet after) : after <:+ text := by
  rcases h with ⟨directive, h⟩ | h
  · obtain ⟨front, htext, _⟩ := Directive.exists_readFrom_front h
    exact ⟨front, htext.symm⟩
  induction text generalizing start with
  | nil => cases h
  | cons c rest ih =>
    by_cases hc : isModifier c = true
    · rw [Directive.readFrom_modifier hc] at h
      exact (ih h).trans (List.suffix_cons _ _)
    by_cases hz : c = 0
    · rw [hz, Directive.readFrom, if_pos (by decide)] at h
      cases h
    by_cases hset : c = 0x5B
    · subst hset
      have hsuffix := ScanSet.read_suffix rest
      cases hending : (ScanSet.read rest).ending with
      | closed tail =>
        rw [Directive.readFrom_closed hending] at h
        cases h
      | unterminated tail =>
        rw [Directive.readFrom_unterminated hending] at h
        cases h
        rw [hending] at hsuffix
        exact hsuffix.trans (List.suffix_cons _ _)
    · rw [Directive.readFrom_conversion (by simpa using hc) hz hset] at h
      cases h

section Run

variable {total : Nat} {rest : Bytes} {progress : Progress}

/-- Scanning ends where the format does. -/
theorem run_nil : run total [] progress = ⟨progress, .finished⟩ := by
  rw [run]

/-- A zero byte ends the format. -/
theorem run_zero : run total (0 :: rest) progress = ⟨progress, .finished⟩ := by
  rw [run, if_pos (by decide)]

/-- A blank skips the blanks of the input. -/
theorem run_blank {c : UInt8} (hc : Byte.isSpace c = true) :
    run total (c :: rest) progress = run total rest progress.skipBlanks := by
  have hz : ¬(c == 0) = true := by
    rw [beq_iff_eq]
    rintro rfl
    cases hc
  rw [run, if_neg hz, if_pos hc]

/-- Any other byte but the percent sign has to match. -/
theorem run_literal {c : UInt8} (hz : c ≠ 0) (hs : Byte.isSpace c = false) (hp : c ≠ 0x25) :
    run total (c :: rest) progress =
      match progress.matchByte c with
      | .error halt => ⟨progress, halt⟩
      | .ok progress => run total rest progress := by
  have hstep := run.eq_def total (c :: rest) progress
  dsimp only at hstep
  rw [if_neg (by simpa using hz), if_neg (by simp [hs]), if_pos (by simpa using hp)] at hstep
  exact hstep

/-- A directive that is read in full is carried out, and scanning goes on behind
it. -/
theorem run_directive {directive : Directive} {after : Bytes}
    (h : Directive.read rest = .read directive after) :
    run total (0x25 :: rest) progress =
      match directive.perform progress with
      | .error halt => ⟨progress, halt⟩
      | .ok progress => run total after progress := by
  rw [run, if_neg (by decide), if_neg (by decide), if_neg (by decide)]
  split
  · rename_i heq
    rw [h] at heq
    cases heq
  · rename_i heq
    rw [h] at heq
    cases heq
  · rename_i heq
    rw [h] at heq
    cases heq
    rfl

/-- A directive that the format cuts ends the scan. -/
theorem run_cut (h : Directive.read rest = .cut) :
    run total (0x25 :: rest) progress = ⟨progress, .finished⟩ := by
  rw [run, if_neg (by decide), if_neg (by decide), if_neg (by decide)]
  split
  · rfl
  · rename_i heq
    rw [h] at heq
    cases heq
  · rename_i heq
    rw [h] at heq
    cases heq

/-- A scan set that is still open ends the scan with an error that tells where
the format ends. -/
theorem run_openSet {after : Bytes} (h : Directive.read rest = .openSet after) :
    run total (0x25 :: rest) progress =
      ⟨progress, .failed (.unterminatedScanSet (total - after.length))⟩ := by
  rw [run, if_neg (by decide), if_neg (by decide), if_neg (by decide)]
  split
  · rename_i heq
    rw [h] at heq
    cases heq
  · rename_i heq
    rw [h] at heq
    cases heq
    rfl
  · rename_i heq
    rw [h] at heq
    cases heq

end Run

/-- A number conversion stores the bits of the field that it takes. -/
theorem perform_number (format : NumberFormat) (directive : Directive) (progress : Progress) :
    (Conversion.number format).perform directive progress =
      match Field.take? format directive.width progress.input with
      | none => .error .mismatch
      | some field =>
        (progress.advance field.text.length).assign directive.suppressed
          (if format.pointer then .pointer else .integer)
          (if format.pointer then intoPointer (field.bits format)
            else intoInteger directive.length.forTarget (field.bits format)) := by
  rw [Conversion.perform]
  cases Field.take? format directive.width progress.input with
  | none => rfl
  | some field =>
    dsimp only
    split <;> rfl

/-- The conversions that take input. The others are a percent sign, a count, and
the unknown ones. -/
def Conversion.takes : Conversion → Bool
  | chars | set _ | word | number _ => true
  | percent | count | unknown => false

/-- A directive that takes input gets ready, takes it, and counts as carried
out. -/
theorem Directive.perform_of_takes {directive : Directive}
    (h : directive.conversion.takes = true) (progress : Progress) :
    directive.perform progress =
      match progress.approach directive.conversion.keepsBlanks with
      | .error halt => .error halt
      | .ok ready =>
        match directive.conversion.perform directive ready with
        | .error halt => .error halt
        | .ok done => .ok { done with conversions := done.conversions + 1 } := by
  rw [Directive.perform.eq_def]
  cases hc : directive.conversion with
  | percent => rw [hc] at h; cases h
  | count => rw [hc] at h; cases h
  | unknown => rw [hc] at h; cases h
  | chars => rfl
  | set set => rfl
  | word => rfl
  | number format => rfl

/-- Where no blank stands none is skipped. -/
theorem Progress.skipBlanks_eq_self {progress : Progress}
    (h : progress.input.takeWhile Byte.isSpace = []) : progress.skipBlanks = progress := by
  rw [Progress.skipBlanks, h]
  rfl

/-- In front of a byte that is no blank every conversion is ready. -/
theorem Progress.approach_of_not_blank {progress : Progress} {c : UInt8} {rest : Bytes}
    (hi : progress.input = c :: rest) (hc : Byte.isSpace c = false) (keepsBlanks : Bool) :
    progress.approach keepsBlanks = .ok progress := by
  have hskip : progress.skipBlanks = progress := by
    refine Progress.skipBlanks_eq_self ?_
    rw [hi, List.takeWhile_cons_of_neg (by rw [hc]; exact Bool.false_ne_true)]
  have hsome : ¬progress.input.isEmpty = true := by
    rw [hi]
    exact Bool.false_ne_true
  unfold Progress.approach
  rw [hskip, if_neg hsome]
  dsimp only
  rw [if_neg hsome, ite_self]

/-- Storing takes the next target, when that can hold the value. -/
theorem Progress.store_eq {progress : Progress} {used pending : List ScanTarget}
    {target after : ScanTarget} (ht : progress.targets = ⟨used, target :: pending⟩)
    (expected : OperandKind) {use : ScanTarget → Option ScanTarget} (hu : use target = some after) :
    progress.store expected use =
      .ok { progress with targets := ⟨used ++ [after], pending⟩ } := by
  unfold Progress.store Cursor.take
  rw [ht]
  dsimp only
  rw [hu]
  rfl

/-- Assigning stores and counts the value. -/
theorem Progress.assign_ok {progress : Progress} {used pending : List ScanTarget}
    {target after : ScanTarget} (ht : progress.targets = ⟨used, target :: pending⟩)
    (expected : OperandKind) {use : ScanTarget → Option ScanTarget} (hu : use target = some after) :
    progress.assign false expected use =
      .ok { progress with
              targets := ⟨used ++ [after], pending⟩, assigned := progress.assigned + 1 } := by
  unfold Progress.assign
  rw [Progress.store_eq ht expected hu]
  rfl

end Scan

end FormatScan
