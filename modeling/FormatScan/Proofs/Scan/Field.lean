import FormatScan.Proofs.Numeral.Spelling
import FormatScan.Scan.Number

/-!
# What a number field takes

A field takes its bytes one at a time, and the state decides about each of them.
Once no sign and no mark can come any more the state is settled: from then on
the field is the longest run of digits below its base. Ahead of that lie at most
a sign and, in base 16, a mark. A spelled number in front of a byte that is no
digit is therefore taken as it stands.
-/

namespace FormatScan

namespace Byte

/-- The letters that are digits in base 16. -/
def isHexLetter (c : UInt8) : Bool := (0x61 ≤ c && c ≤ 0x66) || (0x41 ≤ c && c ≤ 0x46)

/-- The digits below the bases of number fields, by their classes. -/
theorem isDigitBelow_iff {base : Nat} (hb : base = 8 ∨ base = 10 ∨ base = 16) (c : UInt8) :
    isDigitBelow base c = true ↔
      (isDigit c = true ∧ (c ≤ 0x37 ∨ 8 < base)) ∨ (isHexLetter c = true ∧ 10 < base) := by
  unfold isDigitBelow digitValue? isDigit isUpper isLower isHexLetter
  simp only [Bool.or_eq_true, Bool.and_eq_true, decide_eq_true_eq, UInt8.le_iff_toNat_le,
    UInt8.reduceToNat]
  split
  · simp only [Option.any_some, decide_eq_true_eq]
    omega
  · split
    · simp only [Option.any_some, decide_eq_true_eq]
      omega
    · split
      · simp only [Option.any_some, decide_eq_true_eq]
        omega
      · simp only [Option.any_none, Bool.false_eq_true, false_iff]
        omega

end Byte

namespace Scan

open Numeral

/-- The greatest number of bytes of a field under a width, 0 for none. -/
def fieldLimit (width : Nat) : Nat :=
  if width == 0 || numberFieldLimit < width then numberFieldLimit else width

/-- Take the bytes that continue a field, however many there are. -/
def Field.follow (state : FieldState) : Bytes → Field
  | [] => ⟨[], state⟩
  | c :: rest =>
    match state.step c with
    | none => ⟨[], state⟩
    | some next =>
      let field := Field.follow next rest
      { field with text := c :: field.text }

/-- A limit acts as if the input ended there. -/
theorem Field.collect_eq_follow (state : FieldState) (limit : Nat) (input : Bytes) :
    Field.collect state limit input = Field.follow state (input.take limit) := by
  induction limit generalizing state input with
  | zero => rfl
  | succ limit ih =>
    cases input with
    | nil => rfl
    | cons c rest =>
      rw [List.take_succ_cons, Field.collect, Field.follow]
      cases state.step c with
      | none => rfl
      | some next =>
        dsimp only
        rw [ih]

/-- A field goes on behind a byte that its state accepts. -/
theorem Field.follow_cons {state next : FieldState} {c : UInt8} (h : state.step c = some next)
    (rest : Bytes) :
    Field.follow state (c :: rest) =
      ⟨c :: (Field.follow next rest).text, (Field.follow next rest).state⟩ := by
  rw [Field.follow, h]

/-- A field ends in front of a byte that its state refuses. -/
theorem Field.follow_stop {state : FieldState} {c : UInt8} (h : state.step c = none)
    (rest : Bytes) : Field.follow state (c :: rest) = ⟨[], state⟩ := by
  rw [Field.follow, h]

namespace FieldState

/-- A state of a field in which no sign and no mark can come any more. -/
structure Settled (state : FieldState) (base : Nat) : Prop where
  /-- The base in force. -/
  base_eq : state.base = base
  /-- No sign can come. -/
  noSign : state.signAllowed = false
  /-- No mark can come: it is not allowed, or its place has passed. -/
  noMark : state.markAllowed = false ∨ 2 ≤ state.length

variable {base : Nat}

/-- A digit below the base in force is accepted in every state. -/
theorem step_digit (hb : base = 8 ∨ base = 10 ∨ base = 16) {state : FieldState}
    (hs : state.base = base) {c : UInt8} (hc : Byte.isDigitBelow base c = true) :
    state.step c = some (if c == 0x30 then state.afterZero else state.afterDigit base) := by
  have hclass := (Byte.isDigitBelow_iff hb c).mp hc
  have hsettled : settledBase base = base := by
    unfold settledBase
    rw [if_neg (by rw [beq_iff_eq]; omega)]
  unfold step
  rw [hs, hsettled]
  by_cases hzero : c == 0x30
  · rw [if_pos hzero, if_pos hzero]
  · rw [if_neg hzero, if_neg hzero]
    by_cases hdigit : Byte.isDigit c = true
    · rw [if_pos hdigit, if_pos]
      have hletter : ¬(Byte.isHexLetter c = true ∧ 10 < base) := by
        simp only [Byte.isDigit, Byte.isHexLetter, Bool.or_eq_true, Bool.and_eq_true,
          decide_eq_true_eq, UInt8.le_iff_toNat_le, UInt8.reduceToNat] at hdigit ⊢
        omega
      rcases hclass with ⟨_, hle⟩ | hletter'
      · simpa using hle
      · exact absurd hletter' hletter
    · rw [if_neg hdigit]
      rcases hclass with ⟨hdigit', _⟩ | ⟨hletter, hten⟩
      · exact absurd hdigit' hdigit
      · exact (if_pos hletter).trans (if_pos hten)

/-- A byte that is no digit below the base is refused, unless it is a sign or a
mark that may still come. -/
theorem step_other (hb : base = 8 ∨ base = 10 ∨ base = 16) {state : FieldState}
    (hs : state.base = base) {c : UInt8} (hc : ¬Byte.isDigitBelow base c = true)
    (hsign : IsSign c → state.signAllowed = false)
    (hmark : IsMark c → ¬(state.markAllowed && state.length == 1) = true) :
    state.step c = none := by
  have hclass := mt (Byte.isDigitBelow_iff hb c).mpr hc
  rw [not_or] at hclass
  have hsettled : settledBase base = base := by
    unfold settledBase
    rw [if_neg (by rw [beq_iff_eq]; omega)]
  have hzero : ¬(c == 0x30) = true := by
    rw [beq_iff_eq]
    intro heq
    apply hclass.1
    rw [heq]
    exact ⟨rfl, Or.inl (by decide)⟩
  unfold step
  rw [hs, hsettled, if_neg hzero]
  by_cases hdigit : Byte.isDigit c = true
  · rw [if_pos hdigit, if_neg]
    rw [Bool.or_eq_true, decide_eq_true_eq, decide_eq_true_eq]
    exact fun hle => hclass.1 ⟨hdigit, hle⟩
  · rw [if_neg hdigit]
    by_cases hletter : Byte.isHexLetter c = true
    · exact (if_pos hletter).trans (if_neg fun hten => hclass.2 ⟨hletter, hten⟩)
    · refine (if_neg hletter).trans ?_
      by_cases hplus : (c == 0x2B || c == 0x2D) = true
      · have hno := hsign (by simpa [IsSign] using hplus)
        rw [if_pos hplus, hno]
        rfl
      · rw [if_neg hplus]
        by_cases hx : (c == 0x78 || c == 0x58) = true
        · rw [if_pos hx, if_neg (hmark (by simpa [IsMark] using hx))]
        · rw [if_neg hx]

/-- A settled state refuses every byte that is no digit below its base. -/
theorem Settled.step_other (hb : base = 8 ∨ base = 10 ∨ base = 16) {state : FieldState}
    (h : state.Settled base) {c : UInt8} (hc : ¬Byte.isDigitBelow base c = true) :
    state.step c = none := by
  refine FieldState.step_other hb h.base_eq hc (fun _ => h.noSign) (fun _ => ?_)
  rw [Bool.and_eq_true, beq_iff_eq]
  rintro ⟨hallowed, hlength⟩
  rcases h.noMark with hno | hpast
  · rw [hno] at hallowed
    cases hallowed
  · omega

/-- A settled state stays settled behind a digit, which it has then seen. -/
theorem Settled.after (hb : base = 8 ∨ base = 10 ∨ base = 16) {state : FieldState}
    (h : state.Settled base) (c : UInt8) :
    (if c == 0x30 then state.afterZero else state.afterDigit base).Settled base ∧
      (if c == 0x30 then state.afterZero else state.afterDigit base).digitSeen = true := by
  have hbase := h.base_eq
  have hne : (state.base == 0) = false := by
    rw [beq_eq_false_iff_ne]
    omega
  split
  · refine ⟨⟨?_, rfl, ?_⟩, rfl⟩
    · dsimp only [afterZero]
      rw [hne]
      exact hbase
    · rcases h.noMark with hno | hpast
      · left
        dsimp only [afterZero]
        rw [hno, hne]
        rfl
      · right
        dsimp only [afterZero]
        omega
  · exact ⟨⟨rfl, rfl, Or.inl rfl⟩, rfl⟩

end FieldState

/-- Where a field ends: its text, the base of its state, and whether the state
has seen a digit. -/
structure Field.Reaches (field : Field) (base : Nat) (text : Bytes) (seen : Prop) : Prop where
  /-- The bytes of the field. -/
  text_eq : field.text = text
  /-- The base in force behind them. -/
  base_eq : field.state.base = base
  /-- Whether a digit was seen. -/
  seen_iff : field.state.digitSeen = true ↔ seen

/-- A byte ahead of the rest of a field only adds itself to the text. -/
theorem Field.Reaches.cons {state next : FieldState} {c : UInt8} {rest text : Bytes} {base : Nat}
    {seen : Prop} (h : (Field.follow next rest).Reaches base text seen)
    (hstep : state.step c = some next) :
    (Field.follow state (c :: rest)).Reaches base (c :: text) seen := by
  rw [Field.follow_cons hstep, h.text_eq]
  exact ⟨rfl, h.base_eq, h.seen_iff⟩

/-- Whether a digit was seen may be said in another way. -/
theorem Field.Reaches.of_iff {field : Field} {base : Nat} {text : Bytes} {seen seen' : Prop}
    (h : field.Reaches base text seen) (hseen : seen ↔ seen') : field.Reaches base text seen' :=
  ⟨h.text_eq, h.base_eq, h.seen_iff.trans hseen⟩

/-- From a settled state a field is the longest run of digits, and a digit was
seen if there was one before or in the run. -/
theorem Field.follow_settled {base : Nat} (hb : base = 8 ∨ base = 10 ∨ base = 16)
    {state : FieldState} (h : state.Settled base) (input : Bytes) :
    (Field.follow state input).Reaches base (input.takeWhile (Byte.isDigitBelow base))
      (state.digitSeen = true ∨ input.takeWhile (Byte.isDigitBelow base) ≠ []) := by
  induction input generalizing state with
  | nil => exact ⟨rfl, h.base_eq, by simp [Field.follow]⟩
  | cons c rest ih =>
    by_cases hc : Byte.isDigitBelow base c = true
    · obtain ⟨hsettled, hseen⟩ := h.after hb c
      have hreach := (ih hsettled).cons (FieldState.step_digit hb h.base_eq hc)
      rw [List.takeWhile_cons_of_pos hc]
      refine hreach.of_iff ?_
      rw [hseen]
      simp
    · rw [Field.follow_stop (h.step_other hb hc), List.takeWhile_cons_of_neg hc]
      exact ⟨rfl, h.base_eq, by simp⟩

/-- A state that is settled behind its next digit, and refuses any other next
byte, takes the longest run of digits as well. -/
theorem Field.follow_run {base : Nat} (hb : base = 8 ∨ base = 10 ∨ base = 16)
    {state : FieldState} (hs : state.base = base) {input : Bytes}
    (hnext : ∀ c, input.head? = some c → Byte.isDigitBelow base c = true →
      (if c == 0x30 then state.afterZero else state.afterDigit base).Settled base)
    (hstop : ∀ c, input.head? = some c → ¬Byte.isDigitBelow base c = true → state.step c = none) :
    (Field.follow state input).Reaches base (input.takeWhile (Byte.isDigitBelow base))
      (state.digitSeen = true ∨ input.takeWhile (Byte.isDigitBelow base) ≠ []) := by
  cases input with
  | nil => exact ⟨rfl, hs, by simp [Field.follow]⟩
  | cons c rest =>
    by_cases hc : Byte.isDigitBelow base c = true
    · have hreach :=
        (Field.follow_settled hb (hnext c rfl hc) rest).cons (FieldState.step_digit hb hs hc)
      rw [List.takeWhile_cons_of_pos hc]
      refine hreach.of_iff ?_
      by_cases hzero : c == 0x30 <;> simp [hzero, FieldState.afterZero, FieldState.afterDigit]
    · rw [Field.follow_stop (hstop c rfl hc), List.takeWhile_cons_of_neg hc]
      exact ⟨rfl, hs, by simp⟩

section Plain

/-! ### Fields without a mark -/

variable {format : NumberFormat} (hb : format.base = 8 ∨ format.base = 10)
  (hm : format.marked = false)

include hb hm

/-- A sign in front of a field without a mark stays in front of the run behind
it. -/
theorem Field.follow_plain_sign {sign : UInt8} (hs : IsSign sign) (rest : Bytes) :
    (Field.follow (.start format) (sign :: rest)).Reaches format.base
      (sign :: rest.takeWhile (Byte.isDigitBelow format.base))
      (rest.takeWhile (Byte.isDigitBelow format.base) ≠ []) := by
  have hstep : (FieldState.start format).step sign =
      some { FieldState.start format with length := 1, signAllowed := false } := by
    rcases hs with rfl | rfl <;> rfl
  have hsettled : FieldState.Settled
      { FieldState.start format with length := 1, signAllowed := false } format.base :=
    ⟨rfl, rfl, Or.inl hm⟩
  have hb' : format.base = 8 ∨ format.base = 10 ∨ format.base = 16 := by omega
  refine ((Field.follow_settled hb' hsettled rest).cons hstep).of_iff ?_
  simp [FieldState.start]

/-- Without a sign a field without a mark is the run in front. -/
theorem Field.follow_plain_run {input : Bytes} (hs : ∀ c, input.head? = some c → ¬IsSign c) :
    (Field.follow (.start format) input).Reaches format.base
      (input.takeWhile (Byte.isDigitBelow format.base))
      (input.takeWhile (Byte.isDigitBelow format.base) ≠ []) := by
  have hne : (format.base == 0) = false := by
    rw [beq_eq_false_iff_ne]
    omega
  have hb' : format.base = 8 ∨ format.base = 10 ∨ format.base = 16 := by omega
  have hstart : (FieldState.start format).base = format.base := rfl
  have hnext : ∀ c, input.head? = some c → Byte.isDigitBelow format.base c = true →
      (if c == 0x30 then (FieldState.start format).afterZero
        else (FieldState.start format).afterDigit format.base).Settled format.base := by
    intro c _ _
    split
    · refine ⟨?_, rfl, Or.inl ?_⟩ <;> simp [FieldState.afterZero, FieldState.start, hm, hne]
    · exact ⟨rfl, rfl, Or.inl rfl⟩
  have hstop : ∀ c, input.head? = some c → ¬Byte.isDigitBelow format.base c = true →
      (FieldState.start format).step c = none := by
    intro c hc hd
    exact FieldState.step_other hb' hstart hd (fun hsign => absurd hsign (hs c hc))
      (fun _ => by simp [FieldState.start])
  refine (Field.follow_run hb' hstart hnext hstop).of_iff ?_
  simp [FieldState.start]

end Plain

section Marked

/-! ### Fields of base 16 -/

/-- The state behind one byte of a field of base 16 at which a mark may come. -/
structure FieldState.Open (state : FieldState) : Prop where
  /-- The base in force. -/
  base_eq : state.base = 16
  /-- No sign can come. -/
  noSign : state.signAllowed = false
  /-- A mark can come. -/
  mark : state.markAllowed = true
  /-- Its place is the second one. -/
  length_eq : state.length = 1

/-- An open state takes a mark and the run behind it. -/
theorem Field.follow_open_mark {state : FieldState} (h : state.Open) {x : UInt8} (hx : IsMark x)
    (rest : Bytes) :
    (Field.follow state (x :: rest)).Reaches 16 (x :: rest.takeWhile (Byte.isDigitBelow 16))
      (state.digitSeen = true ∨ rest.takeWhile (Byte.isDigitBelow 16) ≠ []) := by
  have hstep : state.step x =
      some { state with base := 16, length := state.length + 1, markAllowed := false } := by
    have hallowed : (state.markAllowed && state.length == 1) = true := by
      rw [h.mark, h.length_eq]
      rfl
    rcases hx with rfl | rfl <;> exact if_pos hallowed
  have hsettled : FieldState.Settled
      { state with base := 16, length := state.length + 1, markAllowed := false } 16 :=
    ⟨rfl, h.noSign, Or.inl rfl⟩
  exact (Field.follow_settled (by omega) hsettled rest).cons hstep

/-- Without a mark an open state takes the run in front. -/
theorem Field.follow_open_run {state : FieldState} (h : state.Open) {input : Bytes}
    (hx : ∀ c, input.head? = some c → ¬IsMark c) :
    (Field.follow state input).Reaches 16 (input.takeWhile (Byte.isDigitBelow 16))
      (state.digitSeen = true ∨ input.takeWhile (Byte.isDigitBelow 16) ≠ []) := by
  refine Field.follow_run (by omega) h.base_eq ?_ ?_
  · intro c _ _
    split
    · refine ⟨?_, rfl, Or.inr ?_⟩
      · dsimp only [FieldState.afterZero]
        rw [h.base_eq]
        rfl
      · dsimp only [FieldState.afterZero]
        rw [h.length_eq]
    · exact ⟨rfl, rfl, Or.inl rfl⟩
  · intro c hc hd
    exact FieldState.step_other (by omega) h.base_eq hd (fun _ => h.noSign)
      (fun hmark => absurd hmark (hx c hc))

variable {format : NumberFormat} (hb : format.base = 16) (hm : format.marked = true)

include hb hm

/-- Behind a sign in front of a field of base 16 a mark may come. -/
theorem FieldState.exists_step_sign {sign : UInt8} (hs : IsSign sign) :
    ∃ state : FieldState, (FieldState.start format).step sign = some state ∧ state.Open ∧
      state.digitSeen = false := by
  refine ⟨{ FieldState.start format with length := 1, signAllowed := false }, ?_, ?_, rfl⟩
  · rcases hs with rfl | rfl <;> rfl
  · exact ⟨hb, rfl, hm, rfl⟩

/-- Behind a zero in front of a field of base 16 a mark may come. -/
theorem FieldState.exists_step_zero :
    ∃ state : FieldState, (FieldState.start format).step 0x30 = some state ∧ state.Open ∧
      state.digitSeen = true := by
  refine ⟨(FieldState.start format).afterZero, rfl, ⟨?_, rfl, ?_, rfl⟩, rfl⟩
  · simp [FieldState.afterZero, FieldState.start, hb]
  · simp [FieldState.afterZero, FieldState.start, hm]

/-- A sign and a mark are taken with the run behind them: the mark is allowed at
the second place whatever stands at the first. -/
theorem Field.follow_sign_mark {sign x : UInt8} (hs : IsSign sign) (hx : IsMark x)
    (rest : Bytes) :
    (Field.follow (.start format) (sign :: x :: rest)).Reaches 16
      (sign :: x :: rest.takeWhile (Byte.isDigitBelow 16))
      (rest.takeWhile (Byte.isDigitBelow 16) ≠ []) := by
  obtain ⟨state, hstep, hopen, hunseen⟩ := FieldState.exists_step_sign hb hm hs
  refine ((Field.follow_open_mark hopen hx rest).cons hstep).of_iff ?_
  rw [hunseen]
  simp

/-- A sign without a mark is taken with the run behind it. -/
theorem Field.follow_sign_run {sign : UInt8} (hs : IsSign sign) {rest : Bytes}
    (hx : ∀ c, rest.head? = some c → ¬IsMark c) :
    (Field.follow (.start format) (sign :: rest)).Reaches 16
      (sign :: rest.takeWhile (Byte.isDigitBelow 16))
      (rest.takeWhile (Byte.isDigitBelow 16) ≠ []) := by
  obtain ⟨state, hstep, hopen, hunseen⟩ := FieldState.exists_step_sign hb hm hs
  refine ((Field.follow_open_run hopen hx).cons hstep).of_iff ?_
  rw [hunseen]
  simp

/-- A zero and a mark are taken with the run behind them. -/
theorem Field.follow_zero_mark {x : UInt8} (hx : IsMark x) (rest : Bytes) :
    (Field.follow (.start format) (0x30 :: x :: rest)).Reaches 16
      (0x30 :: x :: rest.takeWhile (Byte.isDigitBelow 16)) True := by
  obtain ⟨state, hstep, hopen, hzero⟩ := FieldState.exists_step_zero hb hm
  refine ((Field.follow_open_mark hopen hx rest).cons hstep).of_iff ?_
  rw [hzero]
  simp

/-- With neither a sign nor `0x` in front, a field of base 16 is the run in
front. -/
theorem Field.follow_marked_run {input : Bytes} (hs : ∀ c, input.head? = some c → ¬IsSign c)
    (hx : ∀ x rest, input = 0x30 :: x :: rest → ¬IsMark x) :
    (Field.follow (.start format) input).Reaches 16 (input.takeWhile (Byte.isDigitBelow 16))
      (input.takeWhile (Byte.isDigitBelow 16) ≠ []) := by
  by_cases hzero : input.head? = some 0x30
  · obtain ⟨rest, rfl⟩ := List.head?_eq_some_iff.mp hzero
    obtain ⟨state, hstep, hopen, hseen⟩ := FieldState.exists_step_zero hb hm
    have hnext : ∀ c, rest.head? = some c → ¬IsMark c := by
      intro c hc
      obtain ⟨tail, rfl⟩ := List.head?_eq_some_iff.mp hc
      exact hx c tail rfl
    have hreach := (Field.follow_open_run hopen hnext).cons hstep
    have hd : Byte.isDigitBelow 16 0x30 = true := by decide
    rw [List.takeWhile_cons_of_pos hd]
    refine hreach.of_iff ?_
    rw [hseen]
    simp
  · have hstart : (FieldState.start format).base = 16 := hb
    have hnext : ∀ c, input.head? = some c → Byte.isDigitBelow 16 c = true →
        (if c == 0x30 then (FieldState.start format).afterZero
          else (FieldState.start format).afterDigit 16).Settled 16 := by
      intro c hc _
      have hne : ¬(c == 0x30) = true := by
        rw [beq_iff_eq]
        rintro rfl
        exact hzero hc
      rw [if_neg hne]
      exact ⟨rfl, rfl, Or.inl rfl⟩
    have hstop : ∀ c, input.head? = some c → ¬Byte.isDigitBelow 16 c = true →
        (FieldState.start format).step c = none := by
      intro c hc hd
      exact FieldState.step_other (by omega) hstart hd (fun hsign => absurd hsign (hs c hc))
        (fun _ => by simp [FieldState.start])
    refine (Field.follow_run (by omega) hstart hnext hstop).of_iff ?_
    simp [FieldState.start]

end Marked

/-- Taking a field is following it through the limit of its width, refusing one
without a digit and giving back a mark at its end. -/
theorem Field.take?_eq_follow (format : NumberFormat) (width : Nat) (input : Bytes) :
    Field.take? format width input =
      let field := Field.follow (.start format) (input.take (fieldLimit width))
      if !field.state.digitSeen then none
      else if field.text.getLast?.any isMark then some { field with text := field.text.dropLast }
      else some field := by
  rw [← Field.collect_eq_follow]
  rfl

/-- No mark stands at the end of a run of digits. -/
theorem not_isMark_getLast? {base : Nat} (hb : base ≤ 16) {run : Bytes} (hr : IsRun base run)
    (lead : Bytes) : ¬(lead ++ run).getLast?.any isMark = true := by
  have hlast : (lead ++ run).getLast? = some (run.getLast hr.ne_nil) := by
    rw [List.getLast?_append, List.getLast?_eq_some_getLast hr.ne_nil]
    rfl
  have hd := hr.digits _ (List.getLast_mem hr.ne_nil)
  rw [hlast, Option.any_some]
  intro hmark
  have hx : IsMark (run.getLast hr.ne_nil) := by simpa [isMark, IsMark] using hmark
  unfold Byte.isDigitBelow at hd
  rcases hx with hx | hx <;> rw [hx] at hd <;>
    exact absurd (of_decide_eq_true hd) (by simp; omega)

/-- Whether a field is taken is whether it has seen a digit, and an `x` at its end
is given back. -/
theorem Field.take?_of_reaches {format : NumberFormat} {width : Nat} {input text : Bytes}
    {base : Nat} {seen : Prop}
    (h : (Field.follow (.start format) (input.take (fieldLimit width))).Reaches base text seen) :
    (¬seen → Field.take? format width input = none) ∧
      (seen → ∃ state : FieldState, state.base = base ∧ Field.take? format width input =
        some ⟨if text.getLast?.any isMark then text.dropLast else text, state⟩) := by
  rw [Field.take?_eq_follow]
  dsimp only
  obtain ⟨htext, hbase, hseen⟩ := h
  generalize Field.follow (.start format) (input.take (fieldLimit width)) = field at *
  constructor
  · intro hno
    have hnone : field.state.digitSeen = false := by
      rw [← Bool.not_eq_true, hseen]
      exact hno
    rw [hnone, if_pos (by decide)]
  · intro hyes
    refine ⟨field.state, hbase, ?_⟩
    rw [hseen.mpr hyes, if_neg (by decide), htext]
    split
    · rfl
    · rw [← htext]

/-- A field that ends in a run of digits is taken as it stands. -/
theorem Field.exists_take?_of_run {format : NumberFormat} {width : Nat} {input run : Bytes}
    {base : Nat} {seen : Prop} (lead : Bytes) (hb : base ≤ 16) (hr : IsRun base run)
    (h : (Field.follow (.start format) (input.take (fieldLimit width))).Reaches base (lead ++ run)
      seen) (hseen : seen) :
    ∃ state : FieldState, state.base = base ∧
      Field.take? format width input = some ⟨lead ++ run, state⟩ := by
  obtain ⟨state, hbase, htake⟩ := (Field.take?_of_reaches h).2 hseen
  rw [if_neg (not_isMark_getLast? hb hr lead)] at htake
  exact ⟨state, hbase, htake⟩

/-- A field takes bytes from the front of its input. -/
theorem Field.front_of_follow (state : FieldState) (input : Bytes) :
    (Field.follow state input).text <+: input := by
  induction input generalizing state with
  | nil => exact List.prefix_rfl
  | cons c rest ih =>
    cases hstep : state.step c with
    | none =>
      rw [Field.follow_stop hstep]
      exact List.nil_prefix
    | some next =>
      rw [Field.follow_cons hstep]
      exact List.cons_prefix_cons.mpr ⟨rfl, ih next⟩

/-- A field that is taken has bytes from the front of the input. -/
theorem Field.front_of_take? {format : NumberFormat} {width : Nat} {input : Bytes}
    {field : Field} (h : Field.take? format width input = some field) : field.text <+: input := by
  rw [Field.take?_eq_follow] at h
  dsimp only at h
  have hfront := (Field.front_of_follow (.start format) (input.take (fieldLimit width))).trans
    (List.take_prefix (fieldLimit width) input)
  split at h
  · cases h
  · split at h
    · cases h
      exact (List.dropLast_prefix _).trans hfront
    · cases h
      exact hfront

section Spelled

/-! ### Spelled numbers as fields -/

/-- A run in front of a byte that is no digit is the longest run. -/
theorem takeWhile_run_append {base : Nat} {run rest : Bytes} (hr : IsRun base run)
    (hrest : ∀ c, rest.head? = some c → ¬Byte.isDigitBelow base c = true) :
    (run ++ rest).takeWhile (Byte.isDigitBelow base) = run := by
  rw [List.takeWhile_append_of_pos hr.digits]
  cases rest with
  | nil => exact List.append_nil run
  | cons c rest => rw [List.takeWhile_cons_of_neg (hrest c rfl), List.append_nil]

/-- A run starts with a digit, whatever follows it. -/
theorem isDigitBelow_of_head? {base : Nat} {run rest : Bytes} (hr : IsRun base run) {c : UInt8}
    (hc : (run ++ rest).head? = some c) : Byte.isDigitBelow base c = true := by
  cases run with
  | nil => exact absurd rfl hr.ne_nil
  | cons d run =>
    cases hc
    exact hr.digits _ List.mem_cons_self

variable {format : NumberFormat} {base : Nat} {text run rest : Bytes} {negative : Bool}

/-- In base 16 a field takes a spelled number in front of a byte that is neither
a digit nor a mark. -/
theorem Field.reaches_of_spells_marked (hb : format.base = 16) (hm : format.marked = true)
    (h : Spells 16 text negative run)
    (hrest : ∀ c, rest.head? = some c → ¬Byte.isDigitBelow 16 c = true ∧ ¬IsMark c) :
    (Field.follow (.start format) (text ++ rest)).Reaches 16 text True := by
  have hrun : (run ++ rest).takeWhile (Byte.isDigitBelow 16) = run :=
    takeWhile_run_append h.isRun fun c hc => (hrest c hc).1
  have hseen : run ≠ [] ↔ True := iff_true_intro h.isRun.ne_nil
  have hnoMark : ∀ c, (run ++ rest).head? = some c → ¬IsMark c := fun c hc hmark =>
    not_isDigitBelow_of_isMark hmark (isDigitBelow_of_head? h.isRun hc)
  cases h with
  | plain hr =>
    have hsign : ∀ c, (text ++ rest).head? = some c → ¬IsSign c := by
      rintro c hc (rfl | rfl) <;> exact absurd (isDigitBelow_of_head? hr hc) (by decide)
    have hmark : ∀ x tail, text ++ rest = 0x30 :: x :: tail → ¬IsMark x := by
      intro x tail heq hx
      match text, hr with
      | [], hr => exact hr.ne_nil rfl
      | [_], _ =>
        have htail : rest = x :: tail := (List.cons.inj heq).2
        exact (hrest x (by rw [htail]; rfl)).2 hx
      | _ :: d :: more, hr =>
        have hd : d = x := (List.cons.inj (List.cons.inj heq).2).1
        rw [← hd] at hx
        exact not_isDigitBelow_of_isMark hx (hr.digits d (by simp))
    have hreach := Field.follow_marked_run hb hm hsign hmark
    rw [hrun, hseen] at hreach
    exact hreach
  | plus hr =>
    have hreach := Field.follow_sign_run hb hm (Or.inl rfl) hnoMark
    rw [hrun, hseen] at hreach
    exact hreach
  | minus hr =>
    have hreach := Field.follow_sign_run hb hm (Or.inr rfl) hnoMark
    rw [hrun, hseen] at hreach
    exact hreach
  | marked _ hx hr =>
    have hreach := Field.follow_zero_mark hb hm hx (run ++ rest)
    rw [hrun] at hreach
    exact hreach

/-- In bases 8 and 10 a field takes a spelled number in front of a byte that is
no digit. -/
theorem Field.reaches_of_spells_plain (hb : format.base = 8 ∨ format.base = 10)
    (hm : format.marked = false) (h : Spells format.base text negative run)
    (hrest : ∀ c, rest.head? = some c → ¬Byte.isDigitBelow format.base c = true) :
    (Field.follow (.start format) (text ++ rest)).Reaches format.base text True := by
  have hrun : (run ++ rest).takeWhile (Byte.isDigitBelow format.base) = run :=
    takeWhile_run_append h.isRun hrest
  have hseen : run ≠ [] ↔ True := iff_true_intro h.isRun.ne_nil
  cases h with
  | plain hr =>
    have hsign : ∀ c, (text ++ rest).head? = some c → ¬IsSign c := by
      intro c hc hsign
      obtain ⟨_, _, hplus, hminus⟩ := Byte.class_of_isDigitBelow (isDigitBelow_of_head? hr hc)
      rcases hsign with heq | heq
      · exact hplus heq
      · exact hminus heq
    have hreach := Field.follow_plain_run hb hm hsign
    rw [hrun, hseen] at hreach
    exact hreach
  | plus hr =>
    have hreach := Field.follow_plain_sign hb hm (Or.inl rfl) (run ++ rest)
    rw [hrun, hseen] at hreach
    exact hreach
  | minus hr =>
    have hreach := Field.follow_plain_sign hb hm (Or.inr rfl) (run ++ rest)
    rw [hrun, hseen] at hreach
    exact hreach
  | marked hb16 _ _ => omega

/-- A spelled number ends in a digit. -/
theorem not_isMark_getLast?_of_spells (hb : base ≤ 16) (h : Spells base text negative run) :
    ¬text.getLast?.any isMark = true := by
  cases h with
  | plain hr => exact not_isMark_getLast? hb hr []
  | plus hr => exact not_isMark_getLast? hb hr [0x2B]
  | minus hr => exact not_isMark_getLast? hb hr [0x2D]
  | @marked x run _ _ hr => exact not_isMark_getLast? hb hr [0x30, x]

/-- The bases and marks of the formats that show no base of their own. -/
def NumberFormat.Fixed (format : NumberFormat) : Prop :=
  ((format.base = 8 ∨ format.base = 10) ∧ format.marked = false) ∨
    (format.base = 16 ∧ format.marked = true)

/-- A spelled number within the limit, in front of a byte that can continue no
number, is the field that is taken. -/
theorem Field.exists_take?_of_spells (hf : format.Fixed)
    (h : Spells format.base text negative run) {width : Nat}
    (hlen : text.length ≤ fieldLimit width)
    (hrest : ∀ c, rest.head? = some c → ¬Byte.isDigitBelow format.base c = true ∧ ¬IsMark c) :
    ∃ state : FieldState, state.base = format.base ∧
      Field.take? format width (text ++ rest) = some ⟨text, state⟩ := by
  -- The limit may cut the rest, but not away from its front.
  have hcut : (text ++ rest).take (fieldLimit width) =
      text ++ rest.take (fieldLimit width - text.length) := by
    rw [List.take_append, List.take_of_length_le hlen]
  have hfront : ∀ c, (rest.take (fieldLimit width - text.length)).head? = some c →
      ¬Byte.isDigitBelow format.base c = true ∧ ¬IsMark c := by
    intro c hc
    obtain ⟨tail, heq⟩ := List.head?_eq_some_iff.mp hc
    apply hrest
    cases rest with
    | nil =>
      rw [List.take_nil] at heq
      cases heq
    | cons d rest =>
      cases hn : fieldLimit width - text.length with
      | zero =>
        rw [hn, List.take_zero] at heq
        cases heq
      | succ n =>
        rw [hn, List.take_succ_cons] at heq
        rw [(List.cons.inj heq).1]
        rfl
  have hreach : (Field.follow (.start format)
      ((text ++ rest).take (fieldLimit width))).Reaches format.base text True := by
    rw [hcut]
    rcases hf with ⟨hb, hm⟩ | ⟨hb, hm⟩
    · exact Field.reaches_of_spells_plain hb hm h fun c hc => (hfront c hc).1
    · rw [hb] at h hfront ⊢
      exact Field.reaches_of_spells_marked hb hm h hfront
  have hle : format.base ≤ 16 := by
    rcases hf with ⟨hb, _⟩ | ⟨hb, _⟩ <;> omega
  obtain ⟨state, hbase, htake⟩ := (Field.take?_of_reaches hreach).2 trivial
  rw [if_neg (not_isMark_getLast?_of_spells hle h)] at htake
  exact ⟨state, hbase, htake⟩

end Spelled

end Scan

end FormatScan
