import FormatScan.Proofs.Numeral.Grammar
import FormatScan.Proofs.Scan.HexField

/-!
# The longest number in front

The decimal and octal conversions and the one that finds its base in the text take the
longest front of their input that is a number of their language, within the limit of the
width. The bytes are accepted one at a time, and the base may change on the way; but at no
byte is anything accepted that the language does not want, nor is a longer number missed. An
`x` that is given back leaves the zero in front of it, a number by itself.
-/

namespace FormatScan.Scan

open Numeral

/-! ## Languages -/

/-- The letters of the conversions that take a number without an `x` of their own. -/
inductive FieldLetter where
  | d | u | o | i
deriving DecidableEq, Repr

namespace FieldLetter

/-- The byte of a letter. -/
def byte : FieldLetter → UInt8
  | d => 0x64
  | u => 0x75
  | o => 0x6F
  | i => 0x69

/-- The base of a letter, or 0 where the text shows it. -/
def base : FieldLetter → Nat
  | d | u => 10
  | o => 8
  | i => 0

/-- Whether the number is decoded with a sign. -/
def signed : FieldLetter → Bool
  | d | i => true
  | u | o => false

end FieldLetter

/-- A number that shows its base: `0x` in front of its digits, a zero for their first, or
another digit. -/
inductive ShowsBase : Bytes → Nat → Bool → Bytes → Prop where
  /-- A mark shows base 16. No sign stands in front of it. -/
  | hex {x : UInt8} {run : Bytes} (hx : IsMark x) (hr : IsRun 16 run) :
    ShowsBase (0x30 :: x :: run) 16 false run
  /-- A zero shows base 8. -/
  | octal {text run : Bytes} {negative : Bool} (h : Spells 8 text negative run)
    (hz : run.head? = some 0x30) : ShowsBase text 8 negative run
  /-- Any other digit shows base 10. -/
  | decimal {text run : Bytes} {negative : Bool} (h : Spells 10 text negative run)
    (hz : run.head? ≠ some 0x30) : ShowsBase text 10 negative run

/-- A text is a number of a letter's language: its base, its sign and its digits. -/
def FieldLetter.Reads (letter : FieldLetter) (text : Bytes) (base : Nat) (negative : Bool)
    (run : Bytes) : Prop :=
  if letter.base = 0 then ShowsBase text base negative run
  else base = letter.base ∧ Spells base text negative run

/-- A text belongs to a letter's language. -/
def FieldLetter.Takes (letter : FieldLetter) (text : Bytes) : Prop :=
  ∃ base negative run, letter.Reads text base negative run

/-- A text is the longest front of an input that belongs to a language. -/
structure LongestFront (Belongs : Bytes → Prop) (input text : Bytes) : Prop where
  /-- It is in front. -/
  front : text <+: input
  /-- It belongs to the language. -/
  belongs : Belongs text
  /-- No other front of the language is longer. -/
  longest : ∀ other, other <+: input → Belongs other → other.length ≤ text.length

/-! ## Signs in front -/

/-- A text falls into a sign, or nothing, and what follows it. -/
structure SignSplit (text sign rest : Bytes) : Prop where
  /-- The parts are the text. -/
  text_eq : text = sign ++ rest
  /-- There is at most one sign. -/
  at_most_one : sign = [] ∨ ∃ c, IsSign c ∧ sign = [c]
  /-- A sign is not left to the rest. -/
  no_sign : sign = [] → ∀ c, rest.head? = some c → ¬IsSign c

theorem exists_signSplit (text : Bytes) : ∃ sign rest, SignSplit text sign rest := by
  obtain ⟨sign, rest, htext, hsign, hno⟩ := NumberText.exists_sign text
  exact ⟨sign, rest, htext, hsign, hno⟩

section Fronts

variable {base : Nat} {text other sign rest run : Bytes} {negative : Bool}

/-- A number in front of a text has the sign of the text, and its digits are in front of the
rest. -/
theorem SignSplit.front_of_spells (hsplit : SignSplit text sign rest) (hbase : base ≠ 16)
    (h : Spells base other negative run) (hfront : other <+: text) :
    other = sign ++ run ∧ run <+: rest ∧ negative = (sign == [0x2D]) := by
  obtain ⟨rfl, hsign, hno⟩ := hsplit
  have hsigned : ∀ c, IsSign c → other = c :: run →
      other = sign ++ run ∧ run <+: rest ∧ sign = [c] := by
    rintro c hc rfl
    rcases hsign with rfl | ⟨d, hd, rfl⟩
    · obtain ⟨tail, htail⟩ := hfront
      exact absurd hc (hno rfl c (by rw [List.nil_append] at htail; rw [← htail]; rfl))
    · obtain ⟨rfl, hrun⟩ := List.cons_prefix_cons.mp hfront
      exact ⟨rfl, hrun, rfl⟩
  cases h with
  | plain hr =>
    rcases hsign with rfl | ⟨d, hd, rfl⟩
    · exact ⟨rfl, hfront, rfl⟩
    · cases other with
      | nil => exact absurd rfl hr.ne_nil
      | cons c other =>
        obtain ⟨rfl, -⟩ := List.cons_prefix_cons.mp hfront
        exact absurd (hr.digits c List.mem_cons_self) (not_isDigitBelow_of_isSign hd)
  | plus hr =>
    obtain ⟨hother, hrun, hsign⟩ := hsigned 0x2B (.inl rfl) rfl
    exact ⟨hother, hrun, by rw [hsign]; rfl⟩
  | minus hr =>
    obtain ⟨hother, hrun, hsign⟩ := hsigned 0x2D (.inr rfl) rfl
    exact ⟨hother, hrun, by rw [hsign]; rfl⟩
  | marked hb _ _ => exact absurd hb hbase

/-- A sign or nothing in front of digits makes a number. -/
theorem SignSplit.spells (hsplit : SignSplit text sign rest) (hr : IsRun base run) :
    Spells base (sign ++ run) (sign == [0x2D]) run := by
  rcases hsplit.at_most_one with rfl | ⟨c, rfl | rfl, rfl⟩
  · exact .plain hr
  · exact .plus hr
  · exact .minus hr

/-- Digits in front of a text are no more than its longest run. -/
theorem length_le_takeWhile (hr : IsRun base run) (hfront : run <+: text) :
    run.length ≤ (text.takeWhile (Byte.isDigitBelow base)).length := by
  obtain ⟨tail, rfl⟩ := hfront
  rw [List.takeWhile_append_of_pos hr.digits, List.length_append]
  omega

/-- Digits in front of a text make its longest run one. -/
theorem takeWhile_ne_nil_of_isRun (hr : IsRun base run) (hfront : run <+: text) :
    text.takeWhile (Byte.isDigitBelow base) ≠ [] := by
  have hle := length_le_takeWhile hr hfront
  have hpos := List.length_pos_iff.mpr hr.ne_nil
  exact List.length_pos_iff.mp (by omega)

/-- A number has one sign and one run of digits, whatever its base. -/
theorem spells_unique {shown : Nat} {again : Bool} {digits : Bytes} (hbase : base ≠ 16)
    (hshown : shown ≠ 16) (h : Spells base text negative run)
    (h' : Spells shown text again digits) : negative = again ∧ run = digits := by
  obtain ⟨sign, rest, hsplit⟩ := exists_signSplit text
  obtain ⟨htext, -, hnegative⟩ := hsplit.front_of_spells hbase h List.prefix_rfl
  obtain ⟨htext', -, hagain⟩ := hsplit.front_of_spells hshown h' List.prefix_rfl
  exact ⟨hnegative.trans hagain.symm, List.append_cancel_left (htext.symm.trans htext')⟩

/-- A zero in front of a text is no sign of it. -/
theorem SignSplit.zero_front (hsplit : SignSplit text sign rest) (hfront : 0x30 :: other <+: text) :
    sign = [] ∧ 0x30 :: other <+: rest := by
  obtain ⟨rfl, rfl | ⟨c, hc, rfl⟩, -⟩ := hsplit
  · exact ⟨rfl, hfront⟩
  · obtain ⟨rfl, -⟩ := List.cons_prefix_cons.mp hfront
    exact absurd hc not_isSign_zero

theorem signSplit_zero (tail : Bytes) : SignSplit (0x30 :: tail) [] (0x30 :: tail) := by
  refine ⟨rfl, .inl rfl, fun _ c hc => ?_⟩
  obtain rfl : 0x30 = c := Option.some.inj hc
  exact not_isSign_zero

/-- Digits in front of a text start as the text does. -/
theorem head?_of_front (hr : IsRun base run) (hfront : run <+: rest) : run.head? = rest.head? := by
  obtain ⟨tail, rfl⟩ := hfront
  cases run with
  | nil => exact absurd rfl hr.ne_nil
  | cons c run => rfl

/-- In front of `0x` there is no number but the zero, unless its base is 16. -/
theorem eq_zero_of_mark {x : UInt8} {tail : Bytes} (hx : IsMark x) (hbase : base < 16)
    (h : Spells base other negative run) (hfront : other <+: 0x30 :: x :: tail) :
    other = [0x30] ∧ run = [0x30] := by
  obtain ⟨hother, -, -⟩ := (signSplit_zero (x :: tail)).front_of_spells (by omega) h hfront
  have hdigits := h.isRun.digits
  rw [List.nil_append] at hother
  subst hother
  match other, hfront with
  | [], _ => exact absurd rfl h.isRun.ne_nil
  | [c], hfront =>
    obtain ⟨rfl, -⟩ := List.cons_prefix_cons.mp hfront
    exact ⟨rfl, rfl⟩
  | c :: second :: more, hfront =>
    obtain ⟨rfl, hmore⟩ := List.cons_prefix_cons.mp hfront
    obtain ⟨rfl, -⟩ := List.cons_prefix_cons.mp hmore
    have hd : Byte.isDigitBelow base second = true := hdigits second (by simp)
    rcases hx with rfl | rfl <;> exact absurd (of_decide_eq_true hd) (by simp; omega)

end Fronts

/-- A number that shows its base shows one base. -/
theorem ShowsBase.unique {text run digits : Bytes} {base shown : Nat} {negative again : Bool}
    (h : ShowsBase text base negative run) (h' : ShowsBase text shown again digits) :
    base = shown ∧ negative = again ∧ run = digits := by
  have hmark {x : UInt8} {rest digits : Bytes} {base : Nat} {again : Bool} (hx : IsMark x)
      (hbase : base < 16) (h : Spells base (0x30 :: x :: rest) again digits) : False := by
    obtain ⟨heq, -⟩ := eq_zero_of_mark hx hbase h List.prefix_rfl
    cases heq
  cases h with
  | hex hx hr =>
    cases h' with
    | hex => exact ⟨rfl, rfl, rfl⟩
    | octal h' => exact (hmark hx (by omega) h').elim
    | decimal h' => exact (hmark hx (by omega) h').elim
  | octal h hz =>
    cases h' with
    | hex hx => exact (hmark hx (by omega) h).elim
    | octal h' => exact ⟨rfl, spells_unique (by omega) (by omega) h h'⟩
    | decimal h' hz' =>
      rw [(spells_unique (by omega) (by omega) h h').2] at hz
      exact absurd hz hz'
  | decimal h hz =>
    cases h' with
    | hex hx => exact (hmark hx (by omega) h).elim
    | octal h' hz' =>
      rw [(spells_unique (by omega) (by omega) h h').2] at hz
      exact absurd hz' hz
    | decimal h' => exact ⟨rfl, spells_unique (by omega) (by omega) h h'⟩

/-- A number of a letter's language has one reading. -/
theorem FieldLetter.Reads.unique {letter : FieldLetter} {text run digits : Bytes}
    {base shown : Nat} {negative again : Bool} (h : letter.Reads text base negative run)
    (h' : letter.Reads text shown again digits) :
    base = shown ∧ negative = again ∧ run = digits := by
  unfold Reads at h h'
  by_cases hbase : letter.base = 0
  · rw [if_pos hbase] at h h'
    exact h.unique h'
  · rw [if_neg hbase] at h h'
    have hne : letter.base ≠ 16 := by cases letter <;> decide
    exact ⟨h.1.trans h'.1.symm, spells_unique (h.1 ▸ hne) (h'.1 ▸ hne) h.2 h'.2⟩

/-! ## Fields whose base is not settled -/

/-- The state of a field in which the base can still be any: nothing but a sign came. -/
structure FieldState.Undecided (state : FieldState) : Prop where
  /-- No base is in force. -/
  base_eq : state.base = 0
  /-- No mark can come yet. -/
  noMark : state.markAllowed = false
  /-- No zero came. -/
  noZero : state.zeroSeen = false
  /-- No digit came. -/
  noDigit : state.digitSeen = false

/-- A digit other than zero settles base 10. -/
theorem Field.follow_undecided_decimal {state : FieldState} (h : state.Undecided) {c : UInt8}
    (hc : Byte.isDigitBelow 10 c = true) (hz : c ≠ 0x30) (rest : Bytes) :
    (Field.follow state (c :: rest)).Reaches 10
      ((c :: rest).takeWhile (Byte.isDigitBelow 10)) True := by
  have hdigit : Byte.isDigit c = true := by
    rcases (Byte.isDigitBelow_iff (by omega) c).mp hc with ⟨hdigit, -⟩ | ⟨-, hlt⟩
    · exact hdigit
    · omega
  have hstep : state.step c = some (state.afterDigit 10) := by
    unfold FieldState.step
    rw [h.base_eq, if_neg (by simpa using hz), if_pos hdigit]
    exact if_pos (by simp [FieldState.settledBase])
  have hsettled : (state.afterDigit 10).Settled 10 := ⟨rfl, rfl, .inl rfl⟩
  rw [List.takeWhile_cons_of_pos hc]
  refine ((Field.follow_settled (by omega) hsettled rest).cons hstep).of_iff ?_
  simp [FieldState.afterDigit]

theorem FieldState.base_afterZero (state : FieldState) :
    state.afterZero.base = if state.base = 0 then 8 else state.base := by
  by_cases h : state.base = 0 <;> simp [afterZero, h]

/-- A zero that no mark follows settles base 8. A sign in front of the zero leaves no place
for a mark. -/
theorem Field.follow_undecided_octal {state : FieldState} (h : state.Undecided) {rest : Bytes}
    (hx : state.length = 0 → ∀ c, rest.head? = some c → ¬IsMark c) :
    (Field.follow state (0x30 :: rest)).Reaches 8
      ((0x30 :: rest).takeWhile (Byte.isDigitBelow 8)) True := by
  have hbase : state.afterZero.base = 8 := by rw [FieldState.base_afterZero, if_pos h.base_eq]
  have hnext : ∀ c, rest.head? = some c → Byte.isDigitBelow 8 c = true →
      (if c == 0x30 then state.afterZero.afterZero
        else state.afterZero.afterDigit 8).Settled 8 := by
    intro c _ _
    split
    · refine ⟨?_, rfl, .inr ?_⟩
      · rw [FieldState.base_afterZero, hbase]
        rfl
      · dsimp only [FieldState.afterZero]
        omega
    · exact ⟨rfl, rfl, .inl rfl⟩
  have hstop : ∀ c, rest.head? = some c → ¬Byte.isDigitBelow 8 c = true →
      state.afterZero.step c = none := by
    intro c hc hd
    refine FieldState.step_other (by omega) hbase hd (fun _ => rfl) fun hmark => ?_
    rw [Bool.and_eq_true, beq_iff_eq]
    rintro ⟨-, hlength⟩
    dsimp only [FieldState.afterZero] at hlength
    exact hx (by omega) c hc hmark
  rw [List.takeWhile_cons_of_pos (by decide)]
  refine ((Field.follow_run (by omega) hbase hnext hstop).cons rfl).of_iff ?_
  simp [FieldState.afterZero]

/-- A zero in front and a mark behind it settle base 16. -/
theorem Field.follow_undecided_hex {state : FieldState} (h : state.Undecided)
    (hlength : state.length = 0) {x : UInt8} (hx : IsMark x) (rest : Bytes) :
    (Field.follow state (0x30 :: x :: rest)).Reaches 16
      (0x30 :: x :: rest.takeWhile (Byte.isDigitBelow 16)) True := by
  have hallowed : (state.afterZero.markAllowed && state.afterZero.length == 1) = true := by
    dsimp only [FieldState.afterZero]
    rw [h.base_eq, h.noZero, hlength]
    rfl
  have hstep : state.afterZero.step x = some { state.afterZero with
      base := 16, length := state.afterZero.length + 1, markAllowed := false } := by
    rcases hx with rfl | rfl <;> exact if_pos hallowed
  have hsettled : FieldState.Settled { state.afterZero with
      base := 16, length := state.afterZero.length + 1, markAllowed := false } 16 :=
    ⟨rfl, rfl, .inl rfl⟩
  refine (((Field.follow_settled (by omega) hsettled rest).cons hstep).cons rfl).of_iff ?_
  simp [FieldState.afterZero]

/-- A byte that is no decimal digit is refused, unless it is a sign that may still come. -/
theorem FieldState.Undecided.step_other {state : FieldState} (h : state.Undecided) {c : UInt8}
    (hc : ¬Byte.isDigitBelow 10 c = true) (hs : IsSign c → state.signAllowed = false) :
    state.step c = none := by
  have hdigit : ¬Byte.isDigit c = true := fun hdigit =>
    hc ((Byte.isDigitBelow_iff (by omega) c).mpr (.inl ⟨hdigit, .inr (by omega)⟩))
  have hzero : ¬(c == 0x30) = true := by
    rw [beq_iff_eq]
    rintro rfl
    exact hc (by decide)
  unfold step
  rw [if_neg hzero, if_neg hdigit, h.base_eq, h.noMark]
  by_cases hletter : Byte.isHexLetter c = true
  · exact (if_pos hletter).trans (if_neg (by omega))
  · refine (if_neg hletter).trans ?_
    by_cases hplus : (c == 0x2B || c == 0x2D) = true
    · rw [if_pos hplus, hs (by simpa [IsSign] using hplus)]
      rfl
    · rw [if_neg hplus]
      exact ite_self none

/-- Without a digit in front nothing more is taken. -/
theorem Field.follow_undecided_stop {state : FieldState} (h : state.Undecided) {rest : Bytes}
    (hd : rest.takeWhile (Byte.isDigitBelow 10) = [])
    (hs : ∀ c, rest.head? = some c → IsSign c → state.signAllowed = false) :
    (Field.follow state rest).Reaches 0 [] False := by
  have hnone : state.digitSeen = true ↔ False := by rw [h.noDigit]; simp
  cases rest with
  | nil => exact ⟨rfl, h.base_eq, hnone⟩
  | cons c rest =>
    have hc : ¬Byte.isDigitBelow 10 c = true := by
      intro hc
      rw [List.takeWhile_cons_of_pos hc] at hd
      cases hd
    rw [Field.follow_stop (h.step_other hc (hs c rfl))]
    exact ⟨rfl, h.base_eq, hnone⟩

/-- A field of base 0 goes on undecided behind a sign. -/
theorem Field.exists_undecided {format : NumberFormat} (hb : format.base = 0)
    (hm : format.marked = false) {front sign rest : Bytes} (hsplit : SignSplit front sign rest) :
    ∃ state : FieldState, state.Undecided ∧ state.length = sign.length ∧
      (∀ c, rest.head? = some c → IsSign c → state.signAllowed = false) ∧
      ∀ {base : Nat} {text : Bytes} {seen : Prop},
        (Field.follow state rest).Reaches base text seen →
          (Field.follow (.start format) front).Reaches base (sign ++ text) seen := by
  have hstart : (FieldState.start format).Undecided := ⟨hb, hm, rfl, rfl⟩
  obtain ⟨rfl, rfl | ⟨c, hc, rfl⟩, hno⟩ := hsplit
  · exact ⟨.start format, hstart, rfl, fun c hhead hsign => absurd hsign (hno rfl c hhead),
      fun h => h⟩
  · have hstep : (FieldState.start format).step c =
        some { FieldState.start format with length := 1, signAllowed := false } := by
      rcases hc with rfl | rfl <;> rfl
    exact ⟨{ FieldState.start format with length := 1, signAllowed := false },
      ⟨hb, hm, rfl, rfl⟩, rfl, fun _ _ _ => rfl, fun h => h.cons hstep⟩

/-- A field of base 8 or 10 is a sign, or nothing, and the longest run behind it. -/
theorem Field.follow_plain {format : NumberFormat} (hb : format.base = 8 ∨ format.base = 10)
    (hm : format.marked = false) {front sign rest : Bytes} (hsplit : SignSplit front sign rest) :
    (Field.follow (.start format) front).Reaches format.base
      (sign ++ rest.takeWhile (Byte.isDigitBelow format.base))
      (rest.takeWhile (Byte.isDigitBelow format.base) ≠ []) := by
  obtain ⟨rfl, rfl | ⟨c, hc, rfl⟩, hno⟩ := hsplit
  · exact Field.follow_plain_run hb hm (hno rfl)
  · exact Field.follow_plain_sign hb hm hc rest

/-! ## What is taken -/

/-- What becomes of a field by the bytes that its width leaves it: it is refused if no front
of them is a number of the language, and otherwise the longest one is taken, and decoded as
what it says. -/
inductive TakenField (letter : FieldLetter) (front : Bytes) : Option Field → Prop where
  /-- No number stands in front. -/
  | refused (hnone : ∀ text, text <+: front → ¬letter.Takes text) : TakenField letter front none
  /-- The longest number is taken. -/
  | longest {text run : Bytes} {base : Nat} {negative : Bool} {state : FieldState}
    (hlongest : LongestFront letter.Takes front text)
    (hreads : letter.Reads text base negative run)
    (hsigned : (decodeSigned text state.base).value = quadOf negative (runValue base run))
    (hunsigned : (decodeUnsigned text state.base).value = wordOf negative (runValue base run)) :
    TakenField letter front (some ⟨text, state⟩)

section Taking

variable {letter : FieldLetter} {format : NumberFormat} {width base : Nat}
  {input front sign rest : Bytes} {seen : Prop}

/-- A field that takes the longest run of a base is the longest number, if the fronts that
are numbers of the language are numbers of that base. -/
theorem TakenField.of_run (hb : base = 8 ∨ base = 10)
    (hfront : input.take (fieldLimit width) = front) (hsplit : SignSplit front sign rest)
    (hreach : (Field.follow (.start format) front).Reaches base
      (sign ++ rest.takeWhile (Byte.isDigitBelow base)) seen) (hseen : seen)
    (hrun : rest.takeWhile (Byte.isDigitBelow base) ≠ [])
    (hreads : ∀ {text negative run}, Spells base text negative run → run.head? = rest.head? →
      letter.Reads text base negative run)
    (honly : ∀ other, other <+: front → letter.Takes other →
      ∃ negative run, Spells base other negative run) :
    TakenField letter front (Field.take? format width input) := by
  have hdigits := isRun_takeWhile hrun
  have hspells := hsplit.spells hdigits
  have hnumber := hreads hspells (head?_of_front hdigits (List.takeWhile_prefix _))
  rw [← hfront] at hreach
  obtain ⟨state, hbase, htake⟩ :=
    Field.exists_take?_of_run sign (by omega) hdigits hreach hseen
  rw [htake]
  refine .longest ⟨?_, ⟨_, _, _, hnumber⟩, fun other hother htakes => ?_⟩ hnumber ?_ ?_
  · rw [hsplit.text_eq]
    exact (List.prefix_append_right_inj sign).mpr (List.takeWhile_prefix _)
  · obtain ⟨negative, run, h⟩ := honly other hother htakes
    obtain ⟨rfl, hrunFront, -⟩ := hsplit.front_of_spells (by omega) h hother
    rw [List.length_append, List.length_append]
    exact Nat.add_le_add_left (length_le_takeWhile h.isRun hrunFront) _
  · rw [hbase, hspells.decodeSigned_eq (by omega) (by omega)]
  · rw [hbase, hspells.decodeUnsigned_eq (by omega) (by omega)]

/-- A field of a letter with a base of its own. -/
theorem TakenField.of_base (hb : letter.base = 8 ∨ letter.base = 10)
    (hfront : input.take (fieldLimit width) = front) (signed : Bool) :
    TakenField letter front
      (Field.take? { base := letter.base, signed := signed } width input) := by
  have hreads {text run : Bytes} {base : Nat} {negative : Bool} :
      letter.Reads text base negative run ↔
        base = letter.base ∧ Spells base text negative run := by
    rw [FieldLetter.Reads, if_neg (by omega)]
  obtain ⟨sign, rest, hsplit⟩ := exists_signSplit front
  have hreach : (Field.follow (.start { base := letter.base, signed := signed }) front).Reaches
      letter.base (sign ++ rest.takeWhile (Byte.isDigitBelow letter.base))
      (rest.takeWhile (Byte.isDigitBelow letter.base) ≠ []) := Field.follow_plain hb rfl hsplit
  by_cases hrun : rest.takeWhile (Byte.isDigitBelow letter.base) = []
  · rw [← hfront] at hreach
    rw [(Field.take?_of_reaches hreach).1 (not_not_intro hrun)]
    refine .refused fun text htext => ?_
    rintro ⟨base, negative, run, h⟩
    obtain ⟨rfl, hspells⟩ := hreads.mp h
    obtain ⟨-, hrunFront, -⟩ := hsplit.front_of_spells (by omega) hspells htext
    exact takeWhile_ne_nil_of_isRun hspells.isRun hrunFront hrun
  · refine .of_run hb hfront hsplit hreach hrun hrun (fun h _ => hreads.mpr ⟨rfl, h⟩) ?_
    rintro other - ⟨base, negative, run, h⟩
    obtain ⟨rfl, hspells⟩ := hreads.mp h
    exact ⟨negative, run, hspells⟩

/-! ### Fields that show their base -/

theorem reads_i {text run : Bytes} {negative : Bool} :
    FieldLetter.i.Reads text base negative run ↔ ShowsBase text base negative run :=
  iff_of_eq (if_pos rfl)

variable (hb : format.base = 0) (hm : format.marked = false)

include hb hm

/-- In front of `0x` the digits of base 16 are taken with the mark, and without any the zero
alone. -/
theorem TakenField.of_mark {x : UInt8} {tail : Bytes} (hx : IsMark x)
    (hfront : input.take (fieldLimit width) = 0x30 :: x :: tail) :
    TakenField .i (0x30 :: x :: tail) (Field.take? format width input) := by
  obtain ⟨state, hundecided, hlength, -, hsigned⟩ :=
    Field.exists_undecided hb hm (signSplit_zero (x :: tail))
  have hreach := hsigned (Field.follow_undecided_hex hundecided hlength hx tail)
  rw [← hfront] at hreach
  -- every number in front is the zero, or goes on behind the mark
  have hothers : ∀ other, other <+: 0x30 :: x :: tail → FieldLetter.i.Takes other →
      other = [0x30] ∨ ∃ run, other = 0x30 :: x :: run ∧ run <+: tail ∧ IsRun 16 run := by
    rintro other hother ⟨base, negative, run, h⟩
    cases reads_i.mp h with
    | hex hx hr =>
      obtain ⟨-, hbehind⟩ := List.cons_prefix_cons.mp hother
      obtain ⟨rfl, hrun⟩ := List.cons_prefix_cons.mp hbehind
      exact .inr ⟨_, rfl, hrun, hr⟩
    | octal h => exact .inl (eq_zero_of_mark hx (by omega) h hother).1
    | decimal h => exact .inl (eq_zero_of_mark hx (by omega) h hother).1
  by_cases hrun : tail.takeWhile (Byte.isDigitBelow 16) = []
  · have hlast : ([0x30, x] : Bytes).getLast?.any isMark = true := by
      rcases hx with rfl | rfl <;> rfl
    have hzero (base : Nat) (hpos : 0 < base) : Spells base [0x30] false [0x30] :=
      .plain ⟨List.cons_ne_nil _ _, List.forall_mem_singleton.mpr (decide_eq_true hpos)⟩
    have hnumber : FieldLetter.i.Reads [0x30] 8 false [0x30] :=
      reads_i.mpr (.octal (hzero 8 (by omega)) rfl)
    obtain ⟨final, hbase, htake⟩ := (Field.take?_of_reaches hreach).2 trivial
    rw [hrun, List.nil_append, if_pos hlast] at htake
    rw [htake]
    refine .longest ⟨⟨_, rfl⟩, ⟨_, _, _, hnumber⟩, fun other hother htakes => ?_⟩ hnumber ?_ ?_
    · rcases hothers other hother htakes with rfl | ⟨run, -, hbehind, hr⟩
      · exact Nat.le_refl 1
      · exact absurd hrun (takeWhile_ne_nil_of_isRun hr hbehind)
    · rw [hbase, show [0x30, x].dropLast = [0x30] from rfl,
        (hzero 16 (by omega)).decodeSigned_eq (by omega) (by omega)]
      rfl
    · rw [hbase, show [0x30, x].dropLast = [0x30] from rfl,
        (hzero 16 (by omega)).decodeUnsigned_eq (by omega) (by omega)]
      rfl
  · have hdigits := isRun_takeWhile hrun
    have hspells : Spells 16 (0x30 :: x :: tail.takeWhile (Byte.isDigitBelow 16)) false _ :=
      .marked rfl hx hdigits
    have hnumber := reads_i.mpr (.hex hx hdigits)
    obtain ⟨final, hbase, htake⟩ :=
      Field.exists_take?_of_run [0x30, x] (by omega) hdigits hreach trivial
    rw [htake]
    refine .longest ⟨?_, ⟨_, _, _, hnumber⟩, fun other hother htakes => ?_⟩ hnumber ?_ ?_
    · exact (List.prefix_append_right_inj [0x30, x]).mpr (List.takeWhile_prefix _)
    · rcases hothers other hother htakes with rfl | ⟨run, rfl, hbehind, hr⟩
      · exact Nat.succ_le_succ (Nat.zero_le _)
      · exact Nat.add_le_add_right (length_le_takeWhile hr hbehind) 2
    · rw [hbase]
      exact congrArg Decoded.value (hspells.decodeSigned_eq (by omega) (by omega))
    · rw [hbase]
      exact congrArg Decoded.value (hspells.decodeUnsigned_eq (by omega) (by omega))

/-- A zero without a mark behind it, or with a sign in front, is taken with the octal digits
behind it. -/
theorem TakenField.of_zero {tail : Bytes} (hfront : input.take (fieldLimit width) = front)
    (hsplit : SignSplit front sign (0x30 :: tail))
    (hx : sign = [] → ∀ c, tail.head? = some c → ¬IsMark c) :
    TakenField .i front (Field.take? format width input) := by
  obtain ⟨state, hundecided, hlength, -, hsigned⟩ := Field.exists_undecided hb hm hsplit
  have hnomark : state.length = 0 → ∀ c, tail.head? = some c → ¬IsMark c := fun hzero =>
    hx (List.length_eq_zero_iff.mp (hlength.symm.trans hzero))
  have hreach := hsigned (Field.follow_undecided_octal hundecided hnomark)
  refine .of_run (.inl rfl) hfront hsplit hreach trivial ?_
    (fun h hhead => reads_i.mpr (.octal h hhead)) ?_
  · rw [List.takeWhile_cons_of_pos (by decide)]
    exact List.cons_ne_nil _ _
  · rintro other hother ⟨base, negative, run, h⟩
    cases reads_i.mp h with
    | hex hmark hr =>
      obtain ⟨hnil, hbehind⟩ := hsplit.zero_front hother
      obtain ⟨-, more, htail⟩ := List.cons_prefix_cons.mp hbehind
      exact absurd hmark (hx hnil _ (by rw [← htail]; rfl))
    | octal h => exact ⟨_, _, h⟩
    | decimal h hz =>
      obtain ⟨-, hrun, -⟩ := hsplit.front_of_spells (by omega) h hother
      exact absurd (head?_of_front h.isRun hrun) hz

/-- Any other digit is taken with the decimal digits behind it. -/
theorem TakenField.of_digit {c : UInt8} {tail : Bytes}
    (hfront : input.take (fieldLimit width) = front) (hsplit : SignSplit front sign (c :: tail))
    (hc : Byte.isDigitBelow 10 c = true) (hz : c ≠ 0x30) :
    TakenField .i front (Field.take? format width input) := by
  obtain ⟨state, hundecided, -, -, hsigned⟩ := Field.exists_undecided hb hm hsplit
  have hreach := hsigned (Field.follow_undecided_decimal hundecided hc hz tail)
  have hhead {run : Bytes} (h : run.head? = (c :: tail).head?) : run.head? ≠ some 0x30 := by
    rw [h]
    exact fun heq => hz (Option.some.inj heq)
  refine .of_run (.inr rfl) hfront hsplit hreach trivial ?_
    (fun h hrun => reads_i.mpr (.decimal h (hhead hrun))) ?_
  · rw [List.takeWhile_cons_of_pos hc]
    exact List.cons_ne_nil _ _
  · rintro other hother ⟨base, negative, run, h⟩
    cases reads_i.mp h with
    | hex hmark hr =>
      obtain ⟨-, hbehind⟩ := hsplit.zero_front hother
      exact absurd (List.cons_prefix_cons.mp hbehind).1.symm hz
    | octal h hzero =>
      obtain ⟨-, hrun, -⟩ := hsplit.front_of_spells (by omega) h hother
      exact absurd hzero (hhead (head?_of_front h.isRun hrun))
    | decimal h => exact ⟨_, _, h⟩

/-- Without a digit behind the sign, or in front, there is no number. -/
theorem TakenField.of_none (hfront : input.take (fieldLimit width) = front)
    (hsplit : SignSplit front sign rest) (hd : rest.takeWhile (Byte.isDigitBelow 10) = []) :
    TakenField .i front (Field.take? format width input) := by
  obtain ⟨state, hundecided, -, hallowed, hsigned⟩ := Field.exists_undecided hb hm hsplit
  have hreach := hsigned (Field.follow_undecided_stop hundecided hd hallowed)
  have hzero {other : Bytes} (h : 0x30 :: other <+: rest) : False := by
    obtain ⟨tail, rfl⟩ := h
    rw [List.cons_append, List.takeWhile_cons_of_pos (by decide)] at hd
    cases hd
  rw [← hfront] at hreach
  rw [(Field.take?_of_reaches hreach).1 id]
  refine .refused fun text htext => ?_
  rintro ⟨base, negative, run, h⟩
  cases reads_i.mp h with
  | hex hmark hr => exact hzero (hsplit.zero_front htext).2
  | octal h hz =>
    obtain ⟨-, hrun, -⟩ := hsplit.front_of_spells (by omega) h htext
    obtain ⟨more, rfl⟩ := List.head?_eq_some_iff.mp hz
    exact hzero hrun
  | decimal h hz =>
    obtain ⟨-, hrun, -⟩ := hsplit.front_of_spells (by omega) h htext
    exact takeWhile_ne_nil_of_isRun h.isRun hrun hd

/-- What becomes of a field that shows its base. -/
theorem takenField_i (width : Nat) (input : Bytes) :
    TakenField .i (input.take (fieldLimit width)) (Field.take? format width input) := by
  generalize hfront : input.take (fieldLimit width) = front
  obtain ⟨sign, rest, hsplit⟩ := exists_signSplit front
  cases rest with
  | nil => exact .of_none hb hm hfront hsplit rfl
  | cons c tail =>
    by_cases hc : Byte.isDigitBelow 10 c = true
    case neg => exact .of_none hb hm hfront hsplit (List.takeWhile_cons_of_neg hc)
    by_cases hz : c = 0x30
    case neg => exact .of_digit hb hm hfront hsplit hc hz
    subst hz
    -- behind a zero a mark counts if no sign stands in front of the zero
    by_cases hx : sign = [] ∧ ∃ x more, tail = x :: more ∧ IsMark x
    · obtain ⟨rfl, x, more, rfl, hmark⟩ := hx
      obtain rfl : front = 0x30 :: x :: more := hsplit.text_eq
      exact .of_mark hb hm hmark hfront
    · refine .of_zero hb hm hfront hsplit fun hnil c hc hmark => hx ⟨hnil, ?_⟩
      obtain ⟨more, rfl⟩ := List.head?_eq_some_iff.mp hc
      exact ⟨c, more, rfl, hmark⟩

end Taking

/-! ## What is stored -/

/-- The value that a letter finds in a number. With a sign it is the nearest signed word.
Without one a minus sign wraps it within the unsigned word, and out of range it is the largest
word whatever its sign. -/
def FieldLetter.value (letter : FieldLetter) (negative : Bool) (magnitude : Nat) : Int :=
  let exact : Int := if negative then -(magnitude : Int) else magnitude
  if letter.signed then max (-2 ^ 63) (min exact (2 ^ 63 - 1))
  else if 2 ^ 64 - 1 < magnitude then 2 ^ 64 - 1 else exact % 2 ^ 64

/-- Store a value narrowed to a width: the low bits are extended by their sign in a signed
target and by zeros in an unsigned one. -/
def storing (width : OperandWidth) (value : Int) : ScanTarget → Option ScanTarget
  | .int _ => some (.int (Int64.ofInt (value.bmod (2 ^ width.bits))))
  | .uint _ => some (.uint (UInt64.ofNat (value % 2 ^ width.bits).toNat))
  | _ => none

/-- Only the low bits of a value are stored. -/
theorem intoInteger_eq_storing {bits : UInt64} {value : Int}
    (h : (bits.toNat : Int) = value % 2 ^ 64) (width : OperandWidth) :
    intoInteger width bits = storing width value := by
  have hdvd : ((2 ^ width.bits : Nat) : Int) ∣ 2 ^ 64 := by
    have hle : width.bits ≤ 64 := by cases width <;> decide
    exact_mod_cast Nat.pow_dvd_pow 2 hle
  have hsigned : width.signed bits = value.bmod (2 ^ width.bits) := by
    change (bits.toNat : Int).bmod (2 ^ width.bits) = _
    rw [h, ← Int.emod_bmod, Int.emod_emod_of_dvd value hdvd, Int.emod_bmod]
  have hunsigned : width.unsigned bits = (value % 2 ^ width.bits).toNat := by
    have hlow : ((bits.toNat % 2 ^ width.bits : Nat) : Int) = value % 2 ^ width.bits := by
      rw [Int.natCast_emod, h, Int.emod_emod_of_dvd value hdvd]
      norm_cast
    rw [← hlow, Int.toNat_natCast]
    rfl
  funext target
  cases target <;> simp only [intoInteger, storing, hsigned, hunsigned]

theorem toNat_toUInt64 (value : Int64) : (value.toUInt64.toNat : Int) = value.toInt % 2 ^ 64 := by
  have hbits : value.toInt = (value.toUInt64.toNat : Int).bmod (2 ^ 64) :=
    BitVec.toInt_eq_toNat_bmod value.toBitVec
  have hsame := Int.bmod_emod (x := (value.toUInt64.toNat : Int)) (m := 2 ^ 64)
  have hlt := value.toUInt64.toNat_lt
  rw [← hbits] at hsame
  omega

/-- The bits of a field are those of the value of its number. -/
theorem FieldLetter.toNat_bits {letter : FieldLetter} {field : Field} {negative : Bool}
    {magnitude : Nat}
    (hsigned : (decodeSigned field.text field.state.base).value = quadOf negative magnitude)
    (hunsigned : (decodeUnsigned field.text field.state.base).value = wordOf negative magnitude) :
    ((field.bits { base := letter.base, signed := letter.signed }).toNat : Int) =
      letter.value negative magnitude % 2 ^ 64 := by
  unfold Field.bits value
  dsimp only
  by_cases h : letter.signed = true
  · rw [if_pos h, if_pos h, hsigned, toNat_toUInt64, toInt_quadOf]
    rfl
  · rw [if_neg h, if_neg h, hunsigned, toNat_wordOf]
    by_cases hover : 2 ^ 64 - 1 < magnitude
    · rw [if_pos hover, if_pos hover]
      rfl
    · rw [if_neg hover, if_neg hover]
      cases negative with
      | false => simp only [Bool.false_eq_true, if_false]; omega
      | true => simp only [if_true]; omega

theorem FieldLetter.ofByte_byte (letter : FieldLetter) :
    Conversion.ofByte letter.byte =
      .number { base := letter.base, signed := letter.signed } := by
  cases letter <;> rfl

/-- Storing a value fails for the targets, never for the input. -/
theorem Progress.assign_ne_mismatch (progress : Progress) (suppressed : Bool)
    (expected : OperandKind) (use : ScanTarget → Option ScanTarget) :
    progress.assign suppressed expected use ≠ .error .mismatch := by
  unfold assign store
  intro h
  cases suppressed with
  | true => cases h
  | false =>
    rw [if_neg Bool.false_ne_true] at h
    cases htake : progress.targets.take expected ScanTarget.kind
      (fun t => (use t).map fun u => ((), u)) <;> rw [htake] at h <;> cases h

theorem takenField (letter : FieldLetter) (width : Nat) (input : Bytes) :
    TakenField letter (input.take (fieldLimit width))
      (Field.take? { base := letter.base, signed := letter.signed } width input) := by
  cases letter with
  | d => exact .of_base (.inr rfl) rfl true
  | u => exact .of_base (.inr rfl) rfl false
  | o => exact .of_base (.inl rfl) rfl false
  | i => exact takenField_i rfl rfl width input

theorem fieldLimit_eq (width : Nat) :
    fieldLimit width = if 1 ≤ width ∧ width ≤ 31 then width else 31 := by
  unfold fieldLimit numberFieldLimit
  by_cases h : 1 ≤ width ∧ width ≤ 31
  · rw [if_pos h, if_neg]
    rw [Bool.or_eq_true, beq_iff_eq, decide_eq_true_eq]
    omega
  · rw [if_neg h, if_pos]
    rw [Bool.or_eq_true, beq_iff_eq, decide_eq_true_eq]
    omega

/-- A decimal or octal conversion, or the one that finds its base in the text, takes the
longest front of its input that is a number of its language and no longer than its width, or
31 bytes without a width or above that. It reports a mismatch exactly if there is no such
front. Otherwise it moves on behind the number and stores its value, narrowed by the length
letters. -/
theorem perform_longest (letter : FieldLetter) (directive : Directive) (progress : Progress) :
    let performed := (Conversion.ofByte letter.byte).perform directive progress
    let limit := if 1 ≤ directive.width ∧ directive.width ≤ 31 then directive.width else 31
    let front := progress.input.take limit
    (performed = .error .mismatch ↔ ¬∃ text, text <+: front ∧ letter.Takes text) ∧
      ((∃ text, text <+: front ∧ letter.Takes text) →
        ∃ text, LongestFront letter.Takes front text ∧
          ∀ base negative run, letter.Reads text base negative run →
            performed = (progress.advance text.length).assign directive.suppressed .integer
              (storing directive.length.forTarget
                (letter.value negative (runValue base run)))) := by
  intro performed limit front
  have htaken := takenField letter directive.width progress.input
  have hperformed := perform_number { base := letter.base, signed := letter.signed } directive
    progress
  rw [← letter.ofByte_byte] at hperformed
  change performed = _ at hperformed
  rw [fieldLimit_eq] at htaken
  change TakenField letter front _ at htaken
  generalize Field.take? { base := letter.base, signed := letter.signed } directive.width
    progress.input = taken at htaken hperformed
  cases htaken with
  | refused hnone =>
    have hno : ¬∃ text, text <+: front ∧ letter.Takes text := fun ⟨text, htext, htakes⟩ =>
      hnone text htext htakes
    exact ⟨iff_of_true hperformed hno, fun hsome => absurd hsome hno⟩
  | @longest text run base negative state hlongest hreads hsigned hunsigned =>
    have hbits : ((Field.bits { base := letter.base, signed := letter.signed }
        ⟨text, state⟩).toNat : Int) = letter.value negative (runValue base run) % 2 ^ 64 :=
      FieldLetter.toNat_bits hsigned hunsigned
    have hassigned : performed = (progress.advance text.length).assign directive.suppressed
        .integer (storing directive.length.forTarget
          (letter.value negative (runValue base run))) := by
      rw [hperformed, ← intoInteger_eq_storing hbits]
      rfl
    refine ⟨iff_of_false ?_ (not_not_intro ⟨text, hlongest.front, hlongest.belongs⟩),
      fun _ => ⟨text, hlongest, fun base' negative' run' hreads' => ?_⟩⟩
    · rw [hassigned]
      exact Progress.assign_ne_mismatch _ _ _ _
    · obtain ⟨rfl, rfl, rfl⟩ := hreads.unique hreads'
      exact hassigned

/-- The width cuts `-07789` to `-077`, an octal number. Its value, -63, leaves 193 in the low
byte of an unsigned target. -/
theorem perform_longest_octal :
    let directive : Directive := { length := { char := true }, width := 4 }
    let progress : Progress :=
      { input := [0x2D, 0x30, 0x37, 0x37, 0x38, 0x39], targets := .start [.uint 7] }
    LongestFront FieldLetter.i.Takes [0x2D, 0x30, 0x37, 0x37] [0x2D, 0x30, 0x37, 0x37] ∧
      ((Conversion.ofByte 0x69).perform directive progress).map
        (fun done => (done.read, done.targets.all)) = .ok (4, [.uint 193]) := by
  intro directive progress
  have hrun : IsRun 8 [0x30, 0x37, 0x37] := ⟨List.cons_ne_nil _ _, by decide +kernel⟩
  have hreads : FieldLetter.i.Reads [0x2D, 0x30, 0x37, 0x37] 8 true [0x30, 0x37, 0x37] :=
    reads_i.mpr (.octal (.minus hrun) rfl)
  obtain ⟨-, htakes⟩ := perform_longest .i directive progress
  obtain ⟨text, hlongest, hperformed⟩ :=
    htakes ⟨_, List.prefix_rfl, _, _, _, hreads⟩
  -- the whole front is a number, so the longest one is no shorter
  have htext : text = [0x2D, 0x30, 0x37, 0x37] :=
    hlongest.front.eq_of_length_le (hlongest.longest _ List.prefix_rfl ⟨_, _, _, hreads⟩)
  subst htext
  refine ⟨hlongest, ?_⟩
  have hstored := hperformed _ _ _ hreads
  dsimp only [FieldLetter.byte] at hstored
  rw [hstored]
  decide

end FormatScan.Scan
