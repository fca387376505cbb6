import FormatScan.Proofs.Format.Denotation
import FormatScan.Proofs.Format.Taking
import FormatScan.Proofs.Machine.Operations

/-!
# Reading directives

A directive is settled while it is read: stars take their operands, and amounts are
added up by sums that stay at the bounds. Every step moves the position on, and a
zero, or the end of the format, stops it. So reading a directive by position comes to
what its modifiers, read as a whole, amount to.
-/

namespace FormatScan.Machine

open Format

/-- Take an integer operand as its 64 bits. -/
def takeBits (operands : Operands) : Checked (Except FormatError (UInt64 × Operands)) :=
  takeNext operands .integer FormatArg.kind fun arg => .ok (arg.bits?.map fun bits => (bits, arg))

/-- Take a text operand. -/
def takeText (operands : Operands) : Checked (Except FormatError (Option Bytes × Operands)) :=
  takeNext operands .text FormatArg.kind fun
    | .text value => .ok (some (value, .text value))
    | _ => .ok none

/-- Take a count slot and store a count there. -/
def storeCount (operands : Operands) (count : Int) :
    Checked (Except FormatError (Unit × Operands)) :=
  takeNext operands .countSlot FormatArg.kind fun
    | .count _ => .ok (some ((), .count (Int64.ofInt count)))
    | _ => .ok none

/-- Add up the digits of an amount, which stays at the greatest signed word. -/
def readAmount (format : Bytes) (i : Nat) (value : Int) : Checked (Int × Nat) :=
  let c := byteAt format i
  if Byte.isDigit c then do
    let digit ← sub c.toNat 0x30
    reach format (i + 1) fun _ =>
      readAmount format (i + 1) (Quad.satAdd (Quad.clamp (value * 10)) digit)
  else .ok (value, i)
termination_by format.length - i

/-- Carry out one modifier that is no amount in digits. -/
def settle (settings : Settings) (operands : Operands) (modifier : Modifier) :
    Checked (Except FormatError (Settings × Operands)) :=
  if modifier == .star then
    andThen (takeBits operands) fun taken =>
      let amount := OperandWidth.int.signed taken.1
      if settings.dotted then return .ok ({ settings with precision := amount }, taken.2)
      else if amount < 0 then do
        let width ← negQuad amount
        return .ok ({ settings with left := !settings.left, width := width }, taken.2)
      else return .ok ({ settings with width := amount }, taken.2)
  else .ok (settings.apply operands modifier)

/-- A directive that was read and settled. -/
structure Parsed where
  /-- What it does. -/
  conversion : Conversion
  /-- What its modifiers amount to. -/
  settings : Settings
  /-- The operands behind those of its stars. -/
  operands : Operands
  /-- The position behind it. -/
  next : Nat

/-- Read the directive behind a percent sign. -/
def parse (format : Bytes) (i : Nat) (settings : Settings) (operands : Operands) :
    Checked (Except FormatError Parsed) :=
  let c := byteAt format i
  if c == 0 then .ok (.ok ⟨.invalid, settings, operands, i⟩)
  else reach format (i + 1) fun _ =>
    if Byte.isDigit c && (settings.dotted || c != 0x30) then do
      let digit ← sub c.toNat 0x30
      let amount ← readAmount format (i + 1) digit
      require (i < amount.2) .boundBroken fun _ =>
        if settings.dotted then
          parse format amount.2 { settings with precision := amount.1 } operands
        else parse format amount.2 { settings with width := amount.1 } operands
    else
      match Modifier.ofByte? c with
      | none => .ok (.ok ⟨Conversion.ofByte c, settings, operands, i + 1⟩)
      | some modifier =>
        andThen (settle settings operands modifier) fun settled =>
          parse format (i + 1) settled.1 settled.2
termination_by format.length - i

/-- The index behind an operand is a word, so taking an integer meets no fault. -/
theorem takeBits_eq_ok {operands : Operands} (hfits : Fits operands.all) :
    takeBits operands = .ok operands.takeBits :=
  takeNext_eq hfits (fun _ => rfl)

/-- Settling a modifier meets no fault: the least `int` can change its sign among the
signed words. -/
theorem settle_eq (settings : Settings) {operands : Operands} (hfits : Fits operands.all)
    (modifier : Modifier) :
    settle settings operands modifier = .ok (settings.apply operands modifier) := by
  by_cases hstar : modifier = .star
  · subst hstar
    rw [settle, if_pos (by rfl), takeBits_eq_ok hfits, Settings.apply]
    cases operands.takeBits with
    | error e => rfl
    | ok taken =>
      have hrange : -2147483648 ≤ OperandWidth.int.signed taken.1 :=
        Int.le_bmod (by decide)
      have hword : OperandWidth.int.signed taken.1 ≠ Quad.least := by
        unfold Quad.least
        omega
      rw [andThen_ok]
      dsimp only
      unfold Settings.setStar
      by_cases hdotted : settings.dotted = true
      · rw [if_pos hdotted, if_pos hdotted]
        rfl
      · rw [if_neg hdotted, if_neg hdotted]
        by_cases hneg : OperandWidth.int.signed taken.1 < 0
        · rw [if_pos hneg, if_pos hneg, negQuad, require_of hword]
          rfl
        · rw [if_neg hneg, if_neg hneg]
          rfl
  · rw [settle, if_neg (by simpa using hstar)]

/-- A sum of digits that stays at the greatest signed word is the whole sum, brought
into the range at the end. -/
theorem satAdd_digit (value digit : Nat) :
    Quad.satAdd (Quad.clamp (Quad.clamp value * 10)) digit =
      Quad.clamp ((value * 10 + digit : Nat) : Int) := by
  unfold Quad.satAdd Quad.clamp Quad.least Quad.greatest
  omega

section Reading

variable {format rest : Bytes} {i : Nat}

/-- Reading an amount meets no fault. It stops behind the digits, and gives their
value as far as it is a signed word. -/
theorem readAmount_eq (hfits : Fits format) (h : At format i rest) (value : Nat) :
    readAmount format i (Quad.clamp value) =
      .ok (Quad.clamp ((rest.takeWhile Byte.isDigit).foldl
        (fun value c => value * 10 + (c.toNat - 0x30)) value : Nat),
        format.length - (rest.dropWhile Byte.isDigit).length) := by
  induction rest generalizing i value with
  | nil =>
    rw [readAmount, h.byteAt_nil, h.eq_sub]
    rfl
  | cons c rest ih =>
    by_cases hc : Byte.isDigit c = true
    · rw [readAmount, h.byteAt_eq, if_pos hc, sub_eq (toNat_of_isDigit hc).1, ok_bind,
        h.next.reach_eq hfits, satAdd_digit, ih h.next, List.takeWhile_cons_of_pos hc,
        List.dropWhile_cons_of_pos hc, List.foldl_cons]
    · rw [readAmount, h.byteAt_eq, if_neg hc, h.eq_sub, List.takeWhile_cons_of_neg hc,
        List.dropWhile_cons_of_neg hc]
      rfl

/-- Whether a dot was read shows in the settings. -/
theorem dotted_of_apply {settings settled : Settings} {operands left : Operands}
    {modifier : Modifier} (h : settings.apply operands modifier = .ok (settled, left)) :
    settled.dotted = (settings.dotted || modifier == .dot) := by
  unfold Settings.apply at h
  cases modifier with
  | star =>
    dsimp only at h
    cases htake : operands.takeBits with
    | error e =>
      rw [htake] at h
      cases h
    | ok taken =>
      rw [htake] at h
      cases h
      unfold Settings.setStar
      split
      · exact (Bool.or_false _).symm
      · split <;> exact (Bool.or_false _).symm
  | amount value =>
    cases h
    unfold Settings.setAmount
    dsimp only
    split <;> exact (Bool.or_false _).symm
  | dot =>
    cases h
    exact (Bool.or_true _).symm
  | left => cases h; exact (Bool.or_false _).symm
  | alternate => cases h; exact (Bool.or_false _).symm
  | plus => cases h; exact (Bool.or_false _).symm
  | zero => cases h; exact (Bool.or_false _).symm
  | length letter => cases h; exact (Bool.or_false _).symm

/-- Stars look at operands and leave them in place. -/
theorem all_of_apply {settings settled : Settings} {operands left : Operands}
    {modifier : Modifier} (h : settings.apply operands modifier = .ok (settled, left)) :
    left.all = operands.all := by
  by_cases hstar : modifier = .star
  · subst hstar
    obtain ⟨used, pending⟩ := operands
    rcases takeBits_cases pending with ⟨arg, rest, bits, rfl, hbits⟩ | ⟨error, hfail⟩
    · rw [Settings.apply, takeBits_eq hbits] at h
      cases h
      exact List.append_assoc used [arg] rest
    · rw [Settings.apply, hfail] at h
      cases h
  · obtain ⟨next, hnext, _⟩ := Settings.exists_apply settings hstar
    rw [hnext] at h
    cases h
    rfl

/-- All stars of a directive leave the operands in place. -/
theorem all_of_applyAll {settings settled : Settings} {operands left : Operands}
    {modifiers : List Modifier}
    (h : settings.applyAll operands modifiers = .ok (settled, left)) : left.all = operands.all := by
  induction modifiers generalizing settings operands with
  | nil =>
    cases h
    rfl
  | cons modifier modifiers ih =>
    rw [Settings.applyAll] at h
    cases happly : settings.apply operands modifier with
    | error e =>
      rw [happly] at h
      cases h
    | ok next =>
      rw [happly] at h
      rw [ih h, all_of_apply happly]

/-- Reading a directive takes a front of the format, in which there is no zero. -/
theorem exists_front_of_read (dotted : Bool) (text : Bytes) :
    ∃ front, text = front ++ (Directive.read dotted text).2 ∧ 0 ∉ front := by
  fun_induction Directive.read dotted text with
  | case1 => exact ⟨[], rfl, List.not_mem_nil⟩
  | case2 => exact ⟨[], rfl, List.not_mem_nil⟩
  | case3 dotted c rest hz hd run after ih =>
    obtain ⟨front, hrest, hzero⟩ := ih
    refine ⟨c :: (rest.takeWhile Byte.isDigit ++ front), ?_, ?_⟩
    · rw [List.cons_append, List.append_assoc, ← hrest, List.takeWhile_append_dropWhile]
    · have hdigits : (0 : UInt8) ∉ rest.takeWhile Byte.isDigit := by
        intro hmem
        have hdigit := List.all_eq_true.mp List.all_takeWhile 0 hmem
        revert hdigit
        decide
      have hc : (0 : UInt8) ≠ c := fun hc => hz (by rw [← hc]; rfl)
      simp [hc, hdigits, hzero]
  | case4 dotted c rest hz hd modifier hm after ih =>
    obtain ⟨front, hrest, hzero⟩ := ih
    have hc : (0 : UInt8) ≠ c := fun hc => hz (by rw [← hc]; rfl)
    refine ⟨c :: front, by rw [List.cons_append, ← hrest], ?_⟩
    simp [hc, hzero]
  | case5 dotted c rest hz hd hm =>
    have hc : (0 : UInt8) ≠ c := fun hc => hz (by rw [← hc]; rfl)
    exact ⟨[c], rfl, by simp [hc]⟩

/-- Reading a directive meets no fault. It settles the modifiers of the directive, and
stops behind it. -/
theorem parse_eq (hfits : Fits format) (h : At format i rest) (settings : Settings)
    {operands : Operands} (hoperands : Fits operands.all) :
    parse format i settings operands =
      .ok ((settings.applyAll operands (Directive.read settings.dotted rest).1.modifiers).map
        fun settled =>
          ⟨(Directive.read settings.dotted rest).1.conversion, settled.1, settled.2,
            format.length - (Directive.read settings.dotted rest).2.length⟩) := by
  generalize hdotted : settings.dotted = dotted
  induction dotted, rest using Directive.read.induct generalizing i settings operands with
  | case1 dotted =>
    rw [parse, h.byteAt_nil, if_pos (by rfl), Directive.read, h.eq_sub]
    rfl
  | case2 dotted c rest hz =>
    rw [parse, h.byteAt_eq, if_pos hz, Directive.read, if_pos hz, h.eq_sub]
    rfl
  | case3 dotted c rest hz hd ih =>
    obtain ⟨hdigit, hnine⟩ := toNat_of_isDigit (Bool.and_eq_true_iff.mp hd).1
    have hclamp : Quad.clamp ((c.toNat - 0x30 : Nat) : Int) = ((c.toNat - 0x30 : Nat) : Int) := by
      unfold Quad.clamp Quad.least Quad.greatest
      omega
    have hvalue : amountOf (c :: rest.takeWhile Byte.isDigit) =
        (rest.takeWhile Byte.isDigit).foldl (fun value c => value * 10 + (c.toNat - 0x30))
          (c.toNat - 0x30) := by
      rw [amountOf, List.foldl_cons, Nat.zero_mul, Nat.zero_add]
    have hread := readAmount_eq hfits h.next (c.toNat - 0x30)
    rw [hclamp, ← hvalue] at hread
    obtain ⟨hat, hle⟩ := h.next.behind (List.dropWhile_suffix Byte.isDigit)
    have hkept : (settings.setAmount (amountOf (c :: rest.takeWhile Byte.isDigit))).dotted =
        dotted := by
      unfold Settings.setAmount
      dsimp only
      split <;> exact hdotted
    have hparse := ih hat _ hoperands hkept
    rw [parse, h.byteAt_eq, if_neg hz, h.next.reach_eq hfits, hdotted, if_pos hd, sub_eq hdigit,
      ok_bind, hread, ok_bind, require_of (by exact hle), Directive.read, if_neg hz, if_pos hd]
    dsimp only [Directive.cons, Settings.applyAll, Settings.apply]
    rw [← hparse, Settings.setAmount, hdotted]
    split <;> rfl
  | case4 dotted c rest hz hd modifier hm ih =>
    rw [parse, h.byteAt_eq, if_neg hz, h.next.reach_eq hfits, hdotted, if_neg hd, hm,
      Directive.read, if_neg hz, if_neg hd, hm]
    dsimp only [Directive.cons, Settings.applyAll]
    rw [settle_eq settings hoperands]
    cases happly : settings.apply operands modifier with
    | error e => rfl
    | ok settled =>
      have hdot := dotted_of_apply happly
      have hkept : Fits settled.2.all := by rwa [all_of_apply happly]
      rw [hdotted] at hdot
      exact ih h.next settled.1 hkept hdot
  | case5 dotted c rest hz hd hm =>
    rw [parse, h.byteAt_eq, if_neg hz, h.next.reach_eq hfits, hdotted, if_neg hd, hm,
      Directive.read, if_neg hz, if_neg hd, hm, h.next.eq_sub]
    rfl

end Reading

end FormatScan.Machine
