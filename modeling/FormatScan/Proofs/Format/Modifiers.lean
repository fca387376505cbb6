import FormatScan.Format.Field
import FormatScan.Proofs.Format.Steps
import FormatScan.Proofs.Text.Bytes

/-!
# Written modifiers

Any bytes that are modifiers may stand in front of a conversion, in any order and
any number of times. Reading them joins runs of digits into amounts and keeps all
other bytes one by one, so the length letters, the stars and the plus signs that
are read are the ones that are written.

Settling the modifiers takes one operand for every star. Whatever the amounts are,
the length letters of the directive add up in the order in which they are written,
and a plus sign is kept.
-/

namespace FormatScan.Format

/-- The bytes that may stand between a percent sign and a conversion. -/
def isModifier (c : UInt8) : Bool := Byte.isDigit c || (Modifier.ofByte? c).isSome

/-- The length letter of a modifier. -/
def Modifier.letter? : Modifier → Option LengthLetter
  | length letter => some letter
  | _ => none

/-- The modifiers of a directive are those of a text: the same length letters in the
same order, as many stars, and a plus sign if there is one. -/
structure Writes (text : Bytes) (modifiers : List Modifier) : Prop where
  /-- The length letters. -/
  letters : modifiers.filterMap Modifier.letter? = text.filterMap LengthLetter.ofByte?
  /-- The number of stars. -/
  stars : modifiers.count .star = text.count 0x2A
  /-- The plus sign. -/
  plus : modifiers.contains .plus = text.contains 0x2B

/-- Different bytes are different characters. -/
theorem eq_of_char_eq {c d : UInt8} (h : Byte.char c = Byte.char d) : c = d := by
  rw [← UInt8.toNat_inj, ← Byte.toNat_char, ← Byte.toNat_char, h]

/-- A digit is no length letter, no star and no plus sign. -/
theorem class_of_isDigit {c : UInt8} (h : Byte.isDigit c = true) :
    LengthLetter.ofByte? c = none ∧ c ≠ 0x2A ∧ c ≠ 0x2B ∧
      (c = 0x30 ∨ Modifier.ofByte? c = none) := by
  have hrange : 0x30 ≤ c.toNat ∧ c.toNat ≤ 0x39 := by
    simpa [Byte.isDigit, UInt8.le_iff_toNat_le] using h
  have hall : ∀ d < 10,
      LengthLetter.ofByte? (UInt8.ofNat (0x30 + d)) = none ∧ UInt8.ofNat (0x30 + d) ≠ 0x2A ∧
        UInt8.ofNat (0x30 + d) ≠ 0x2B ∧
        (UInt8.ofNat (0x30 + d) = 0x30 ∨ Modifier.ofByte? (UInt8.ofNat (0x30 + d)) = none) := by
    decide
  have hc := hall (c.toNat - 0x30) (by omega)
  rwa [Nat.add_sub_cancel' hrange.1, UInt8.ofNat_toNat] at hc

/-- What a modifier byte stands for tells which byte it is. -/
theorem Modifier.of_ofByte? {c : UInt8} {modifier : Modifier}
    (h : Modifier.ofByte? c = some modifier) :
    modifier.letter? = LengthLetter.ofByte? c ∧ (modifier = .star ↔ c = 0x2A) ∧
      (modifier = .plus ↔ c = 0x2B) := by
  have hbyte : ∀ d : UInt8, Byte.char c = Byte.char d → c = d := fun d => eq_of_char_eq
  unfold Modifier.ofByte? at h
  split at h
  case h_1 hc => cases h; cases hbyte 0x2D hc; decide
  case h_2 hc => cases h; cases hbyte 0x23 hc; decide
  case h_3 hc => cases h; cases hbyte 0x2B hc; decide
  case h_4 hc => cases h; cases hbyte 0x30 hc; decide
  case h_5 hc => cases h; cases hbyte 0x2E hc; decide
  case h_6 hc => cases h; cases hbyte 0x2A hc; decide
  case h_7 hplus _ _ hstar =>
    obtain ⟨letter, hletter, rfl⟩ := Option.map_eq_some_iff.mp h
    refine ⟨hletter.symm, ⟨fun hm => (by cases hm), fun hc => ?_⟩,
      ⟨fun hm => (by cases hm), fun hc => ?_⟩⟩
    · rw [hc] at hstar
      exact absurd rfl hstar
    · rw [hc] at hplus
      exact absurd rfl hplus

namespace Writes

/-- No bytes are no modifiers. -/
theorem nil : Writes [] [] := ⟨rfl, rfl, rfl⟩

/-- A modifier byte goes in front of the modifiers behind it. -/
theorem cons {c : UInt8} {text : Bytes} {modifier : Modifier} {modifiers : List Modifier}
    (h : Writes text modifiers) (hc : Modifier.ofByte? c = some modifier) :
    Writes (c :: text) (modifier :: modifiers) := by
  obtain ⟨hletter, hstar, hplus⟩ := Modifier.of_ofByte? hc
  constructor
  · rw [List.filterMap_cons, List.filterMap_cons, hletter, h.letters]
  · simp only [List.count_cons, h.stars, beq_iff_eq, hstar]
  · have hp : (Modifier.plus == modifier) = (0x2B == c) := by
      rw [Bool.eq_iff_iff, beq_iff_eq, beq_iff_eq, eq_comm, hplus, eq_comm]
    rw [List.contains_cons, List.contains_cons, h.plus, hp]

/-- A run of digits goes in front of the modifiers behind it as an amount. -/
theorem amount {digits text : Bytes} {modifiers : List Modifier} (h : Writes text modifiers)
    (hd : ∀ c ∈ digits, Byte.isDigit c = true) (value : Nat) :
    Writes (digits ++ text) (.amount value :: modifiers) := by
  have hletters : digits.filterMap LengthLetter.ofByte? = [] := by
    rw [List.filterMap_eq_nil_iff]
    exact fun c hc => (class_of_isDigit (hd c hc)).1
  have hstars : digits.count 0x2A = 0 := by
    rw [List.count_eq_zero]
    exact fun hc => (class_of_isDigit (hd _ hc)).2.1 rfl
  have hplus : digits.contains 0x2B = false := by
    rw [List.contains_eq_mem, decide_eq_false_iff_not]
    exact fun hc => (class_of_isDigit (hd _ hc)).2.2.1 rfl
  constructor
  · rw [List.filterMap_append, hletters, List.nil_append, ← h.letters]
    rfl
  · rw [List.count_append, hstars, Nat.zero_add, ← h.stars]
    rfl
  · rw [List.contains_append, hplus, Bool.false_or, ← h.plus]
    rfl

end Writes

/-- In front of a text that starts with no digit a run of digits ends where it ends
without it. -/
theorem span_isDigit_append (text : Bytes) {tail : Bytes}
    (ht : ∀ c ∈ tail.head?, Byte.isDigit c = false) :
    (text ++ tail).takeWhile Byte.isDigit = text.takeWhile Byte.isDigit ∧
      (text ++ tail).dropWhile Byte.isDigit = text.dropWhile Byte.isDigit ++ tail := by
  induction text with
  | nil =>
    cases tail with
    | nil => exact ⟨rfl, rfl⟩
    | cons c more => simp [ht c rfl]
  | cons d text ih =>
    by_cases hd : Byte.isDigit d = true
    · simp [hd, ih]
    · simp [hd]

/-- A modifier byte that starts no amount stands for a modifier by itself. -/
theorem exists_ofByte?_of_isModifier {dotted : Bool} {m : UInt8} (hmod : isModifier m = true)
    (hrun : ¬(Byte.isDigit m && (dotted || m != 0x30)) = true) :
    ∃ modifier, Modifier.ofByte? m = some modifier := by
  rw [← Option.isSome_iff_exists]
  rcases Bool.or_eq_true_iff.mp hmod with hd | hs
  · -- A digit that starts no amount is the zero of a padding.
    have hzero : m = 0x30 := by
      rw [Bool.and_eq_true, not_and, hd] at hrun
      have hne := hrun rfl
      simp only [Bool.or_eq_true, bne_iff_ne, not_or, Decidable.not_not] at hne
      exact hne.2
    rw [hzero]
    decide
  · exact hs

/-- Modifier bytes in front of a text that has none at its front are read as the
modifiers that they write, ahead of what that text is read as. -/
theorem Directive.exists_read_ahead {text : Bytes} (ht : ∀ c ∈ text, isModifier c = true)
    {tail after : Bytes} {conversion : Conversion}
    (hd : ∀ c ∈ tail.head?, Byte.isDigit c = false)
    (hr : ∀ dotted, Directive.read dotted tail = (⟨[], conversion⟩, after)) (dotted : Bool) :
    ∃ modifiers, Directive.read dotted (text ++ tail) = (⟨modifiers, conversion⟩, after) ∧
      Writes text modifiers := by
  -- A run of digits is read at once, so the induction is on the length.
  induction hn : text.length using Nat.strongRecOn generalizing text dotted with
  | ind n ih =>
    cases text with
    | nil => exact ⟨[], hr dotted, Writes.nil⟩
    | cons m text =>
      rw [List.length_cons] at hn
      have hmod : isModifier m = true := ht m List.mem_cons_self
      have hm : m ≠ 0 := by
        rintro rfl
        revert hmod
        decide
      have htext : ∀ c ∈ text, isModifier c = true := fun c hc => ht c (List.mem_cons_of_mem m hc)
      rw [List.cons_append]
      by_cases hrun : (Byte.isDigit m && (dotted || m != 0x30)) = true
      · have hsplit : text = text.takeWhile Byte.isDigit ++ text.dropWhile Byte.isDigit :=
          List.takeWhile_append_dropWhile.symm
        have hdigits : ∀ c ∈ text.takeWhile Byte.isDigit, Byte.isDigit c = true :=
          List.all_eq_true.mp List.all_takeWhile
        have hspan := span_isDigit_append text hd
        have hshort := (List.dropWhile_sublist (l := text) Byte.isDigit).length_le
        obtain ⟨modifiers, hread, hwrites⟩ := ih (text.dropWhile Byte.isDigit).length (by omega)
          (fun c hc => htext c ((List.dropWhile_sublist Byte.isDigit).subset hc)) dotted rfl
        have hamount : ∀ d ∈ m :: text.takeWhile Byte.isDigit, Byte.isDigit d = true :=
          List.forall_mem_cons.mpr ⟨(Bool.and_eq_true_iff.mp hrun).1, hdigits⟩
        have hwhole := hwrites.amount hamount (amountOf (m :: text.takeWhile Byte.isDigit))
        rw [List.cons_append, ← hsplit] at hwhole
        refine ⟨_, ?_, hwhole⟩
        rw [Directive.read, if_neg (by simpa using hm), if_pos hrun, hspan.1, hspan.2, hread]
        rfl
      · obtain ⟨modifier, hmodifier⟩ := exists_ofByte?_of_isModifier hmod hrun
        obtain ⟨modifiers, hread, hwrites⟩ := ih text.length (by omega) htext
          (dotted || modifier == .dot) rfl
        refine ⟨modifier :: modifiers, ?_, hwrites.cons hmodifier⟩
        rw [Directive.read_modifier hm hrun hmodifier, hread]
        rfl

/-- Modifier bytes in front of a byte that is none are read as the modifiers that
they write, and that byte as the conversion. -/
theorem Directive.exists_read_modifiers {text : Bytes} (ht : ∀ c ∈ text, isModifier c = true)
    {c : UInt8} (hz : c ≠ 0) (hc : isModifier c = false) (dotted : Bool) (more : Bytes) :
    ∃ modifiers, Directive.read dotted (text ++ c :: more) =
        (⟨modifiers, Conversion.ofByte c⟩, more) ∧ Writes text modifiers := by
  have hdigit : Byte.isDigit c = false := (Bool.or_eq_false_iff.mp hc).1
  have hnone : Modifier.ofByte? c = none := by
    simpa using (Bool.or_eq_false_iff.mp hc).2
  refine Directive.exists_read_ahead ht ?_ ?_ dotted
  · rintro d hd
    cases hd
    exact hdigit
  · exact fun dotted => Directive.read_conversion hz (by simp [hdigit]) hnone more

/-- Taking an integer operand gives its bits and leaves it in place. -/
theorem takeBits_eq {arg : FormatArg} {bits : UInt64} (h : arg.bits? = some bits)
    (used pending : List FormatArg) :
    Operands.takeBits ⟨used, arg :: pending⟩ = .ok (bits, ⟨used ++ [arg], pending⟩) := by
  unfold Operands.takeBits Cursor.take
  dsimp only
  rw [h]
  rfl

/-- A modifier other than a star takes no operand. A length letter is added to the
others, and a plus sign is kept. -/
theorem Settings.exists_apply (settings : Settings) {modifier : Modifier}
    (hstar : modifier ≠ .star) :
    ∃ next : Settings, (∀ operands, settings.apply operands modifier = .ok (next, operands)) ∧
      next.length = modifier.letter?.toList.foldl LengthFlags.add settings.length ∧
      next.plus = (settings.plus || Modifier.plus == modifier) := by
  cases modifier with
  | star => exact absurd rfl hstar
  | plus => exact ⟨_, fun _ => rfl, rfl, (Bool.or_true _).symm⟩
  | amount value =>
    refine ⟨settings.setAmount value, fun _ => rfl, ?_, ?_⟩
    · unfold Settings.setAmount
      split <;> rfl
    · unfold Settings.setAmount
      split <;> exact (Bool.or_false _).symm
  | left => exact ⟨_, fun _ => rfl, rfl, (Bool.or_false _).symm⟩
  | alternate => exact ⟨_, fun _ => rfl, rfl, (Bool.or_false _).symm⟩
  | zero => exact ⟨_, fun _ => rfl, rfl, (Bool.or_false _).symm⟩
  | dot => exact ⟨_, fun _ => rfl, rfl, (Bool.or_false _).symm⟩
  | length letter => exact ⟨_, fun _ => rfl, rfl, (Bool.or_false _).symm⟩

/-- Settling modifiers takes an integer operand for every star, adds up the length
letters, and keeps a plus sign. What the modifiers settle depends on those operands
alone, not on what was taken before or lies behind. -/
theorem Settings.exists_applyAll (modifiers : List Modifier) (settings : Settings)
    {stars : List FormatArg} (hlength : stars.length = modifiers.count .star)
    (hstars : ∀ star ∈ stars, star.bits?.isSome = true) :
    ∃ settled : Settings,
      (∀ used pending, settings.applyAll ⟨used, stars ++ pending⟩ modifiers =
        .ok (settled, ⟨used ++ stars, pending⟩)) ∧
      settled.length =
        (modifiers.filterMap Modifier.letter?).foldl LengthFlags.add settings.length ∧
      settled.plus = (settings.plus || modifiers.contains .plus) := by
  induction modifiers generalizing settings stars with
  | nil =>
    have hnil : stars = [] := List.eq_nil_of_length_eq_zero hlength
    subst hnil
    refine ⟨settings, fun used pending => ?_, rfl, by simp⟩
    rw [List.nil_append, List.append_nil, Settings.applyAll]
  | cons modifier modifiers ih =>
    by_cases hstar : modifier = .star
    · subst hstar
      rw [List.count_cons_self] at hlength
      cases stars with
      | nil => cases hlength
      | cons star stars =>
        obtain ⟨bits, hbits⟩ := Option.isSome_iff_exists.mp (hstars star List.mem_cons_self)
        obtain ⟨settled, happly, hletters, hplus⟩ := ih
          (settings.setStar (OperandWidth.int.signed bits)) (Nat.succ.inj hlength)
          (fun s hs => hstars s (List.mem_cons_of_mem star hs))
        have hkept : (settings.setStar (OperandWidth.int.signed bits)).length = settings.length ∧
            (settings.setStar (OperandWidth.int.signed bits)).plus = settings.plus := by
          unfold Settings.setStar
          split
          · exact ⟨rfl, rfl⟩
          · split <;> exact ⟨rfl, rfl⟩
        refine ⟨settled, fun used pending => ?_, ?_, ?_⟩
        · rw [List.cons_append, Settings.applyAll, Settings.apply, takeBits_eq hbits]
          dsimp only
          rw [happly, List.append_assoc, List.singleton_append]
        · rw [hletters, hkept.1]
          rfl
        · rw [hplus, hkept.2]
          rfl
    · rw [List.count_cons_of_ne (fun h => hstar h)] at hlength
      obtain ⟨next, hnext, hletter, hsign⟩ := Settings.exists_apply settings hstar
      obtain ⟨settled, happly, hletters, hplus⟩ := ih next hlength hstars
      refine ⟨settled, fun used pending => ?_, ?_, ?_⟩
      · rw [Settings.applyAll, hnext]
        exact happly used pending
      · rw [hletters, hletter, List.filterMap_cons]
        cases modifier.letter? <;> rfl
      · rw [hplus, hsign, List.contains_cons, Bool.or_assoc]

end FormatScan.Format
