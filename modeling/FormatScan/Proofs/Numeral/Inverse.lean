import FormatScan.Proofs.Numeral.Grammar
import Mathlib.Data.List.Basic

/-!
# Writing and reading numbers are inverse

The digits that are written for a word are read as that word, in every base and
in letters of either case. The other way round a number has more than one
spelling: its letters may be of either case, and zeros may stand in front. Among
the numerals, which have no zero in front, only the case of the letters is left
open, and writing settles it.

Both directions meet in the exact value of a run of digits. Reading a run gives
its value as long as a word can hold it, and the digits of the value of a numeral
are those of the numeral, which is seen from its last digit on.
-/

namespace FormatScan

namespace Byte

/-- The lower-case form of an upper-case letter; any other byte is kept. -/
def toLower (c : UInt8) : UInt8 := if isUpper c then c + 0x20 else c

/-- A digit below a base is one below any larger base. -/
theorem isDigitBelow_mono {base larger : Nat} (hle : base ≤ larger) {c : UInt8}
    (h : isDigitBelow base c = true) : isDigitBelow larger c = true := by
  unfold isDigitBelow at h ⊢
  rw [Option.any_eq_true] at h ⊢
  obtain ⟨d, hd, hlt⟩ := h
  exact ⟨d, hd, decide_eq_true (Nat.lt_of_lt_of_le (of_decide_eq_true hlt) hle)⟩

/-- There are 256 bytes. -/
theorem forall_of_lt {P : UInt8 → Prop} (h : ∀ n < 256, P (UInt8.ofNat n)) (c : UInt8) : P c := by
  have hc := h c.toNat c.toNat_lt
  rwa [UInt8.ofNat_toNat] at hc

/-- Only the byte `0` is the digit zero. -/
theorem digitOf_pos {base : Nat} (hb : base ≤ 36) {c : UInt8} (h : isDigitBelow base c = true)
    (hc : c ≠ 0x30) : 0 < digitOf c := by
  have hall : ∀ c, isDigitBelow 36 c = true → c ≠ 0x30 → 0 < digitOf c :=
    forall_of_lt (by decide +kernel)
  exact hall c (isDigitBelow_mono hb h) hc

end Byte

namespace Numeral

/-- A digit is written back in lower case. -/
theorem digitByte_digitOf {base : Nat} (hb : base ≤ 36) {c : UInt8}
    (h : Byte.isDigitBelow base c = true) :
    digitByte false (Byte.digitOf c) = Byte.toLower c := by
  have hall : ∀ c, Byte.isDigitBelow 36 c = true →
      digitByte false (Byte.digitOf c) = Byte.toLower c :=
    Byte.forall_of_lt (by decide +kernel)
  exact hall c (Byte.isDigitBelow_mono hb h)

/-- A numeral is a run of digits that has no zero in front, unless it is the zero
alone. -/
structure IsNumeral (base : Nat) (text : Bytes) : Prop extends IsRun base text where
  /-- A zero stands in front of nothing else. -/
  no_leading_zero : text.head? = some 0x30 → text = [0x30]

/-- What stands in front of the last digit of a numeral is a numeral again, and does
not start with a zero. -/
theorem IsNumeral.front {base : Nat} {run : Bytes} {c : UInt8} (h : IsNumeral base (run ++ [c]))
    (hrun : run ≠ []) : IsNumeral base run ∧ run.head? ≠ some 0x30 := by
  have hhead : run.head? ≠ some 0x30 := by
    intro hzero
    have hwhole := h.no_leading_zero (by rw [List.head?_append_of_ne_nil _ hrun, hzero])
    have hlength := congrArg List.length hwhole
    have hpos := List.length_pos_iff.mpr hrun
    simp only [List.length_append, List.length_singleton] at hlength
    omega
  have hdigits : ∀ d ∈ run, Byte.isDigitBelow base d = true :=
    fun d hd => h.digits d (List.mem_append_left _ hd)
  exact ⟨⟨⟨hrun, hdigits⟩, fun hzero => absurd hzero hhead⟩, hhead⟩

/-- A run that does not start with a zero has a value above zero. -/
theorem runValue_pos {base : Nat} (hb : 0 < base) (hb' : base ≤ 36) {run : Bytes}
    (hr : IsRun base run) (hhead : run.head? ≠ some 0x30) : 0 < runValue base run := by
  induction run using List.reverseRecOn with
  | nil => exact absurd rfl hr.ne_nil
  | append_singleton run c ih =>
    have hc := hr.digits c (by simp)
    rw [runValue_concat]
    by_cases hrun : run = []
    · have hzero : c ≠ 0x30 := by simpa [hrun] using hhead
      exact Nat.add_pos_right _ (Byte.digitOf_pos hb' hc hzero)
    · have hfront : IsRun base run :=
        ⟨hrun, fun d hd => hr.digits d (List.mem_append_left _ hd)⟩
      rw [List.head?_append_of_ne_nil _ hrun] at hhead
      exact Nat.add_pos_left (Nat.mul_pos (ih hfront hhead) hb) _

/-- The digits of the value of a numeral are its own, in lower case. -/
theorem digits_runValue {base : Nat} (hb : 2 ≤ base) (hb' : base ≤ 36) {text : Bytes}
    (h : IsNumeral base text) :
    digits base false (runValue base text) = text.map Byte.toLower := by
  induction text using List.reverseRecOn with
  | nil => exact absurd rfl h.ne_nil
  | append_singleton run c ih =>
    have hc := h.digits c (by simp)
    have hlt := Byte.digitOf_lt hc
    have hlast := digitByte_digitOf hb' hc
    rw [runValue_concat, digits_eq hb]
    by_cases hrun : run = []
    · have hone : runValue base run * base + Byte.digitOf c = Byte.digitOf c := by
        simp [hrun, runValue]
      rw [hone, if_pos hlt, hlast, hrun]
      rfl
    · obtain ⟨hfront, hhead⟩ := h.front hrun
      have hpos := runValue_pos (by omega) hb' hfront.toIsRun hhead
      have hmul : 1 * base ≤ runValue base run * base := Nat.mul_le_mul_right base hpos
      have hdiv : (runValue base run * base + Byte.digitOf c) / base = runValue base run := by
        rw [Nat.mul_comm, Nat.mul_add_div (by omega), Nat.div_eq_of_lt hlt, Nat.add_zero]
      have hmod : (runValue base run * base + Byte.digitOf c) % base = Byte.digitOf c := by
        rw [Nat.mul_comm, Nat.mul_add_mod, Nat.mod_eq_of_lt hlt]
      rw [if_neg (by omega), hdiv, hmod, ih hfront, hlast, List.map_append, List.map_singleton]

/-- The digits that are written for a number are a numeral. -/
theorem isNumeral_digits {base : Nat} (hb : 2 ≤ base) (hb' : base ≤ 36) (upper : Bool) (n : Nat) :
    IsNumeral base (digits base upper n) := by
  refine ⟨⟨digits_ne_nil hb upper n, isDigitBelow_of_mem_digits hb hb' upper n⟩, ?_⟩
  induction n using Nat.strongRecOn with
  | ind n ih =>
    intro hzero
    rw [digits_eq hb] at hzero ⊢
    by_cases hn : n < base
    · rw [if_pos hn] at hzero ⊢
      exact congrArg (fun c => [c]) (Option.some.inj hzero)
    · -- the number without its last digit is no zero
      rw [if_neg hn, List.head?_append_of_ne_nil _ (digits_ne_nil hb upper _)] at hzero
      have hfront := ih (n / base) (Nat.div_lt_self (by omega) (by omega)) hzero
      have hvalue := runValue_digits hb hb' upper (n / base)
      have hpos : 0 < n / base := Nat.div_pos (by omega) (by omega)
      rw [hfront, show runValue base [0x30] = 0 from Nat.zero_mul base] at hvalue
      omega

/-- What a scratch buffer holds is read forward as the digits of the word. -/
theorem Scratch.forward_writeScratch (buffer : Bytes) (base : Nat) (upper : Bool) (n : UInt64) :
    (writeScratch buffer base upper n).forward = digits base upper n.toNat := by
  simp [forward, writeScratch, digits]

/-- As many digits are read as were written. -/
theorem Scratch.length_writeScratch (buffer : Bytes) (base : Nat) (upper : Bool) (n : UInt64) :
    (writeScratch buffer base upper n).length = (digits base upper n.toNat).length := by
  simp [writeScratch, digits]

/-- Writing a word and reading it are inverse in every base. The digits that are
written for a word, in either case, are read as that word to their end, by the
decoder of machine words and by that of quads. The other way round, a numeral whose
value a word can hold is read to its end as that value, and the digits that are
written for it are those of the numeral in lower case. -/
theorem read_write_inverse {base : Nat} (hb : 2 ≤ base) (hb' : base ≤ 36) :
    (∀ (buffer : Bytes) (upper : Bool) (n : UInt64),
      let scratch := writeScratch buffer base upper n
      decodeMachineWord scratch.forward base = ⟨n, scratch.length⟩ ∧
        decodeUnsigned scratch.forward base = ⟨n, scratch.length⟩) ∧
    ∀ text : Bytes, IsNumeral base text → runValue base text ≤ Word.largest →
      (decodeUnsigned text base).finish = text.length ∧
        (decodeUnsigned text base).value.toNat = runValue base text ∧
        ∀ buffer : Bytes,
          (writeScratch buffer base false (decodeUnsigned text base).value).forward =
            text.map Byte.toLower := by
  constructor
  · intro buffer upper n scratch
    have hrun : IsRun base (digits base upper n.toNat) :=
      ⟨digits_ne_nil hb upper _, isDigitBelow_of_mem_digits hb hb' upper _⟩
    have hread : decodeUnsigned scratch.forward base = ⟨n, scratch.length⟩ := by
      rw [Scratch.forward_writeScratch, (Spells.plain hrun).decodeUnsigned_eq hb hb',
        runValue_digits hb hb', wordOf_toNat, Scratch.length_writeScratch]
    exact ⟨hread, hread⟩
  · intro text h hmax
    have hread := (Spells.plain h.toIsRun).decodeUnsigned_eq hb hb'
    have hvalue : (decodeUnsigned text base).value.toNat = runValue base text := by
      have hfits : ¬2 ^ 64 - 1 < runValue base text := Nat.not_lt.mpr hmax
      rw [hread, toNat_wordOf, if_neg hfits]
      rfl
    refine ⟨by rw [hread], hvalue, fun buffer => ?_⟩
    rw [Scratch.forward_writeScratch, hvalue, digits_runValue hb hb' h]

/-- In base 34 an x of either case is a digit, and the `0x` in `X0x` is no mark. -/
theorem read_write_inverse_mixed :
    (2 ≤ 34 ∧ 34 ≤ 36) ∧
      IsNumeral 34 [0x58, 0x30, 0x78] ∧ runValue 34 [0x58, 0x30, 0x78] ≤ Word.largest ∧
      (decodeUnsigned [0x58, 0x30, 0x78] 34).finish = 3 ∧
      (decodeUnsigned [0x58, 0x30, 0x78] 34).value.toNat = 38181 ∧
      (writeScratch [] 34 false (decodeUnsigned [0x58, 0x30, 0x78] 34).value).forward =
        [0x78, 0x30, 0x78] := by
  have hrun : IsNumeral 34 [0x58, 0x30, 0x78] :=
    ⟨⟨by decide, by decide +kernel⟩, by decide⟩
  have hmax : runValue 34 [0x58, 0x30, 0x78] ≤ Word.largest := by decide
  have hbase : 2 ≤ 34 ∧ 34 ≤ 36 := by decide
  obtain ⟨hfinish, hvalue, hback⟩ :=
    (read_write_inverse hbase.1 hbase.2).2 [0x58, 0x30, 0x78] hrun hmax
  exact ⟨hbase, hrun, hmax, hfinish, hvalue, hback []⟩

end Numeral

end FormatScan
