import FormatScan.Proofs.Machine.Encoder
import FormatScan.Proofs.Numeral.Inverse
import Mathlib.Data.Nat.Digits.Lemmas

/-!
# Digits in a scratch buffer

A word is written into a scratch buffer as a zero byte and its digits, the least significant
one first. Division yields just the digits that the number has in the base: the digit at each
place is what is left of the number at that place, and there is none in front of the most
significant one that is not zero. So the digits are the only ones that the number has, a word
has at most 64 of them, and the bytes of the buffer behind them are not touched.
-/

namespace FormatScan.Numeral

/-- The digits of a number by their places, the least significant one first. Zero has one
digit. -/
def placeDigits (base n : Nat) : List Nat := if n = 0 then [0] else Nat.digits base n

/-- The digits that a base can have, in the order of their values. -/
def letters (upper : Bool) : Bytes :=
  bytesOf (if upper then "0123456789ABCDEFGHIJKLMNOPQRSTUVWXYZ"
    else "0123456789abcdefghijklmnopqrstuvwxyz")

theorem getElem?_letters (upper : Bool) {d : Nat} (hd : d < 36) :
    (letters upper)[d]? = some (digitByte upper d) := by
  revert upper d
  decide +kernel

/-- Division yields the digits of a number. -/
theorem leastFirst_eq_map {base : Nat} (hb : 2 ≤ base) (upper : Bool) (n : Nat) :
    leastFirst base upper n = (placeDigits base n).map (digitByte upper) := by
  -- one division a step, until what is left is a digit of the base
  induction n using Nat.strongRecOn with
  | ind n ih =>
    rw [leastFirst]
    by_cases hn : base ≤ n
    · have hpos : n ≠ 0 := by omega
      have hhigher : n / base ≠ 0 := Nat.ne_of_gt (Nat.div_pos hn (by omega))
      have hdigits : Nat.digits base n = n % base :: Nat.digits base (n / base) :=
        Nat.digits_def' (by omega) (by omega)
      rw [dif_pos ⟨hb, hn⟩, ih (n / base) (Nat.div_lt_self (by omega) (by omega)), placeDigits,
        placeDigits, if_neg hhigher, if_neg hpos, hdigits, List.map_cons]
    · rw [dif_neg (fun h => hn h.2), placeDigits]
      by_cases hzero : n = 0
      · rw [if_pos hzero, hzero]
        rfl
      · rw [if_neg hzero, Nat.digits_of_lt base n hzero (by omega)]
        rfl

theorem length_placeDigits (base n : Nat) :
    (placeDigits base n).length = if n = 0 then 1 else (Nat.digits base n).length := by
  rw [placeDigits]
  split <;> rfl

/-- The digit at a place is what the number leaves there. -/
theorem getElem?_placeDigits {base : Nat} (hb : 2 ≤ base) {n place : Nat}
    (h : place < (placeDigits base n).length) :
    (placeDigits base n)[place]? = some (n / base ^ place % base) := by
  unfold placeDigits at h ⊢
  by_cases hn : n = 0
  · subst hn
    rw [if_pos rfl, List.length_singleton, Nat.lt_one_iff] at h
    subst h
    simp
  · rw [if_neg hn] at h ⊢
    have hdigit := Nat.getD_digits n place hb
    rw [List.getD_eq_getElem?_getD, List.getElem?_eq_getElem h, Option.getD_some] at hdigit
    rw [List.getElem?_eq_getElem h, hdigit]

/-- The most significant digit is not zero, unless the number is. -/
theorem leading_digit_ne_zero {base : Nat} (hb : 2 ≤ base) {n : Nat} (hn : n ≠ 0) :
    n / base ^ ((placeDigits base n).length - 1) % base ≠ 0 := by
  have hdigits : placeDigits base n = Nat.digits base n := if_neg hn
  have hne : Nat.digits base n ≠ [] := Nat.digits_ne_nil_iff_ne_zero.mpr hn
  have hlast : (placeDigits base n).length - 1 < (placeDigits base n).length := by
    have hpos := List.length_pos_iff.mpr hne
    rw [hdigits]
    omega
  have hplace := getElem?_placeDigits hb hlast
  rw [hdigits, ← List.getLast?_eq_getElem?, List.getLast?_eq_some_getLast hne] at hplace
  rw [hdigits, ← Option.some.inj hplace]
  exact Nat.getLast_digit_ne_zero base hn

/-- A scratch buffer with a word written into it, by the buffer that was there before: where
its digits stand and which ones they are. -/
structure Scratch.Holds (scratch : Scratch) (base : Nat) (upper : Bool) (n : UInt64)
    (before : Bytes) : Prop where
  /-- The buffer keeps its size. -/
  size_eq : scratch.buffer.length = before.length
  /-- As many digits are reported as the word has. Zero has one. -/
  length_eq : scratch.length = if n = 0 then 1 else (Nat.digits base n.toNat).length
  /-- No word has more than 64. -/
  length_le : scratch.length ≤ 64
  /-- A zero byte stands in front. -/
  zero : scratch.buffer[0]? = some 0
  /-- Behind it the digit of each place is found, as its letter. -/
  digit : ∀ place < scratch.length,
    scratch.buffer[place + 1]? = (letters upper)[n.toNat / base ^ place % base]?
  /-- The most significant digit is not zero, unless the word is. -/
  leading : n ≠ 0 → n.toNat / base ^ (scratch.length - 1) % base ≠ 0
  /-- The bytes behind the digits are what they were before. -/
  behind : ∀ place, scratch.length < place → scratch.buffer[place]? = before[place]?

/-- The digits of a word fill the buffer from its second byte on, and fit in. -/
theorem Scratch.holds_writeScratch {base : Nat} (hb : 2 ≤ base) (hb' : base ≤ 36) (upper : Bool)
    (n : UInt64) {buffer : Bytes} (hsize : buffer.length = scratchSize) :
    (writeScratch buffer base upper n).Holds base upper n buffer := by
  have hwritten := leastFirst_eq_map hb upper n.toNat
  have hcount := Machine.length_leastFirst_le hb upper n
  have hlength : (leastFirst base upper n.toNat).length = (placeDigits base n.toNat).length := by
    rw [hwritten, List.length_map]
  have hzero : n.toNat = 0 ↔ n = 0 := UInt64.toNat_inj (b := 0)
  refine ⟨?_, ?_, hcount, rfl, fun place hplace => ?_, fun hn => ?_, fun place hplace => ?_⟩
  · have hsize' : buffer.length = 65 := hsize
    simp only [writeScratch, List.length_append, List.length_cons, List.length_drop]
    omega
  · have hreported : (writeScratch buffer base upper n).length =
        (leastFirst base upper n.toNat).length := rfl
    rw [hreported, hlength, length_placeDigits]
    simp only [hzero]
  · have hplace' : place < (leastFirst base upper n.toNat).length := hplace
    have hletter : n.toNat / base ^ place % base < 36 :=
      Nat.lt_of_lt_of_le (Nat.mod_lt _ (by omega)) hb'
    rw [writeScratch, List.cons_append, List.getElem?_cons_succ,
      List.getElem?_append_left hplace', hwritten, List.getElem?_map,
      getElem?_placeDigits hb (hlength ▸ hplace'), getElem?_letters upper hletter]
    rfl
  · have hlast := leading_digit_ne_zero hb (mt hzero.mp hn)
    rw [← hlength] at hlast
    exact hlast
  · have hplace' : (0 :: leastFirst base upper n.toNat).length ≤ place := hplace
    have hback : (leastFirst base upper n.toNat).length + 1 +
        (place - (0 :: leastFirst base upper n.toNat).length) = place := by
      rw [List.length_cons] at hplace' ⊢
      omega
    rw [writeScratch, List.getElem?_append_right hplace', List.getElem?_drop, hback]

/-- Reading a buffer forward turns the order of its digits. -/
theorem Scratch.getElem?_forward {scratch : Scratch} (h : scratch.length < scratch.buffer.length)
    {place : Nat} (hplace : place < scratch.length) :
    scratch.forward[place]? = scratch.buffer[scratch.length - place]? := by
  have htaken : ((scratch.buffer.drop 1).take scratch.length).length = scratch.length := by
    rw [List.length_take, List.length_drop]
    omega
  have hback : 1 + (scratch.length - 1 - place) = scratch.length - place := by omega
  rw [forward, List.getElem?_reverse (by omega), htaken, List.getElem?_take_of_lt (by omega),
    List.getElem?_drop, hback]

/-- Writing a word into a scratch buffer, in a base from 2 to 36 and letters of either case,
stays within the buffer and leaves in it, behind a zero byte, the digits of the word and
nothing else: as many as the word has, at most 64, the least significant one first and the
most significant one not zero unless the word is. The bytes behind the digits keep what they
held. Read forward, the digits come with the most significant one first. -/
theorem Scratch.writeScratch_canonical {base : Nat} (hb : 2 ≤ base) (hb' : base ≤ 36)
    (upper : Bool) (n : UInt64) {buffer : Bytes} (hsize : buffer.length = scratchSize) :
    let scratch := writeScratch buffer base upper n
    Machine.writeScratch buffer base upper n = .ok scratch ∧
      scratch.Holds base upper n buffer ∧
      Machine.forward scratch = .ok scratch.forward ∧
      scratch.forward.length = scratch.length ∧
      ∀ place < scratch.length, scratch.forward[place]? =
        (letters upper)[n.toNat / base ^ (scratch.length - 1 - place) % base]? := by
  intro scratch
  have hholds : scratch.Holds base upper n buffer := holds_writeScratch hb hb' upper n hsize
  have hforward : scratch.forward = digits base upper n.toNat :=
    forward_writeScratch buffer base upper n
  refine ⟨Machine.writeScratch_eq hb hb' upper n hsize, hholds, ?_, ?_, fun place hplace => ?_⟩
  · rw [hforward]
    exact Machine.forward_writeScratch hb upper n buffer
  · rw [hforward]
    exact (length_writeScratch buffer base upper n).symm
  · have hroom : scratch.length < scratch.buffer.length := by
      have hsize' : buffer.length = 65 := hsize
      have hle := hholds.length_le
      rw [hholds.size_eq]
      omega
    have hplace' : scratch.length - place = scratch.length - 1 - place + 1 := by omega
    rw [getElem?_forward hroom hplace, hplace', hholds.digit _ (by omega)]

/-- `BEEF` takes four bytes behind the zero byte, the last letter first. -/
theorem Scratch.writeScratch_canonical_beef :
    (2 ≤ 16 ∧ 16 ≤ 36 ∧ (List.replicate 65 (0xAA : UInt8)).length = scratchSize) ∧
      let scratch := writeScratch (List.replicate 65 0xAA) 16 true 0xBEEF
      scratch.length = 4 ∧
        (scratch.buffer[1]? = some 0x46 ∧ scratch.buffer[4]? = some 0x42 ∧
          scratch.buffer[5]? = some 0xAA) ∧
        scratch.forward[0]? = some 0x42 ∧ scratch.forward[3]? = some 0x46 := by
  have hsize : (List.replicate 65 (0xAA : UInt8)).length = scratchSize := rfl
  obtain ⟨-, hholds, -, -, hforward⟩ :=
    writeScratch_canonical (show 2 ≤ 16 by decide) (show 16 ≤ 36 by decide) true 0xBEEF hsize
  have hlength : (writeScratch (List.replicate 65 0xAA) 16 true 0xBEEF).length = 4 := by
    rw [hholds.length_eq]
    decide +kernel
  rw [hlength] at hforward
  refine ⟨⟨by decide, by decide, hsize⟩, hlength, ⟨?_, ?_, ?_⟩, ?_, ?_⟩
  · rw [hholds.digit 0 (by omega)]
    decide +kernel
  · rw [hholds.digit 3 (by omega)]
    decide +kernel
  · rw [hholds.behind 5 (by omega)]
    rfl
  · rw [hforward 0 (by decide)]
    decide +kernel
  · rw [hforward 3 (by decide)]
    decide +kernel

end FormatScan.Numeral
