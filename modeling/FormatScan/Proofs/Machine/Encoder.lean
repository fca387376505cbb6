import FormatScan.Proofs.Machine.Operations
import FormatScan.Proofs.Numeral.Value

/-!
# Writing numbers into a buffer

Digits are written into a buffer of 65 bytes, the least significant first, behind a
zero byte. A word has at most 64 digits in any base from 2 on, so the buffer is never
too short, and a remainder in a base up to 36 always names a digit.
-/

namespace FormatScan.Machine

open Numeral

/-- The digits in the order of their values. -/
def alphabet : Bytes :=
  [0x30, 0x31, 0x32, 0x33, 0x34, 0x35, 0x36, 0x37, 0x38, 0x39, 0x61, 0x62, 0x63, 0x64, 0x65, 0x66,
    0x67, 0x68, 0x69, 0x6A, 0x6B, 0x6C, 0x6D, 0x6E, 0x6F, 0x70, 0x71, 0x72, 0x73, 0x74, 0x75, 0x76,
    0x77, 0x78, 0x79, 0x7A]

/-- The upper-case form of a byte. -/
def toUpper (c : UInt8) : Checked UInt8 :=
  if Byte.isLower c then do
    let upper ← sub c.toNat 0x20
    return UInt8.ofNat upper
  else .ok c

/-- The byte for a digit. -/
def digitLetter (upper : Bool) (d : Nat) : Checked UInt8 := do
  let letter ← index alphabet d
  if upper then toUpper letter else return letter

/-- Write the digits of a number behind those that a buffer has already. -/
def writeDigits (buffer : Bytes) (base : Nat) (upper : Bool) (n length : Nat) :
    Checked Scratch := do
  let digit ← rem n base
  let c ← digitLetter upper digit
  require (length + 1 ≤ Word.largest) .overflow fun _ =>
    require (length + 1 < buffer.length) .outOfBounds fun _ => do
      let higher ← div n base
      if higher == 0 then return ⟨length + 1, buffer.set (length + 1) c⟩
      else writeDigits (buffer.set (length + 1) c) base upper higher (length + 1)
termination_by buffer.length - length

/-- Write a number at the front of a buffer, in a base from 2 to 36. -/
def writeScratch (buffer : Bytes) (base : Nat) (upper : Bool) (n : UInt64) : Checked Scratch :=
  require (2 ≤ base ∧ base ≤ 36) .boundBroken fun _ => do
    let buffer ← store buffer 0 0
    writeDigits buffer base upper n.toNat 0

/-- The digits in a buffer, most significant first. -/
def forward (scratch : Scratch) : Checked Bytes := do
  let last ← add scratch.length 1
  let digits ← slice scratch.buffer 1 last
  return digits.reverse

/-- A byte has an upper-case form. -/
theorem toUpper_eq (c : UInt8) : toUpper c = .ok (Byte.toUpper c) := by
  unfold toUpper Byte.toUpper
  by_cases hl : Byte.isLower c = true
  · have hrange : 0x61 ≤ c.toNat ∧ c.toNat ≤ 0x7A := by
      simpa [Byte.isLower, UInt8.le_iff_toNat_le] using hl
    have hbyte : UInt8.ofNat (c.toNat - 0x20) = c - 0x20 := by
      rw [UInt8.ofNat_sub (by omega), UInt8.ofNat_toNat]
      rfl
    rw [if_pos hl, if_pos hl, sub_eq (by omega), ok_bind, hbyte]
    rfl
  · rw [if_neg hl, if_neg hl]

/-- A digit is found in the alphabet, in either case. -/
theorem digitLetter_eq (upper : Bool) {d : Nat} (hd : d < 36) :
    digitLetter upper d = .ok (digitByte upper d) := by
  have hletter : ∀ d < 36, alphabet[d]? = some (digitByte false d) := by decide
  have hupper : ∀ d < 36, Byte.toUpper (digitByte false d) = digitByte true d := by decide
  have hindex : index alphabet d = .ok (digitByte false d) := by rw [index, hletter d hd]
  rw [digitLetter, hindex, ok_bind]
  cases upper with
  | false => rfl
  | true => rw [if_pos rfl, toUpper_eq, hupper d hd]

/-- Digits are written behind those that a buffer has, when there is room for them. -/
theorem writeDigits_eq {base : Nat} (hb : 2 ≤ base) (hb' : base ≤ 36) (upper : Bool) (n : Nat)
    {buffer : Bytes} (hfits : Fits buffer) {length : Nat}
    (hroom : length + (leastFirst base upper n).length < buffer.length) :
    writeDigits buffer base upper n length =
      .ok ⟨length + (leastFirst base upper n).length,
        buffer.take (length + 1) ++ (leastFirst base upper n ++
          buffer.drop (length + 1 + (leastFirst base upper n).length))⟩ := by
  induction n using Nat.strongRecOn generalizing buffer length with
  | ind n ih =>
    have hdigit : digitLetter upper (n % base) = .ok (digitByte upper (n % base)) :=
      digitLetter_eq upper (Nat.lt_of_lt_of_le (Nat.mod_lt n (by omega)) hb')
    have hnonempty : 0 < (leastFirst base upper n).length := by
      rw [leastFirst]
      split <;> exact Nat.zero_lt_succ _
    have hword : length + 1 ≤ Word.largest := by
      unfold Fits at hfits
      unfold Word.largest
      omega
    have hplace : length + 1 < buffer.length := by omega
    have hset : ∀ c, buffer.set (length + 1) c =
        buffer.take (length + 1) ++ c :: buffer.drop (length + 1 + 1) := by
      intro c
      rw [List.set_eq_take_append_cons_drop, if_pos hplace]
    rw [writeDigits, rem_eq (by omega), ok_bind, hdigit, ok_bind, require_of hword,
      require_of hplace, div_eq (by omega), ok_bind]
    by_cases hn : base ≤ n
    · have hhigher : n / base ≠ 0 := Nat.ne_of_gt (Nat.div_pos hn (by omega))
      have hfirst : leastFirst base upper n =
          digitByte upper (n % base) :: leastFirst base upper (n / base) := by
        rw [leastFirst, dif_pos ⟨hb, hn⟩]
      rw [hfirst, List.length_cons] at hroom
      rw [if_neg (by simpa using hhigher), ih (n / base) (Nat.div_lt_self (by omega) (by omega))
        (by rw [Fits, List.length_set]; exact hfits) (by rw [List.length_set]; omega), hfirst]
      have htake : (buffer.set (length + 1) (digitByte upper (n % base))).take (length + 1 + 1) =
          buffer.take (length + 1) ++ [digitByte upper (n % base)] := by
        have hlength : (buffer.take (length + 1)).length = length + 1 :=
          List.length_take_of_le (by omega)
        rw [hset, List.take_append, hlength, List.take_of_length_le (by omega)]
        simp
      have hdrop : (buffer.set (length + 1) (digitByte upper (n % base))).drop
          (length + 1 + 1 + (leastFirst base upper (n / base)).length) =
            buffer.drop (length + 1 + 1 + (leastFirst base upper (n / base)).length) :=
        List.drop_set_of_lt (by omega)
      have hcount : length + 1 + (leastFirst base upper (n / base)).length =
          length + ((leastFirst base upper (n / base)).length + 1) := by omega
      have hend : length + 1 + 1 + (leastFirst base upper (n / base)).length =
          length + 1 + ((leastFirst base upper (n / base)).length + 1) := by omega
      rw [htake, hdrop, hcount, hend, List.length_cons, List.append_assoc, List.singleton_append,
        List.cons_append]
    · have hhigher : n / base = 0 := Nat.div_eq_of_lt (by omega)
      have hfirst : leastFirst base upper n = [digitByte upper n] := by
        rw [leastFirst, dif_neg (fun h => hn h.2)]
      rw [hhigher, if_pos (by rfl), Nat.mod_eq_of_lt (by omega), hset, hfirst]
      rfl

/-- A word has at most 64 digits in any base from 2 on. -/
theorem length_leastFirst_le {base : Nat} (hb : 2 ≤ base) (upper : Bool) (n : UInt64) :
    (leastFirst base upper n.toNat).length ≤ 64 := by
  have hpower : Nat.pow 2 64 ≤ Nat.pow base 64 := Nat.pow_le_pow_left hb 64
  have hword : n.toNat < Nat.pow 2 64 := n.toNat_lt
  have hle := length_digits_le hb upper (show 0 < 64 by omega) (Nat.lt_of_lt_of_le hword hpower)
  rwa [digits, List.length_reverse] at hle

/-- Writing a word into a buffer of 65 bytes meets no fault. -/
theorem writeScratch_eq {base : Nat} (hb : 2 ≤ base) (hb' : base ≤ 36) (upper : Bool) (n : UInt64)
    {buffer : Bytes} (hsize : buffer.length = scratchSize) :
    writeScratch buffer base upper n = .ok (Numeral.writeScratch buffer base upper n) := by
  have hsize' : buffer.length = 65 := hsize
  have hcount := length_leastFirst_le hb upper n
  cases buffer with
  | nil => cases hsize'
  | cons first rest =>
    rw [List.length_cons] at hsize'
    have hfits : Fits (0 :: rest) := by
      rw [Fits, List.length_cons]
      omega
    have hroom : 0 + (leastFirst base upper n.toNat).length < (0 :: rest).length := by
      rw [List.length_cons]
      omega
    have hstored : store (first :: rest) 0 0 = .ok (0 :: rest) := store_eq (Nat.zero_lt_succ _) 0
    have hbase : 2 ≤ base ∧ base ≤ 36 := ⟨hb, hb'⟩
    have hend : 0 + 1 + (leastFirst base upper n.toNat).length =
        (leastFirst base upper n.toNat).length + 1 := by omega
    rw [writeScratch, require_of hbase, hstored, ok_bind, writeDigits_eq hb hb' upper _ hfits hroom,
      hend, Nat.zero_add]
    rfl

/-- The digits of a word are found in the buffer that it was written into. -/
theorem forward_writeScratch {base : Nat} (hb : 2 ≤ base) (upper : Bool) (n : UInt64)
    (buffer : Bytes) :
    forward (Numeral.writeScratch buffer base upper n) = .ok (digits base upper n.toNat) := by
  have hcount := length_leastFirst_le hb upper n
  have hword : (leastFirst base upper n.toNat).length + 1 ≤ Word.largest := by
    unfold Word.largest
    omega
  have hwritten : ((leastFirst base upper n.toNat).length + 1) =
      (0 :: leastFirst base upper n.toNat).length := List.length_cons.symm
  unfold forward Numeral.writeScratch
  dsimp only
  rw [add_eq hword, ok_bind, slice_eq (by omega) (by simp), ok_bind, hwritten,
    List.take_left, List.drop_one, List.tail_cons]
  rfl

end FormatScan.Machine
