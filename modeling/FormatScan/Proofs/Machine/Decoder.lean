import FormatScan.Proofs.Machine.Operations
import FormatScan.Proofs.Numeral.Decoding

/-!
# Reading numbers by position

The decoder walks a text by position. Each of its loops stops at a byte that does not
belong to it, and behind the end of a text there is a zero, which belongs to none, so
no position ever leaves the text. The digits are added up under a cutoff that is
found by one division: a digit is multiplied in only where the sum stays within the
limit, which is a word.
-/

namespace FormatScan.Machine

open Numeral

/-- The value of a byte as a digit. -/
def digitValue? (c : UInt8) : Checked (Option Nat) :=
  if !Byte.isAscii c then .ok none
  else if Byte.isDigit c then do
    let value ← sub c.toNat 0x30
    return some value
  else if Byte.isAlpha c then do
    let letter ← sub c.toNat (if Byte.isUpper c then 0x41 else 0x61)
    let value ← addByte letter 10
    return some value
  else .ok none

/-- Digits and letters are bytes of seven bits. -/
theorem isAscii_of_le {c : UInt8} (h : c.toNat ≤ 0x7A) : Byte.isAscii c = true := by
  simp only [Byte.isAscii, UInt8.lt_iff_toNat_lt, decide_eq_true_eq]
  exact Nat.lt_of_le_of_lt h (by decide)

/-- A byte has its value as a digit. -/
theorem digitValue?_eq (c : UInt8) : digitValue? c = .ok (Byte.digitValue? c) := by
  unfold digitValue? Byte.digitValue?
  by_cases hd : Byte.isDigit c = true
  · have hrange := toNat_of_isDigit hd
    rw [isAscii_of_le (by omega), if_neg (by decide), if_pos hd, if_pos hd, sub_eq hrange.1]
    rfl
  rw [if_neg hd, if_neg hd]
  by_cases hu : Byte.isUpper c = true
  · have hrange : 0x41 ≤ c.toNat ∧ c.toNat ≤ 0x5A := by
      simpa [Byte.isUpper, UInt8.le_iff_toNat_le] using hu
    have halpha : Byte.isAlpha c = true := by rw [Byte.isAlpha, hu, Bool.true_or]
    rw [isAscii_of_le (by omega), if_neg (by decide), if_pos halpha, if_pos hu, if_pos hu,
      sub_eq hrange.1, ok_bind, addByte_eq (by omega)]
    rfl
  rw [if_neg hu, if_neg hu]
  by_cases hl : Byte.isLower c = true
  · have hrange : 0x61 ≤ c.toNat ∧ c.toNat ≤ 0x7A := by
      simpa [Byte.isLower, UInt8.le_iff_toNat_le] using hl
    have halpha : Byte.isAlpha c = true := by rw [Byte.isAlpha, hl, Bool.or_true]
    rw [isAscii_of_le (by omega), if_neg (by decide), if_pos halpha, if_pos hl, sub_eq hrange.1,
      ok_bind, addByte_eq (by omega)]
    rfl
  · have halpha : ¬Byte.isAlpha c = true := by simp [Byte.isAlpha, hu, hl]
    rw [if_neg halpha, if_neg hl]
    split <;> rfl

/-- Move on over blanks. -/
def skipBlanks (text : Bytes) (i : Nat) : Checked Nat :=
  if Byte.isSpace (byteAt text i) then reach text (i + 1) fun _ => skipBlanks text (i + 1)
  else .ok i
termination_by text.length - i

/-- Whether a minus sign is at a position, and the position behind the sign, if any. -/
def readSign (text : Bytes) (i : Nat) : Checked (Bool × Nat) :=
  if byteAt text i == 0x2D then reach text (i + 1) fun _ => .ok (true, i + 1)
  else if byteAt text i == 0x2B then reach text (i + 1) fun _ => .ok (false, i + 1)
  else .ok (false, i)

/-- The base in force for the digits, and the position they start at. -/
def readBase (text : Bytes) (base i : Nat) : Checked (Nat × Nat) :=
  let shown := if base == 0 then if byteAt text i == 0x30 then 8 else 10 else base
  if (base == 0 || base == 16) && byteAt text i == 0x30 then do
    let second ← add i 1
    if byteAt text second == 0x78 || byteAt text second == 0x58 then
      reach text (i + 2) fun _ => .ok (16, i + 2)
    else return (shown, i)
  else .ok (shown, i)

/-- Digits added up, and where they end. -/
structure Digits where
  /-- The sum of the digits. -/
  total : Total
  /-- Whether there was any digit. -/
  any : Bool
  /-- The position behind the digits. -/
  finish : Nat

/-- Add one digit, unless that would lead over the cutoff. -/
def addDigit (base cutoff lastDigit : Nat) (total : Total) (digit : Nat) : Checked Total :=
  if total.overflow || cutoff < total.value || (total.value == cutoff && lastDigit < digit) then
    .ok { total with overflow := true }
  else do
    let product ← mul total.value base
    let sum ← add product digit
    return ⟨sum, false⟩

/-- Add up the digits below a base. -/
def addDigits (text : Bytes) (base cutoff lastDigit i : Nat) (total : Total) (any : Bool) :
    Checked Digits := do
  match ← digitValue? (byteAt text i) with
  | none => return ⟨total, any, i⟩
  | some digit =>
    if base ≤ digit then return ⟨total, any, i⟩
    else
      let total ← addDigit base cutoff lastDigit total digit
      reach text (i + 1) fun _ => addDigits text base cutoff lastDigit (i + 1) total true
termination_by text.length - i

/-- Read the front of a text. -/
def accumulate (text : Bytes) (base : Nat) (limit : Bool → Nat) : Checked Reading :=
  if base == 1 || 36 < base then .ok .none
  else do
    let start ← skipBlanks text 0
    let (negative, start) ← readSign text start
    let (base, start) ← readBase text base start
    let cutoff ← div (limit negative) base
    let lastDigit ← rem (limit negative) base
    let digits ← addDigits text base cutoff lastDigit start ⟨0, false⟩ false
    if !digits.any then return .none
    else return ⟨digits.total, negative, digits.finish⟩

/-- The unsigned word of a reading, where a minus sign wraps. -/
def unsignedWord (reading : Reading) : UInt64 :=
  if reading.total.overflow then UInt64.ofNat Word.largest
  else if reading.negative then -UInt64.ofNat reading.total.value
  else UInt64.ofNat reading.total.value

/-- The signed word of a reading. -/
def signedWord (reading : Reading) : Int64 :=
  if reading.total.overflow then if reading.negative then Int64.minValue else Int64.maxValue
  else if reading.negative then -(UInt64.ofNat reading.total.value).toInt64
  else (UInt64.ofNat reading.total.value).toInt64

/-- Decode an unsigned word. -/
def decodeUnsigned (text : Bytes) (base : Nat) : Checked (Decoded UInt64) := do
  let reading ← accumulate text base (fun _ => Word.largest)
  return ⟨unsignedWord reading, reading.consumed⟩

/-- Decode a signed word. -/
def decodeSigned (text : Bytes) (base : Nat) : Checked (Decoded Int64) := do
  let reading ← accumulate text base fun negative =>
    if negative then Quad.halfCount else Quad.halfCount - 1
  return ⟨signedWord reading, reading.consumed⟩

section Reading

variable {text rest : Bytes} {i : Nat}

/-- Moving on over blanks ends where they do. -/
theorem exists_skipBlanks (hfits : Fits text) (h : At text i rest) :
    ∃ j, skipBlanks text i = .ok j ∧ At text j (rest.dropWhile Byte.isSpace) := by
  induction rest generalizing i with
  | nil =>
    refine ⟨i, ?_, h⟩
    rw [skipBlanks, h.byteAt_nil]
    rfl
  | cons c rest ih =>
    rw [skipBlanks, h.byteAt_eq]
    by_cases hc : Byte.isSpace c = true
    · obtain ⟨j, hskip, hat⟩ := ih h.next
      refine ⟨j, ?_, ?_⟩
      · rw [if_pos hc, h.next.reach_eq hfits, hskip]
      · rw [List.dropWhile_cons_of_pos hc]
        exact hat
    · refine ⟨i, if_neg hc, ?_⟩
      rw [List.dropWhile_cons_of_neg hc]
      exact h

/-- Reading a sign ends behind it. -/
theorem exists_readSign (hfits : Fits text) (h : At text i rest) :
    ∃ j, readSign text i = .ok ((Numeral.readSign rest).1, j) ∧
      At text j (Numeral.readSign rest).2 := by
  unfold readSign Numeral.readSign
  cases rest with
  | nil =>
    rw [h.byteAt_nil]
    exact ⟨i, rfl, h⟩
  | cons c rest =>
    rw [h.byteAt_eq, h.next.reach_eq hfits, h.next.reach_eq hfits]
    by_cases hm : c = 0x2D
    · subst hm
      exact ⟨i + 1, rfl, h.next⟩
    by_cases hp : c = 0x2B
    · subst hp
      exact ⟨i + 1, rfl, h.next⟩
    rw [if_neg (by simpa using hm), if_neg (by simpa using hp)]
    split
    · rename_i heq
      exact absurd (List.cons.inj heq).1 hm
    · rename_i heq
      exact absurd (List.cons.inj heq).1 hp
    · exact ⟨i, rfl, h⟩

/-- A text is marked when a zero and an `x` of either case lead it. -/
theorem hexMarked_cons (c : UInt8) (rest : Bytes) :
    hexMarked (c :: rest) =
      (c == 0x30 && (rest.head?.getD 0 == 0x78 || rest.head?.getD 0 == 0x58)) := by
  cases rest with
  | nil => simp [hexMarked]
  | cons d rest =>
    unfold hexMarked
    split <;> simp_all

/-- Reading the base ends where the digits start. -/
theorem exists_readBase (hfits : Fits text) (h : At text i rest) (base : Nat) :
    ∃ j, readBase text base i = .ok ((Numeral.readBase base rest).1, j) ∧
      At text j (Numeral.readBase base rest).2 := by
  have hhead : (rest.head? == some 0x30) = (byteAt text i == 0x30) := by
    cases rest with
    | nil => rw [h.byteAt_nil]; rfl
    | cons c rest => rw [h.byteAt_eq]; rfl
  have hmodel : Numeral.readBase base rest =
      if (base == 0 || base == 16) && hexMarked rest then (16, rest.drop 2)
      else (if base == 0 then if byteAt text i == 0x30 then 8 else 10 else base, rest) := by
    unfold Numeral.readBase
    rw [hhead]
    split
    · rfl
    · split <;> rfl
  rw [hmodel]
  unfold readBase
  dsimp only
  cases rest with
  | nil =>
    have hplain : hexMarked [] = false := rfl
    rw [hplain, Bool.and_false, if_neg Bool.false_ne_true, h.byteAt_nil]
    refine ⟨i, ?_, h⟩
    rw [if_neg (by simp)]
  | cons c rest =>
    have hsecond : byteAt text (i + 1) = rest.head?.getD 0 := by
      cases rest with
      | nil => exact h.next.byteAt_nil
      | cons d rest => exact h.next.byteAt_eq
    rw [hexMarked_cons, h.byteAt_eq, add_eq (h.next.le_largest hfits), ok_bind, hsecond]
    cases hfirst : ((base == 0 || base == 16) && c == 0x30) with
    | false =>
      rw [← Bool.and_assoc, hfirst, Bool.false_and]
      exact ⟨i, rfl, h⟩
    | true =>
      rw [← Bool.and_assoc, hfirst, Bool.true_and]
      cases hmark : (rest.head?.getD 0 == 0x78 || rest.head?.getD 0 == 0x58) with
      | false => exact ⟨i, rfl, h⟩
      | true =>
        cases rest with
        | nil => cases hmark
        | cons d rest =>
          refine ⟨i + 2, ?_, h.next.next⟩
          rw [h.next.next.reach_eq hfits]
          rfl

/-- The base in force is never zero. -/
theorem readBase_ne_zero (base : Nat) (rest : Bytes) : (Numeral.readBase base rest).1 ≠ 0 := by
  unfold Numeral.readBase
  split
  · exact Nat.succ_ne_zero 15
  · split
    · dsimp only
      split <;> exact Nat.succ_ne_zero _
    · rename_i hbase
      simpa using hbase

/-- Adding a digit under the cutoff of a limit is adding it under the limit. -/
theorem addDigit_eq {base limit digit : Nat} (hlimit : limit ≤ Word.largest) (hd : digit < base)
    (total : Total) :
    addDigit base (limit / base) (limit % base) total digit =
      .ok (Total.add limit base total digit) := by
  by_cases hroom : (total.overflow || limit / base < total.value ||
      (total.value == limit / base && limit % base < digit)) = true
  · unfold addDigit Total.add
    rw [if_pos hroom, if_pos hroom]
  · obtain ⟨value, overflow⟩ := total
    cases overflow with
    | true => exact absurd rfl hroom
    | false =>
      have hsum : Total.add limit base ⟨value, false⟩ digit = ⟨value * base + digit, false⟩ :=
        if_neg hroom
      have hadd : Total.add limit base ⟨value, false⟩ digit = _ := Total.add_eq hd value
      rw [hsum] at hadd
      have hin : value * base + digit ≤ limit := by
        split at hadd
        · assumption
        · exact absurd (congrArg Total.overflow hadd) Bool.false_ne_true
      have hproduct : mul value base = .ok (value * base) := mul_eq (by omega)
      have htotal : add (value * base) digit = .ok (value * base + digit) := add_eq (by omega)
      unfold addDigit
      rw [if_neg hroom, hsum, hproduct, ok_bind, htotal]
      rfl

/-- Adding up digits ends where they do, with their sum under the limit. -/
theorem exists_addDigits {base limit : Nat} (hfits : Fits text) (hlimit : limit ≤ Word.largest)
    (h : At text i rest) (total : Total) (any : Bool) :
    ∃ j, addDigits text base (limit / base) (limit % base) i total any =
        .ok ⟨(digitRun base rest).1.foldl (Total.add limit base) total,
          any || !(digitRun base rest).1.isEmpty, j⟩ ∧
      At text j (digitRun base rest).2 := by
  induction rest generalizing i total any with
  | nil =>
    refine ⟨i, ?_, h⟩
    rw [addDigits, h.byteAt_nil, digitRun]
    cases any <;> rfl
  | cons c rest ih =>
    rw [addDigits, h.byteAt_eq, digitValue?_eq, ok_bind, digitRun]
    cases Byte.digitValue? c with
    | none =>
      refine ⟨i, ?_, h⟩
      cases any <;> rfl
    | some digit =>
      dsimp only
      by_cases hd : digit < base
      · obtain ⟨j, hdigits, hat⟩ := ih h.next (Total.add limit base total digit) true
        refine ⟨j, ?_, ?_⟩
        · rw [if_neg (by omega), addDigit_eq hlimit hd, ok_bind, h.next.reach_eq hfits, hdigits,
            if_pos hd]
          cases any <;> rfl
        · rw [if_pos hd]
          exact hat
      · rw [if_pos (by omega), if_neg hd]
        refine ⟨i, ?_, h⟩
        cases any <;> rfl

end Reading

/-- Reading a text by position meets no fault, and reads what reading it from the
front does. -/
theorem accumulate_eq {text : Bytes} (hfits : Fits text) (base : Nat) {limit : Bool → Nat}
    (hlimit : ∀ negative, limit negative ≤ Word.largest) :
    accumulate text base limit = .ok (Numeral.read base limit text) := by
  unfold accumulate Numeral.read
  by_cases hbase : (base == 1 || 36 < base) = true
  · rw [if_pos hbase, if_pos hbase]
  · obtain ⟨first, hblanks, hfirst⟩ := exists_skipBlanks hfits (At.start text)
    obtain ⟨second, hsign, hsecond⟩ := exists_readSign hfits hfirst
    obtain ⟨third, hmark, hthird⟩ := exists_readBase hfits hsecond base
    rw [if_neg hbase, if_neg hbase, hblanks, ok_bind, hsign, ok_bind]
    dsimp only
    rw [hmark, ok_bind]
    dsimp only
    have hnonzero := readBase_ne_zero base (Numeral.readSign (text.dropWhile Byte.isSpace)).2
    obtain ⟨fourth, hdigits, hfourth⟩ := exists_addDigits hfits (hlimit _) hthird ⟨0, false⟩ false
    rw [div_eq hnonzero, ok_bind, rem_eq hnonzero, ok_bind, hdigits, ok_bind]
    dsimp only
    rw [Bool.false_or, Bool.not_not]
    split
    · rfl
    · rw [← hfourth.eq_sub]
      rfl

/-- A sum of digits stays within its limit. -/
theorem value_foldl_add_le {limit base : Nat} {digits : List Nat} (hd : ∀ d ∈ digits, d < base)
    {total : Total} (ht : total.value ≤ limit) :
    (digits.foldl (Total.add limit base) total).value ≤ limit := by
  induction digits generalizing total with
  | nil => exact ht
  | cons digit digits ih =>
    have hstep : (Total.add limit base total digit).value ≤ limit := by
      obtain ⟨value, overflow⟩ := total
      cases overflow with
      | true => exact ht
      | false =>
        rw [Total.add_eq (hd digit List.mem_cons_self)]
        split
        · assumption
        · exact ht
    exact ih (fun d h => hd d (List.mem_cons_of_mem digit h)) hstep

/-- A reading under limits that are words has a word for its value. -/
theorem value_read_le (base : Nat) {limit : Bool → Nat} (text : Bytes)
    (hlimit : ∀ negative, limit negative ≤ Word.largest) :
    (Numeral.read base limit text).total.value ≤ Word.largest := by
  unfold Numeral.read
  split
  · exact Nat.zero_le _
  · dsimp only
    split
    · exact Nat.zero_le _
    · refine Nat.le_trans (value_foldl_add_le ?_ (Nat.zero_le _)) (hlimit _)
      intro d hd
      rw [digitRun_eq] at hd
      obtain ⟨c, hc, rfl⟩ := List.mem_map.mp hd
      exact Byte.digitOf_lt (List.all_eq_true.mp List.all_takeWhile c hc)

/-- Decoding an unsigned word by position meets no fault. -/
theorem decodeUnsigned_eq {text : Bytes} (hfits : Fits text) (base : Nat) :
    decodeUnsigned text base = .ok (Numeral.decodeUnsigned text base) := by
  have hlargest : Word.count 64 - 1 = Word.largest := by decide
  have hlimit : ∀ _ : Bool, Word.largest ≤ Word.largest := fun _ => Nat.le_refl _
  have hvalue := value_read_le base text hlimit
  unfold decodeUnsigned Numeral.decodeUnsigned decodeWord
  rw [accumulate_eq hfits base hlimit, ok_bind, hlargest]
  generalize Numeral.read base (fun _ => Word.largest) text = reading at hvalue
  have hword : unsignedWord reading =
      UInt64.ofNat (if reading.total.overflow then Word.largest
        else if reading.negative then (Word.count 64 - reading.total.value) % Word.count 64
        else reading.total.value) := by
    unfold unsignedWord
    split
    · rfl
    · split
      · have hsize : Word.count 64 = UInt64.size := by decide
        have hlt : reading.total.value < UInt64.size := by
          unfold Word.largest at hvalue
          unfold UInt64.size
          omega
        rw [← UInt64.toNat_inj, UInt64.toNat_neg, UInt64.toNat_ofNat_of_lt' hlt, hsize,
          UInt64.toNat_ofNat_of_lt' (Nat.mod_lt _ (by decide))]
      · rfl
  rw [hword]
  rfl

/-- Decoding a signed word by position meets no fault. -/
theorem decodeSigned_eq {text : Bytes} (hfits : Fits text) (base : Nat) :
    decodeSigned text base = .ok (Numeral.decodeSigned text base) := by
  have hlimit : ∀ negative : Bool,
      (if negative then Quad.halfCount else Quad.halfCount - 1) ≤ Word.largest := by decide
  unfold decodeSigned Numeral.decodeSigned
  rw [accumulate_eq hfits base hlimit, ok_bind]
  generalize Numeral.read base _ text = reading
  have hword : signedWord reading =
      Int64.ofInt (if reading.total.overflow then
          if reading.negative then Quad.least else Quad.greatest
        else if reading.negative then -(reading.total.value : Int)
        else reading.total.value) := by
    unfold signedWord
    rw [UInt64.toInt64_ofNat']
    split
    · split <;> rfl
    · split
      · rw [Int64.ofInt_neg, Int64.ofInt_eq_ofNat]
      · rw [Int64.ofInt_eq_ofNat]
  rw [hword]
  rfl

end FormatScan.Machine
