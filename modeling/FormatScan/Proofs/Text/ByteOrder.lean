import FormatScan.Proofs.Text.Bytes
import Mathlib.Data.String.Basic
import Mathlib.Tactic.SplitIfs

/-!
# The order of texts

Texts are ordered by their characters, and their bytes come in the same order: the first byte
of a character grows with the character, and the bytes behind it are the low digits of its
code point in base 64, the highest one first. So names in order are in the order of their
bytes.
-/

namespace FormatScan

/-! ## The bytes of a character -/

/-- How many bytes of a character stand behind its first one. -/
def trailingCount (code : Nat) : Nat :=
  if code ≤ 0x7f then 0 else if code ≤ 0x7ff then 1 else if code ≤ 0xffff then 2 else 3

/-- The first byte of a character, which says how many there are. -/
def leadingByte (code : Nat) : Nat :=
  if code ≤ 0x7f then code
  else if code ≤ 0x7ff then code / 64 + 0xc0
  else if code ≤ 0xffff then code / 64 ^ 2 + 0xe0
  else code / 64 ^ 3 + 0xf0

/-- Low digits of a code point in base 64, as the bytes behind the first one. -/
def trailingBytes (code : Nat) : Nat → Bytes
  | 0 => []
  | count + 1 => UInt8.ofNat (code / 64 ^ count % 64 + 0x80) :: trailingBytes code count

theorem toNat_lt_limit (c : Char) : c.toNat < 0x110000 := by
  have hvalid : c.toNat < 0xd800 ∨ 0xdfff < c.toNat ∧ c.toNat < 0x110000 := c.valid
  omega

theorem utf8EncodeChar_eq (c : Char) :
    String.utf8EncodeChar c =
      UInt8.ofNat (leadingByte c.toNat) :: trailingBytes c.toNat (trailingCount c.toNat) := by
  have hlt := toNat_lt_limit c
  have hcode : c.val.toNat = c.toNat := rfl
  unfold String.utf8EncodeChar leadingByte trailingCount
  dsimp only
  rw [hcode]
  split_ifs
  · rfl
  · rw [Nat.mod_eq_of_lt (by omega)]
    simp [trailingBytes]
  · rw [Nat.mod_eq_of_lt (by omega)]
    simp [trailingBytes]
  · rw [Nat.mod_eq_of_lt (by omega)]
    simp [trailingBytes]

theorem ofNat_lt_ofNat_iff {m n : Nat} (hm : m < 256) (hn : n < 256) :
    UInt8.ofNat m < UInt8.ofNat n ↔ m < n := by
  rw [UInt8.lt_iff_toNat_lt, UInt8.toNat_ofNat', UInt8.toNat_ofNat',
    Nat.mod_eq_of_lt hm, Nat.mod_eq_of_lt hn]

/-- Digits are compared from the highest one on. -/
theorem trailingBytes_append_lt {first second : Nat} {count : Nat}
    (h : first % 64 ^ count < second % 64 ^ count) (rest other : Bytes) :
    trailingBytes first count ++ rest < trailingBytes second count ++ other := by
  induction count with
  | zero => omega
  | succ count ih =>
    have hfirst : first / 64 ^ count % 64 < 64 := Nat.mod_lt _ (by decide)
    have hsecond : second / 64 ^ count % 64 < 64 := Nat.mod_lt _ (by decide)
    have hlow : second % 64 ^ count < 64 ^ count := Nat.mod_lt _ (Nat.pow_pos (by decide))
    rw [Nat.mod_pow_succ, Nat.mod_pow_succ] at h
    rw [trailingBytes, trailingBytes, List.cons_append, List.cons_append, List.cons_lt_cons_iff]
    rcases Nat.lt_trichotomy (first / 64 ^ count % 64) (second / 64 ^ count % 64) with
      hless | hsame | hmore
    · exact .inl ((ofNat_lt_ofNat_iff (by omega) (by omega)).mpr (by omega))
    · rw [hsame] at h ⊢
      exact .inr ⟨rfl, ih (Nat.lt_of_add_lt_add_right h)⟩
    · have hmul := Nat.mul_le_mul_left (64 ^ count) (Nat.succ_le_of_lt hmore)
      rw [Nat.mul_succ] at hmul
      omega

/-- A smaller character has a smaller first byte, or as many bytes with smaller digits. -/
theorem leadingByte_lt_or {first second : Nat} (h : first < second) (hlimit : second < 0x110000) :
    leadingByte first < leadingByte second ∨
      leadingByte first = leadingByte second ∧ trailingCount first = trailingCount second ∧
        first % 64 ^ trailingCount first < second % 64 ^ trailingCount second := by
  unfold leadingByte trailingCount
  split_ifs <;> omega

theorem leadingByte_lt {code : Nat} (h : code < 0x110000) : leadingByte code < 256 := by
  unfold leadingByte
  split_ifs <;> omega

/-- A smaller character has smaller bytes, whatever stands behind them. -/
theorem utf8EncodeChar_append_lt {c d : Char} (h : c < d) (rest other : Bytes) :
    String.utf8EncodeChar c ++ rest < String.utf8EncodeChar d ++ other := by
  have hc := leadingByte_lt (toNat_lt_limit c)
  have hd := leadingByte_lt (toNat_lt_limit d)
  rw [utf8EncodeChar_eq, utf8EncodeChar_eq, List.cons_append, List.cons_append,
    List.cons_lt_cons_iff, ofNat_lt_ofNat_iff hc hd]
  obtain hless | ⟨hsame, hcount, hlow⟩ :=
    leadingByte_lt_or (show c.toNat < d.toNat from h) (toNat_lt_limit d)
  · exact .inl hless
  · refine .inr ⟨congrArg UInt8.ofNat hsame, ?_⟩
    rw [hcount] at hlow ⊢
    exact trailingBytes_append_lt hlow rest other

/-! ## Texts -/

theorem bytesOf_lt {first second : String} (h : first < second) :
    bytesOf first < bytesOf second := by
  have hlists : ∀ first second : List Char, first < second →
      first.flatMap String.utf8EncodeChar < second.flatMap String.utf8EncodeChar := by
    intro first second h
    induction h with
    | @nil d second =>
      rw [List.flatMap_cons, utf8EncodeChar_eq]
      exact List.nil_lt_cons _ _
    | @cons c first second _ ih => exact List.append_left_lt ih
    | rel h => exact utf8EncodeChar_append_lt h _ _
  have hlist := hlists _ _ (String.lt_iff_toList_lt.mp h)
  rwa [← bytesOf_ofList, ← bytesOf_ofList, String.ofList_toList, String.ofList_toList] at hlist

/-- Texts are in the order of their bytes. -/
theorem bytesOf_lt_iff {first second : String} :
    bytesOf first < bytesOf second ↔ first < second := by
  refine ⟨fun h => ?_, bytesOf_lt⟩
  rcases lt_trichotomy first second with hless | rfl | hmore
  · exact hless
  · exact absurd h (List.lt_irrefl _)
  · exact absurd h (List.lt_asymm (bytesOf_lt hmore))

end FormatScan
