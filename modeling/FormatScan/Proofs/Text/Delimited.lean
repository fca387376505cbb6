import FormatScan.Proofs.Json.Spelling
import FormatScan.Proofs.Text.Bytes
import FormatScan.Text.Padded
import FormatScan.Text.Quoted

/-!
# Where a written part ends

A line is put together of parts, and it can be taken apart again when every part shows
where it ends. A run of digits ends in front of any character that is no digit, and the
bytes between two quotes end at the first quote that no backslash escapes. So when two
texts start with such a part they start with the same one, and what stands behind it is
the same as well. Parts that stand in a row are told one after the other, up to a text that
none of them starts.
-/

namespace FormatScan.Text

/-- A text that is put into another stands there as it is. -/
theorem toString_text (text : String) : toString text = text := rfl

/-- A text does not start with a character of a class. -/
def EndsRun (p : Char → Bool) (rest : List Char) : Prop := ∀ c ∈ rest.head?, p c = false

theorem endsRun_cons {p : Char → Bool} {c : Char} (hc : p c = false) (rest : List Char) :
    EndsRun p (c :: rest) := by
  intro other hother
  cases hother
  exact hc

/-- A text in front of one that ends its class is all that the class takes. -/
theorem takeWhile_append_of_endsRun {p : Char → Bool} {front rest : List Char}
    (hfront : ∀ c ∈ front, p c = true) (hrest : EndsRun p rest) :
    (front ++ rest).takeWhile p = front := by
  rw [List.takeWhile_append_of_pos hfront]
  cases rest with
  | nil => rw [List.takeWhile_nil, List.append_nil]
  | cons c rest =>
    have hc : p c = false := hrest c rfl
    rw [List.takeWhile_cons_of_neg (by rw [hc]; exact Bool.false_ne_true), List.append_nil]

/-- Two runs of one class, each in front of a text that ends it, are told from these. -/
theorem run_append_inj {p : Char → Bool} {first second rest other : List Char}
    (hfirst : ∀ c ∈ first, p c = true) (hsecond : ∀ c ∈ second, p c = true)
    (hrest : EndsRun p rest) (hother : EndsRun p other)
    (h : first ++ rest = second ++ other) : first = second ∧ rest = other := by
  have hruns : first = second := by
    rw [← takeWhile_append_of_endsRun hfirst hrest, h, takeWhile_append_of_endsRun hsecond hother]
  rw [hruns] at h
  exact ⟨hruns, List.append_cancel_left h⟩

/-! ## Parts in a row -/

/-- The parts of a class are told from the texts that may follow them, and every part may
follow another. -/
structure Delimited {α : Type} (text : α → List Char) (fine : α → Prop)
    (Follows : List Char → Prop) : Prop where
  /-- What starts with a part may follow one. -/
  follows_part : ∀ part, fine part → ∀ rest, Follows (text part ++ rest)
  /-- A part is told from what follows it. -/
  append_inj : ∀ {first second : α} {rest other : List Char}, fine first → fine second →
    Follows rest → Follows other → text first ++ rest = text second ++ other →
    first = second ∧ rest = other

/-- A text may follow the parts of a class, and none of them starts it. -/
structure EndsRow {α : Type} (text : α → List Char) (fine : α → Prop)
    (Follows : List Char → Prop) (stop : List Char) : Prop where
  /-- It may follow a part. -/
  follows : Follows stop
  /-- It starts with none. -/
  append_ne : ∀ part, fine part → ∀ rest, text part ++ rest ≠ stop

section Row

variable {α : Type} {text : α → List Char} {fine : α → Prop} {Follows : List Char → Prop}
variable {stop stop' : List Char}

/-- What follows a part in a row is more of it or its end. -/
theorem Delimited.follows_row (h : Delimited text fine Follows)
    (hstop : EndsRow text fine Follows stop) {parts : List α}
    (hparts : ∀ part ∈ parts, fine part) : Follows (parts.flatMap text ++ stop) := by
  cases parts with
  | nil => exact hstop.follows
  | cons part parts =>
    rw [List.flatMap_cons, List.append_assoc]
    exact h.follows_part part (hparts part List.mem_cons_self) _

/-- Parts in a row are told from the text that ends it. -/
theorem Delimited.row_append_inj (h : Delimited text fine Follows)
    (hstop : EndsRow text fine Follows stop) (hstop' : EndsRow text fine Follows stop')
    {first second : List α} (hfirst : ∀ part ∈ first, fine part)
    (hsecond : ∀ part ∈ second, fine part)
    (hrows : first.flatMap text ++ stop = second.flatMap text ++ stop') :
    first = second ∧ stop = stop' := by
  -- if one row ended before the other, a part of the longer one would start its end
  induction first generalizing second with
  | nil =>
    cases second with
    | nil => exact ⟨rfl, hrows⟩
    | cons part second =>
      rw [List.flatMap_cons, List.append_assoc] at hrows
      exact absurd hrows.symm (hstop.append_ne part (hsecond part List.mem_cons_self) _)
  | cons part first ih =>
    obtain ⟨hpart, htail⟩ := List.forall_mem_cons.mp hfirst
    rw [List.flatMap_cons, List.append_assoc] at hrows
    cases second with
    | nil => exact absurd hrows (hstop'.append_ne part hpart _)
    | cons part' second =>
      obtain ⟨hpart', htail'⟩ := List.forall_mem_cons.mp hsecond
      rw [List.flatMap_cons, List.append_assoc] at hrows
      obtain ⟨rfl, hrests⟩ := h.append_inj hpart hpart' (h.follows_row hstop htail)
        (h.follows_row hstop' htail') hrows
      obtain ⟨rfl, hstops⟩ := ih htail htail' hrests
      exact ⟨rfl, hstops⟩

end Row

/-! ## Numbers -/

/-- A number is told by its digits. -/
theorem toDigits_inj {m n : Nat} (h : Nat.toDigits 10 m = Nat.toDigits 10 n) : m = n :=
  calc
    m = Nat.ofDigitChars 10 (Nat.toDigits 10 m) 0 := Nat.ofDigitChars_ten_toDigits.symm
    _ = Nat.ofDigitChars 10 (Nat.toDigits 10 n) 0 := by rw [h]
    _ = n := Nat.ofDigitChars_ten_toDigits

/-- The digits of a number are told from what follows them, unless that starts with a
digit. -/
theorem toDigits_append_inj {m n : Nat} {rest other : List Char}
    (hrest : EndsRun Char.isDigit rest) (hother : EndsRun Char.isDigit other)
    (h : Nat.toDigits 10 m ++ rest = Nat.toDigits 10 n ++ other) : m = n ∧ rest = other := by
  obtain ⟨hdigits, hrests⟩ :=
    run_append_inj (Json.isDigit_toDigits m) (Json.isDigit_toDigits n) hrest hother h
  exact ⟨toDigits_inj hdigits, hrests⟩

/-- So is a written number. -/
theorem number_append_inj {m n : Nat} {rest other : List Char}
    (hrest : EndsRun Char.isDigit rest) (hother : EndsRun Char.isDigit other)
    (h : (toString m).toList ++ rest = (toString n).toList ++ other) : m = n ∧ rest = other := by
  rw [Nat.toString_eq_ofList_toDigits, Nat.toString_eq_ofList_toDigits, String.toList_ofList,
    String.toList_ofList] at h
  exact toDigits_append_inj hrest hother h

/-- A padded number is a run of digits that spells it. -/
theorem padded_spells (width n : Nat) :
    (∀ c ∈ (padded width n).toList, c.isDigit = true) ∧ (padded width n).toList ≠ [] ∧
      Nat.ofDigitChars 10 (padded width n).toList 0 = n := by
  rw [padded, String.toList_append, String.toList_ofList, Nat.toString_eq_ofList_toDigits,
    String.toList_ofList]
  refine ⟨fun c hc => ?_, ?_, ?_⟩
  · rcases List.mem_append.mp hc with hzero | hdigit
    · rw [List.eq_of_mem_replicate hzero]
      rfl
    · exact Json.isDigit_toDigits n c hdigit
  · exact List.append_ne_nil_of_right_ne_nil _ Nat.toDigits_ne_nil
  · rw [Nat.ofDigitChars_append, Nat.ofDigitChars_replicate_zero, Nat.mul_zero]
    exact Nat.ofDigitChars_ten_toDigits

/-- A signed number is written in digits, with a minus sign in front when it is negative. -/
theorem toList_integer (i : Int) :
    (toString i).toList =
      if 0 ≤ i then Nat.toDigits 10 i.toNat else '-' :: Nat.toDigits 10 (-i).toNat := by
  rw [Int.toString_eq_repr, Int.repr_eq_if]
  split
  · rw [Nat.repr_eq_ofList_toDigits, String.toList_ofList]
  · rw [Nat.repr_eq_ofList_toDigits, String.toList_append, String.toList_ofList,
      String.toList_ofList]
    rfl

/-- Digits do not start with a minus sign. -/
theorem toDigits_append_ne_minus (n : Nat) (rest other : List Char) :
    Nat.toDigits 10 n ++ rest ≠ '-' :: other := by
  obtain ⟨c, cs, hcs⟩ := List.exists_cons_of_ne_nil (Nat.toDigits_ne_nil (n := n) (b := 10))
  have hc : c.isDigit = true := Json.isDigit_toDigits n c (hcs ▸ List.mem_cons_self)
  rw [hcs, List.cons_append]
  intro h
  rw [(List.cons.inj h).1] at hc
  exact absurd hc (by decide)

/-- A signed number is told from what follows it, unless that starts with a digit. -/
theorem integer_append_inj {i j : Int} {rest other : List Char}
    (hrest : EndsRun Char.isDigit rest) (hother : EndsRun Char.isDigit other)
    (h : (toString i).toList ++ rest = (toString j).toList ++ other) : i = j ∧ rest = other := by
  rw [toList_integer, toList_integer] at h
  by_cases hi : 0 ≤ i <;> by_cases hj : 0 ≤ j
  · rw [if_pos hi, if_pos hj] at h
    obtain ⟨hnumbers, hrests⟩ := toDigits_append_inj hrest hother h
    exact ⟨by omega, hrests⟩
  · rw [if_pos hi, if_neg hj] at h
    exact absurd h (toDigits_append_ne_minus _ _ _)
  · rw [if_neg hi, if_pos hj] at h
    exact absurd h.symm (toDigits_append_ne_minus _ _ _)
  · rw [if_neg hi, if_neg hj] at h
    obtain ⟨hnumbers, hrests⟩ := toDigits_append_inj hrest hother (List.cons.inj h).2
    exact ⟨by omega, hrests⟩

/-- Different numbers are written differently. -/
theorem number_inj {m n : Nat} (h : toString m = toString n) : m = n := by
  rw [Nat.toString_eq_ofList_toDigits, Nat.toString_eq_ofList_toDigits, String.ofList_inj] at h
  exact toDigits_inj h

/-- So are different signed numbers. -/
theorem integer_inj {i j : Int} (h : toString i = toString j) : i = j := by
  have hends : EndsRun Char.isDigit [] := fun _ hc => nomatch hc
  have hlists := congrArg (fun text => text.toList ++ []) h
  exact (integer_append_inj hends hends hlists).1

/-- The digits of base 16. -/
def isHexDigit (c : Char) : Bool := (Json.hexValue? c).isSome

/-- The number that digits of base 16 spell. -/
def hexNumber (digits : List Char) : Nat :=
  digits.foldl (fun value c => value * 16 + (Json.hexValue? c).getD 0) 0

/-- A number in base 16 is written in digits that spell it. -/
theorem hexText_spells (n : Nat) :
    (∀ c ∈ hexText n, isHexDigit c = true) ∧ hexNumber (hexText n) = n := by
  have hdigit : ∀ d < 16, isHexDigit (hexDigit d) = true := fun d hd => by
    rw [isHexDigit, Json.hexValue?_hexDigit hd, Option.isSome_some]
  fun_induction hexText n with
  | case1 n hn =>
    refine ⟨List.forall_mem_singleton.mpr (hdigit n hn), ?_⟩
    simp [hexNumber, Json.hexValue?_hexDigit hn]
  | case2 n hn ih =>
    have hlast : n % 16 < 16 := Nat.mod_lt n (by decide)
    refine ⟨List.forall_mem_append.mpr ⟨ih.1, List.forall_mem_singleton.mpr (hdigit _ hlast)⟩, ?_⟩
    have hvalue := ih.2
    unfold hexNumber at hvalue ⊢
    rw [List.foldl_append, hvalue, List.foldl_cons, List.foldl_nil, Json.hexValue?_hexDigit hlast,
      Option.getD_some]
    omega

/-- A number is told by its digits in base 16. -/
theorem hexText_inj {m n : Nat} (h : hexText m = hexText n) : m = n := by
  rw [← (hexText_spells m).2, h, (hexText_spells n).2]

/-! ## Escaped bytes -/

/-- The byte that a letter behind a backslash stands for. -/
def letterByte? (letter : Char) : Option UInt8 :=
  match letter with
  | 't' => some 0x09
  | 'r' => some 0x0D
  | 'n' => some 0x0A
  | '\'' => some 0x27
  | '"' => some 0x22
  | '\\' => some 0x5C
  | _ => none

/-- Read one byte from the front of an escaped text. -/
def readByte? : List Char → Option (UInt8 × List Char)
  | '\\' :: 'x' :: high :: low :: rest => do
    return (UInt8.ofNat ((← Json.hexValue? high) * 16 + (← Json.hexValue? low)), rest)
  | '\\' :: letter :: rest => (letterByte? letter).map fun c => (c, rest)
  | c :: rest => some (UInt8.ofNat c.toNat, rest)
  | [] => none

/-- An escaped byte is read back, whatever follows. -/
theorem readByte?_escapeByte (c : UInt8) (rest : List Char) :
    readByte? (escapeByte c ++ rest) = some (c, rest) := by
  have hlt := c.toNat_lt
  unfold escapeByte
  split
  case isTrue h => rw [eq_of_beq h]; rfl
  split
  case isTrue h => rw [eq_of_beq h]; rfl
  split
  case isTrue h => rw [eq_of_beq h]; rfl
  split
  case isTrue h => rw [eq_of_beq h]; rfl
  split
  case isTrue h => rw [eq_of_beq h]; rfl
  split
  case isTrue h => rw [eq_of_beq h]; rfl
  rename_i hslash
  split
  -- a printable byte stands for itself, and is no backslash
  case isTrue hplain =>
    have hchar := Byte.toNat_char c
    have hne : Byte.char c ≠ '\\' := by
      intro heq
      have hcode : c.toNat = 0x5C := hchar.symm.trans (congrArg Char.toNat heq)
      exact hslash (beq_iff_eq.mpr (UInt8.toNat_inj.mp hcode))
    rw [List.singleton_append, readByte?.eq_3]
    · rw [hchar, UInt8.ofNat_toNat]
    · intro _ _ _ heq
      exact absurd heq hne
    · intro _ _ heq
      exact absurd heq hne
  case isFalse =>
    have hhigh : c.toNat / 16 < 16 := by omega
    have hlow : c.toNat % 16 < 16 := by omega
    have hvalue : c.toNat / 16 * 16 + c.toNat % 16 = c.toNat := by omega
    simp only [hexPair, List.cons_append, List.nil_append, readByte?,
      Json.hexValue?_hexDigit hhigh, Json.hexValue?_hexDigit hlow]
    change some (UInt8.ofNat (c.toNat / 16 * 16 + c.toNat % 16), rest) = some (c, rest)
    rw [hvalue, UInt8.ofNat_toNat]

/-- A quote is escaped, so none stands at the front of an escaped byte. -/
theorem head?_escapeByte (c : UInt8) : (escapeByte c).head? ≠ some '"' := by
  have hall : ∀ n < 256, (escapeByte (UInt8.ofNat n)).head? ≠ some '"' := by decide +kernel
  have hbyte := hall c.toNat c.toNat_lt
  rwa [UInt8.ofNat_toNat] at hbyte

/-- Escaped bytes are told from whatever follows them. -/
theorem delimited_escapeByte :
    Delimited escapeByte (fun _ => True) (fun _ => True) where
  follows_part _ _ _ := trivial
  append_inj _ _ _ _ h := by
    have hread := congrArg readByte? h
    rw [readByte?_escapeByte, readByte?_escapeByte] at hread
    exact Prod.mk.inj (Option.some.inj hread)

/-- A quote ends them. -/
theorem endsRow_quote (rest : List Char) :
    EndsRow escapeByte (fun _ => True) (fun _ => True) ('"' :: rest) where
  follows := trivial
  append_ne c _ other h := by
    have hne : escapeByte c ≠ [] := by
      intro hnil
      have hread := readByte?_escapeByte c []
      rw [hnil] at hread
      cases hread
    obtain ⟨head, tail, hcons⟩ := List.exists_cons_of_ne_nil hne
    have hhead := head?_escapeByte c
    rw [hcons, List.cons_append] at h
    rw [hcons, (List.cons.inj h).1] at hhead
    exact hhead rfl

/-- Escaped bytes are told from what follows them when a quote stands between. -/
theorem escapeBytes_append_inj {first second : Bytes} {rest other : List Char}
    (h : escapeBytes first ++ '"' :: rest = escapeBytes second ++ '"' :: other) :
    first = second ∧ rest = other := by
  obtain ⟨htexts, hrests⟩ := delimited_escapeByte.row_append_inj (endsRow_quote rest)
    (endsRow_quote other) (fun _ _ => trivial) (fun _ _ => trivial) h
  exact ⟨htexts, (List.cons.inj hrests).2⟩

end FormatScan.Text
