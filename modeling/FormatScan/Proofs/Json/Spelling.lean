import FormatScan.Json.Printer
import FormatScan.Json.Token

/-!
# Written numbers and strings

An integer is written in digits, with a minus sign in front when it is negative.
Whatever stands behind it, as long as that does not go on as a number, the token
read there is that integer again. A string is written with escapes, each of which
is read as one code unit, and the code units give the characters back: the ones
that are escaped by their code are control characters, so no surrogate is among them.
-/

namespace FormatScan.Json

/-- The characters that a number may go on with. -/
def goesOn (c : Char) : Bool := c.isDigit || c == '.' || c == 'e' || c == 'E'

/-- A text that does not go on with a number in front of it. -/
def EndsNumber (rest : List Char) : Prop := ∀ c ∈ rest.head?, goesOn c = false

theorem endsNumber_nil : EndsNumber [] := by
  intro c hc
  cases hc

theorem endsNumber_cons {c : Char} (hc : goesOn c = false) (rest : List Char) :
    EndsNumber (c :: rest) := by
  intro other ho
  cases ho
  exact hc

theorem EndsNumber.of_cons {c : Char} {rest : List Char} (h : EndsNumber (c :: rest)) :
    c.isDigit = false ∧ c ≠ '.' ∧ c ≠ 'e' ∧ c ≠ 'E' := by
  simpa [goesOn, and_assoc] using h c rfl

/-- Digits are read up to a text that does not go on with them. -/
theorem readDigits_append {digits rest : List Char} (hd : ∀ c ∈ digits, c.isDigit = true)
    (hr : EndsNumber rest) :
    readDigits (digits ++ rest) = (digits.map fun c => c.toNat - '0'.toNat, rest) := by
  induction digits with
  | nil =>
    cases rest with
    | nil => rfl
    | cons c rest =>
      have hc : c.isDigit = false := hr.of_cons.1
      simp [readDigits, hc]
  | cons c digits ih =>
    have hc : c.isDigit = true := hd c List.mem_cons_self
    have hi := ih fun d hm => hd d (List.mem_cons_of_mem c hm)
    rw [List.cons_append, readDigits, if_pos hc, hi]
    rfl

/-- There is no fraction in a text that does not go on as a number. -/
theorem readFraction_of_ends {rest : List Char} (hr : EndsNumber rest) :
    readFraction rest = some ([], rest) := by
  unfold readFraction
  split
  · rename_i rest
    exact absurd rfl hr.of_cons.2.1
  · rfl

/-- There is no exponent in a text that does not go on as a number. -/
theorem readExponent_of_ends {rest : List Char} (hr : EndsNumber rest) :
    readExponent rest = some (none, rest) := by
  cases rest with
  | nil => rfl
  | cons c rest =>
    obtain ⟨-, -, he, hE⟩ := hr.of_cons
    simp [readExponent, he, hE]

/-- The values of the digits that a number is written in. -/
def digitValues (n : Nat) : List Nat := (Nat.toDigits 10 n).map fun c => c.toNat - '0'.toNat

/-- The digits of a number are digits. -/
theorem isDigit_toDigits (n : Nat) : ∀ c ∈ Nat.toDigits 10 n, c.isDigit = true :=
  fun _ hc => Nat.isDigit_of_mem_toDigits (by omega) (by omega) hc

/-- The digits of a number spell it. -/
theorem natOfDigits_digitValues (n : Nat) : natOfDigits (digitValues n) = n := by
  have hn := Nat.ofDigitChars_ten_toDigits (n := n)
  rw [Nat.ofDigitChars] at hn
  rw [natOfDigits, digitValues, List.foldl_map]
  simpa [Nat.mul_comm] using hn

/-- The digits of a positive number do not start with a zero. -/
theorem head?_digitValues {n : Nat} (hn : 0 < n) : (digitValues n).head? ≠ some 0 := by
  induction n using Nat.strongRecOn with
  | _ n ih =>
    unfold digitValues
    rw [Nat.toDigits_eq_if (by omega)]
    split
    · rename_i hlt
      have hvalue : n.digitChar.toNat - '0'.toNat = n := Nat.toNat_digitChar_sub_48_of_lt_ten hlt
      rw [List.map_singleton, hvalue]
      intro hzero
      have : n = 0 := Option.some.inj hzero
      omega
    · have hi := ih (n / 10) (by omega) (by omega)
      obtain ⟨c, cs, hcs⟩ :=
        List.exists_cons_of_ne_nil (Nat.toDigits_ne_nil (n := n / 10) (b := 10))
      rw [digitValues, hcs] at hi
      rw [hcs]
      exact hi

/-- The digits of a number are taken as one, whatever sign was in front of them. -/
theorem readUnsigned_toDigits (negative : Bool) (n : Nat) {rest : List Char}
    (hr : EndsNumber rest) :
    readUnsigned negative (Nat.toDigits 10 n ++ rest) =
      some (⟨negative, digitValues n, [], none⟩, rest) := by
  have hplain : ((digitValues n).isEmpty ||
      ((digitValues n).head? == some 0 && (digitValues n).length != 1)) = false := by
    cases Nat.eq_zero_or_pos n with
    | inl hz =>
      subst hz
      rfl
    | inr hpos =>
      have hhead : ((digitValues n).head? == some 0) = false := by
        simpa using head?_digitValues hpos
      have hne : (digitValues n).isEmpty = false := by
        simp [digitValues]
      rw [hhead, hne]
      rfl
  unfold readUnsigned
  dsimp only
  rw [readDigits_append (isDigit_toDigits n) hr, ← digitValues, hplain, if_neg Bool.false_ne_true,
    readFraction_of_ends hr]
  dsimp only
  rw [readExponent_of_ends hr]

/-- The value of an integer's spelling is that integer. -/
theorem value?_digitValues (i : JsonInteger) :
    (NumberText.mk (decide (i.value < 0)) (digitValues i.value.natAbs) [] none).value? =
      some (.integer i) := by
  have hvalue : (if decide (i.value < 0) = true then -(i.value.natAbs : Int)
      else (i.value.natAbs : Int)) = i.value := by
    split
    · rename_i h
      have := of_decide_eq_true h
      omega
    · rename_i h
      have : ¬i.value < 0 := fun hlt => h (decide_eq_true hlt)
      omega
  have hzero : (decide (i.value < 0) && i.value.natAbs == 0) = false := by
    cases hneg : decide (i.value < 0) with
    | false => rfl
    | true =>
      have := of_decide_eq_true hneg
      simp
      omega
  have hrange : JsonInteger.ofInt? i.value = some i := dif_pos ⟨i.lower, i.upper⟩
  unfold NumberText.value?
  dsimp only
  rw [natOfDigits_digitValues, hvalue, hzero, hrange]
  rfl

/-- A token that starts with a digit is a number. -/
theorem readToken_digit {c : Char} (hc : c.isDigit = true) (rest : List Char) :
    readToken (c :: rest) =
      (readUnsigned false (c :: rest)).map fun (n, after) => (.number n.value?, after) := by
  have hmark : punctuation? c = none := by
    unfold punctuation?
    split
    all_goals first | exact absurd hc (by decide) | rfl
  unfold readToken
  split
  case h_1 heq => cases heq
  all_goals
    rename_i heq
    cases heq
    first | exact absurd hc (by decide) | rw [hmark]

/-- An integer is read back from in front of any text that does not go on with it. -/
theorem readToken_integer (i : JsonInteger) {rest : List Char} (hr : EndsNumber rest) :
    readToken ((toString i.value).toList ++ rest) =
      some (.number (some (.integer i)), rest) := by
  have hvalue := value?_digitValues i
  rw [Int.toString_eq_repr, Int.repr_eq_if]
  by_cases hi : i.value < 0
  · have habs : (-i.value).toNat = i.value.natAbs := by omega
    rw [decide_eq_true hi] at hvalue
    rw [if_neg (by omega), habs, Nat.repr_eq_ofList_toDigits, String.toList_append,
      String.toList_ofList, String.toList_ofList, List.append_assoc]
    change (readUnsigned true (Nat.toDigits 10 i.value.natAbs ++ rest)).map _ = _
    rw [readUnsigned_toDigits true _ hr]
    exact congrArg (fun value => some (Token.number value, rest)) hvalue
  · have habs : i.value.toNat = i.value.natAbs := by omega
    rw [decide_eq_false hi] at hvalue
    rw [if_pos (by omega), habs, Nat.repr_eq_ofList_toDigits, String.toList_ofList]
    have hread := readUnsigned_toDigits false i.value.natAbs hr
    obtain ⟨c, cs, hcs⟩ :=
      List.exists_cons_of_ne_nil (Nat.toDigits_ne_nil (n := i.value.natAbs) (b := 10))
    have hc : c.isDigit = true := isDigit_toDigits i.value.natAbs c (hcs ▸ List.mem_cons_self)
    rw [hcs, List.cons_append] at hread ⊢
    rw [readToken_digit hc, hread]
    exact congrArg (fun value => some (Token.number value, rest)) hvalue

/-- The digit of a value below 16 has that value. -/
theorem hexValue?_hexDigit {n : Nat} (hn : n < 16) : hexValue? (Text.hexDigit n) = some n := by
  revert n
  decide

/-- A character that is neither escaped nor a quote is read as it stands. -/
theorem readUnits_plain {c : Char} (hq : c ≠ '"') (hb : c ≠ '\\') (hc : ¬c.toNat < 0x20)
    (rest : List Char) :
    readUnits (c :: rest) =
      (readUnits rest).map fun (units, after) => (.plain c :: units, after) := by
  have hplain : ¬(decide (c.toNat < 0x20) || c == '\\') = true := by simp [hc, hb]
  rw [readUnits.eq_def]
  split
  case h_1 heq => cases heq
  case h_2 heq =>
    cases heq
    exact absurd rfl hq
  case h_3 heq =>
    cases heq
    exact absurd rfl hb
  case h_4 heq =>
    cases heq
    exact absurd rfl hb
  case h_5 heq =>
    cases heq
    rw [if_neg hplain]
    cases readUnits rest <;> rfl

/-- A backslash and a letter are read as the character that they stand for. -/
theorem readUnits_letter {letter c : Char} (hu : letter ≠ 'u')
    (hc : simpleEscape? letter = some c) (rest : List Char) :
    readUnits ('\\' :: letter :: rest) =
      (readUnits rest).map fun (units, after) => (.plain c :: units, after) := by
  rw [readUnits.eq_def]
  split
  case h_1 heq => cases heq
  case h_2 heq => cases heq
  case h_3 heq =>
    cases heq
    exact absurd rfl hu
  case h_4 heq =>
    cases heq
    rw [hc]
    cases readUnits rest <;> rfl
  case h_5 hno heq =>
    cases heq
    exact absurd rfl (hno _ _ rfl)

/-- A control character that is given by its code is read as that code. -/
theorem readUnits_code {n : Nat} (hn : n < 0x20) (rest : List Char) :
    readUnits ('\\' :: 'u' :: '0' :: '0' :: (Text.hexPair (UInt8.ofNat n) ++ rest)) =
      (readUnits rest).map fun (units, after) => (.escaped n :: units, after) := by
  have hbyte : (UInt8.ofNat n).toNat = n := by
    rw [UInt8.toNat_ofNat']
    omega
  have hcode : hexValue4? '0' '0' (Text.hexDigit (n / 16)) (Text.hexDigit (n % 16)) = some n := by
    unfold hexValue4?
    rw [hexValue?_hexDigit (by omega), hexValue?_hexDigit (by omega)]
    change some (((0 * 16 + 0) * 16 + n / 16) * 16 + n % 16) = some n
    congr 1
    omega
  unfold Text.hexPair
  rw [hbyte, List.cons_append, List.cons_append, List.nil_append, readUnits, hcode]
  cases readUnits rest <;> rfl

/-- The written form of a character, and the code unit that it is read as. -/
inductive Escape (c : Char) : List Char → CodeUnit → Prop
  /-- A letter stands for the character. -/
  | letter {letter : Char} (hu : letter ≠ 'u') (hv : 0x20 ≤ letter.toNat)
      (hc : simpleEscape? letter = some c) : Escape c ['\\', letter] (.plain c)
  /-- A control character is given by its code. -/
  | code (hc : c.toNat < 0x20) :
      Escape c (['\\', 'u', '0', '0'] ++ Text.hexPair (UInt8.ofNat c.toNat)) (.escaped c.toNat)
  /-- The character stands for itself. -/
  | plain (hq : c ≠ '"') (hb : c ≠ '\\') (hc : ¬c.toNat < 0x20) : Escape c [c] (.plain c)

/-- Every character has one of these forms. -/
theorem exists_escape (c : Char) : ∃ unit, Escape c (escapeChar c) unit := by
  by_cases hletter : c ∈ ['"', '\\', '\x08', '\t', '\n', '\x0c', '\r']
  · simp only [List.mem_cons, List.not_mem_nil, or_false] at hletter
    rcases hletter with rfl | rfl | rfl | rfl | rfl | rfl | rfl
    all_goals exact ⟨_, .letter (by decide) (by decide) rfl⟩
  · simp only [List.mem_cons, List.not_mem_nil, or_false, not_or] at hletter
    obtain ⟨hquote, hslash, hb, ht, hn, hf, hr⟩ := hletter
    by_cases hcode : c.toNat < 0x20
    · have hform : escapeChar c =
          ['\\', 'u', '0', '0'] ++ Text.hexPair (UInt8.ofNat c.toNat) := by
        simp only [escapeChar, beq_iff_eq, hquote, hslash, hb, ht, hn, hf, hr, hcode, if_false,
          if_true]
      rw [hform]
      exact ⟨_, .code hcode⟩
    · have hform : escapeChar c = [c] := by
        simp only [escapeChar, beq_iff_eq, hquote, hslash, hb, ht, hn, hf, hr, hcode, if_false]
      rw [hform]
      exact ⟨_, .plain hquote hslash hcode⟩

/-- A written character is read as its code unit. -/
theorem Escape.readUnits_eq {c : Char} {text : List Char} {unit : CodeUnit}
    (h : Escape c text unit) (rest : List Char) :
    readUnits (text ++ rest) =
      (readUnits rest).map fun (units, after) => (unit :: units, after) := by
  cases h with
  | letter hu _ hc => exact readUnits_letter hu hc rest
  | code hc => exact readUnits_code hc rest
  | plain hq hb hc => exact readUnits_plain hq hb hc rest

/-- Its code unit gives the character back: no code of a control character is half
of a surrogate pair. -/
theorem Escape.charsOfUnits_eq {c : Char} {text : List Char} {unit : CodeUnit}
    (h : Escape c text unit) (units : List CodeUnit) :
    charsOfUnits (unit :: units) = (charsOfUnits units).map (c :: ·) := by
  cases h with
  | letter => rfl
  | plain => rfl
  | code hc =>
    have hlow : (decide (0xD800 ≤ c.toNat) && decide (c.toNat < 0xDC00)) = false := by
      simp
      omega
    have hhigh : (decide (0xDC00 ≤ c.toNat) && decide (c.toNat < 0xE000)) = false := by
      simp
      omega
    have hpair : (decide (0xD800 ≤ c.toNat) && decide (c.toNat < 0xE000)) = false := by
      simp
      omega
    cases units with
    | nil => simp [charsOfUnits, hpair, Char.ofNat_toNat]
    | cons next units =>
      cases next with
      | plain => simp [charsOfUnits, hpair, Char.ofNat_toNat]
      | escaped => simp [charsOfUnits, hlow, hhigh, Char.ofNat_toNat]

/-- A written string is read up to its closing quote, whatever follows, and its
code units give its characters back. -/
theorem exists_readUnits_quoted (text rest : List Char) :
    ∃ units, readUnits (text.flatMap escapeChar ++ '"' :: rest) = some (units, rest) ∧
      charsOfUnits units = some text := by
  induction text with
  | nil => exact ⟨[], rfl, rfl⟩
  | cons c text ih =>
    obtain ⟨units, hread, hchars⟩ := ih
    obtain ⟨unit, hescape⟩ := exists_escape c
    refine ⟨unit :: units, ?_, ?_⟩
    · rw [List.flatMap_cons, List.append_assoc, hescape.readUnits_eq, hread]
      rfl
    · rw [hescape.charsOfUnits_eq, hchars]
      rfl

/-- A written string is read back, whatever follows it. -/
theorem readToken_quote (text : String) (rest : List Char) :
    readToken (quote text ++ rest) = some (.string (some text), rest) := by
  obtain ⟨units, hread, hchars⟩ := exists_readUnits_quoted text.toList rest
  have hquote : quote text ++ rest = '"' :: (text.toList.flatMap escapeChar ++ '"' :: rest) := by
    simp [quote]
  rw [hquote]
  change (readUnits (text.toList.flatMap escapeChar ++ '"' :: rest)).map _ = _
  rw [hread]
  change some (Token.string ((charsOfUnits units).map String.ofList), rest) = _
  rw [hchars, Option.map_some, String.ofList_toList]

end FormatScan.Json
