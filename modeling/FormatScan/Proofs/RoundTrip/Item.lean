import FormatScan.Format.Render
import FormatScan.Proofs.Numeral.Spelling
import FormatScan.Scan.Run

/-!
# Values that are printed and read back

An item is a value together with the directive that prints it: a signed number,
an unsigned number in one of three bases, an address, or a text without blanks.
The format of a list of items joins their directives by single spaces, and the
format that reads them back is the same one without its `#` flags.

Every item has a text, which is what its directive prints. A number's text is a
spelled number within the limit of a number field, and no text holds a blank or
a zero byte, so the texts of a list can be told apart where they are joined.
-/

namespace FormatScan.RoundTrip

open Numeral

/-- How an unsigned number is written. -/
inductive Radix where
  /-- In base 10, `%llu`. -/
  | decimal
  /-- In base 16, `%llx`, or `%#llx` with its mark. -/
  | hex (marked : Bool)
  /-- In base 8, `%llo`, or `%#llo` with its mark. -/
  | octal (marked : Bool)
deriving DecidableEq, Repr

namespace Radix

/-- The base of a spelling. -/
def base : Radix → Nat
  | decimal => 10
  | hex _ => 16
  | octal _ => 8

/-- Whether a spelling shows its base. -/
def marked : Radix → Bool
  | decimal => false
  | hex marked => marked
  | octal marked => marked

/-- The conversion byte of a spelling. -/
def letter : Radix → UInt8
  | decimal => 0x75
  | hex _ => 0x78
  | octal _ => 0x6F

/-- The bases of the spellings. -/
theorem base_cases (radix : Radix) : radix.base = 8 ∨ radix.base = 10 ∨ radix.base = 16 := by
  cases radix <;> simp [base]

end Radix

/-- A text that is read back as one word. -/
structure Token where
  /-- The bytes of the text. -/
  bytes : Bytes
  /-- There is a byte. -/
  ne_nil : bytes ≠ []
  /-- None of them is a blank or a zero byte. -/
  plain : ∀ c ∈ bytes, Byte.isSpace c = false ∧ c ≠ 0

/-- A value and the directive that prints it. -/
inductive Item where
  /-- A signed number under `%lld`. -/
  | signed (value : Int64)
  /-- An unsigned number under the directive of its spelling. -/
  | unsigned (radix : Radix) (value : UInt64)
  /-- An address under `%p`. -/
  | address (value : UInt64)
  /-- A text under `%s`. -/
  | word (token : Token)

/-- The text of a number: a minus sign, a mark that shows its base, and its
digits. -/
def numberText (marked : Bool) (base : Nat) (negative : Bool) (magnitude : Nat) : Bytes :=
  (if negative then [0x2D] else []) ++
    Format.baseMark { alternate := marked } base magnitude ++ digits base false magnitude

namespace Item

/-- The bytes of an item's directive behind its percent sign. -/
def letters : Item → Bytes
  | signed _ => [0x6C, 0x6C, 0x64]
  | unsigned radix _ => (if radix.marked then [0x23] else []) ++ [0x6C, 0x6C, radix.letter]
  | address _ => [0x70]
  | word _ => [0x73]

/-- The directive that prints an item. -/
def directive (item : Item) : Bytes := 0x25 :: item.letters

/-- The directive that reads an item back: the one that prints it, without its
flag. -/
def scanDirective (item : Item) : Bytes := item.directive.filter (· != 0x23)

/-- The operand that holds an item's value. -/
def operand : Item → FormatArg
  | signed value => .int value
  | unsigned _ value => .uint value
  | address value => .pointer value
  | word token => .text (some token.bytes)

/-- The text of an item. -/
def text : Item → Bytes
  | signed value => numberText false 10 (value.toInt < 0) value.toInt.natAbs
  | unsigned radix value => numberText radix.marked radix.base false value.toNat
  | address value => numberText true 16 false value.toNat
  | word token => token.bytes

/-- The targets that can take an item: one of its own kind, and a buffer only
when it has room for the text and a zero byte. -/
def Fits : Item → ScanTarget → Prop
  | signed _, .int _ => True
  | unsigned _ _, .uint _ => True
  | address _, .pointer _ => True
  | word token, .buffer bytes => token.bytes.length < bytes.length
  | _, _ => False

/-- What a target holds once an item was read into it. A buffer keeps the bytes
behind the zero byte. -/
def stored : Item → ScanTarget → ScanTarget
  | signed value, _ => .int value
  | unsigned _ value, _ => .uint value
  | address value, _ => .pointer value
  | word token, .buffer bytes =>
    .buffer (token.bytes ++ 0 :: bytes.drop (token.bytes.length + 1))
  | word _, target => target

end Item

/-- Texts joined by single spaces. -/
def spaced (texts : List Bytes) : Bytes := [0x20].intercalate texts

/-- The format that prints a list of items. -/
def printFormat (items : List Item) : Bytes := spaced (items.map Item.directive)

/-- The format that reads a list of items back. -/
def scanFormat (items : List Item) : Bytes := spaced (items.map Item.scanDirective)

/-- The texts of further items, each behind a space. -/
def furtherTexts (items : List Item) : Bytes := (items.map Item.text).flatMap (0x20 :: ·)

/-- The directive `%lln`, which stores a count. -/
def countDirective : Bytes := [0x25, 0x6C, 0x6C, 0x6E]

/-- Narrowing to 64 bits keeps a signed word. -/
theorem signed_longLong (value : Int64) :
    OperandWidth.longLong.signed value.toUInt64 = value.toInt := by
  have hbits : value.toInt = ((value.toBitVec.toNat : Int)).bmod (2 ^ 64) :=
    BitVec.toInt_eq_toNat_bmod value.toBitVec
  rw [hbits]
  rfl

/-- Narrowing to 64 bits keeps an unsigned word. -/
theorem unsigned_longLong (value : UInt64) :
    OperandWidth.longLong.unsigned value = value.toNat :=
  Nat.mod_eq_of_lt value.toNat_lt

/-- A count that `%lln` stores is the word of 64 bits for it. -/
theorem ofInt_signed_ofNat (count : Nat) :
    Int64.ofInt (OperandWidth.longLong.signed (UInt64.ofNat count)) = Int64.ofNat count := by
  have hword : UInt64.ofNat count = (Int64.ofNat count).toUInt64 := rfl
  rw [hword, signed_longLong, Int64.ofInt_toInt]

/-- Behind the first text a space stands in front of each of the others. -/
theorem spaced_cons (first : Bytes) (texts : List Bytes) :
    spaced (first :: texts) = first ++ texts.flatMap (0x20 :: ·) := by
  induction texts generalizing first with
  | nil => simp [spaced, List.intercalate, List.intersperse]
  | cons second texts ih =>
    have hsplit : spaced (first :: second :: texts) =
        first ++ 0x20 :: spaced (second :: texts) := by
      simp [spaced, List.intercalate, List.intersperse]
    rw [hsplit, ih, List.flatMap_cons, List.cons_append]

/-- The text of a number spells it. -/
theorem exists_spells_numberText (base : Nat) (hb : base = 8 ∨ base = 10 ∨ base = 16)
    (marked negative : Bool) (hm : negative = true → marked = false) (magnitude : Nat) :
    ∃ run, Spells base (numberText marked base negative magnitude) negative run ∧
      runValue base run = magnitude := by
  have hrun : IsRun base (digits base false magnitude) :=
    ⟨digits_ne_nil (by omega) false magnitude,
      isDigitBelow_of_mem_digits (by omega) (by omega) false magnitude⟩
  have hvalue : runValue base (digits base false magnitude) = magnitude :=
    runValue_digits (by omega) (by omega) false magnitude
  cases negative with
  | true =>
    refine ⟨_, ?_, hvalue⟩
    rw [hm rfl]
    exact Spells.minus hrun
  | false =>
    by_cases hshown : marked = true ∧ magnitude ≠ 0
    · obtain ⟨rfl, hne⟩ := hshown
      have hne' : (magnitude != 0) = true := by simpa using hne
      rcases hb with rfl | rfl | rfl
      · refine ⟨0x30 :: digits 8 false magnitude, ?_, ?_⟩
        · have htext : numberText true 8 false magnitude = 0x30 :: digits 8 false magnitude := by
            simp [numberText, Format.baseMark, hne]
          have hall : ∀ c ∈ 0x30 :: digits 8 false magnitude, Byte.isDigitBelow 8 c = true := by
            intro c hc
            rcases List.mem_cons.mp hc with rfl | hc
            · decide
            · exact hrun.digits c hc
          rw [htext]
          exact Spells.plain ⟨List.cons_ne_nil _ _, hall⟩
        · exact hvalue
      · refine ⟨_, ?_, hvalue⟩
        have htext : numberText true 10 false magnitude = digits 10 false magnitude := by
          simp [numberText, Format.baseMark]
        rw [htext]
        exact Spells.plain hrun
      · refine ⟨_, ?_, hvalue⟩
        have htext : numberText true 16 false magnitude =
            0x30 :: 0x78 :: digits 16 false magnitude := by
          simp [numberText, Format.baseMark, hne]
        rw [htext]
        exact Spells.marked rfl (Or.inl rfl) hrun
    · refine ⟨_, ?_, hvalue⟩
      have hmark : Format.baseMark { alternate := marked } base magnitude = [] := by
        unfold Format.baseMark
        rw [if_neg]
        simpa using hshown
      have htext : numberText marked base false magnitude = digits base false magnitude := by
        rw [numberText, hmark]
        rfl
      rw [htext]
      exact Spells.plain hrun

/-- The text of a machine word fits into a number field. -/
theorem length_numberText_le (base : Nat) (hb : base = 8 ∨ base = 10 ∨ base = 16)
    (marked negative : Bool) (magnitude : Nat) (hn : magnitude ≤ Word.largest) :
    (numberText marked base negative magnitude).length ≤ 25 := by
  have hpow : magnitude < Nat.pow base 22 := by
    have hle : Nat.pow 8 22 ≤ Nat.pow base 22 := Nat.pow_le_pow_left (by omega) 22
    have hlt : Word.largest < Nat.pow 8 22 := by decide
    exact Nat.lt_of_le_of_lt hn (Nat.lt_of_lt_of_le hlt hle)
  have hdigits : (digits base false magnitude).length ≤ 22 :=
    length_digits_le (by omega) false (by omega) hpow
  have hmark : (Format.baseMark { alternate := marked } base magnitude).length ≤ 2 := by
    unfold Format.baseMark
    split
    · split
      · simp
      · split <;> simp
    · simp
  have hsign : (if negative then [0x2D] else [] : Bytes).length ≤ 1 := by
    split <;> simp
  rw [numberText, List.length_append, List.length_append]
  omega

/-- A spelled number holds neither a blank nor a zero byte. -/
theorem plain_of_spells {base : Nat} {text run : Bytes} {negative : Bool}
    (h : Spells base text negative run) : ∀ c ∈ text, Byte.isSpace c = false ∧ c ≠ 0 := by
  have hdigit : ∀ c ∈ run, Byte.isSpace c = false ∧ c ≠ 0 := by
    intro c hc
    obtain ⟨hspace, hzero, _, _⟩ := Byte.class_of_isDigitBelow (h.isRun.digits c hc)
    exact ⟨hspace, hzero⟩
  cases h with
  | plain hr => exact hdigit
  | plus hr =>
    intro c hc
    rcases List.mem_cons.mp hc with rfl | hc
    · decide
    · exact hdigit c hc
  | minus hr =>
    intro c hc
    rcases List.mem_cons.mp hc with rfl | hc
    · decide
    · exact hdigit c hc
  | marked hb hx hr =>
    intro c hc
    rcases List.mem_cons.mp hc with rfl | hc
    · decide
    rcases List.mem_cons.mp hc with rfl | hc
    · rcases hx with rfl | rfl <;> decide
    · exact hdigit c hc

/-- The text of an item holds neither a blank nor a zero byte. -/
theorem Item.plain_text (item : Item) : ∀ c ∈ item.text, Byte.isSpace c = false ∧ c ≠ 0 := by
  have hnumber : ∀ (base : Nat) (marked negative : Bool) (magnitude : Nat),
      base = 8 ∨ base = 10 ∨ base = 16 → (negative = true → marked = false) →
      ∀ c ∈ numberText marked base negative magnitude, Byte.isSpace c = false ∧ c ≠ 0 := by
    intro base marked negative magnitude hb hm
    obtain ⟨run, hspells, _⟩ := exists_spells_numberText base hb marked negative hm magnitude
    exact plain_of_spells hspells
  cases item with
  | signed value => exact hnumber 10 false (value.toInt < 0) _ (by omega) (fun _ => rfl)
  | unsigned radix value =>
    exact hnumber radix.base radix.marked false _ radix.base_cases
      (fun h => absurd h Bool.false_ne_true)
  | address value =>
    exact hnumber 16 true false _ (by omega) (fun h => absurd h Bool.false_ne_true)
  | word token => exact token.plain

/-- The text of an item has a byte. -/
theorem Item.text_ne_nil (item : Item) : item.text ≠ [] := by
  cases item with
  | word token => exact token.ne_nil
  | signed value => exact List.append_ne_nil_of_right_ne_nil _ (digits_ne_nil (by omega) false _)
  | unsigned radix value =>
    have hbase := radix.base_cases
    exact List.append_ne_nil_of_right_ne_nil _ (digits_ne_nil (by omega) false _)
  | address value => exact List.append_ne_nil_of_right_ne_nil _ (digits_ne_nil (by omega) false _)

end FormatScan.RoundTrip
