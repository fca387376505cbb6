import FormatScan.Proofs.RoundTrip.Printing
import FormatScan.Proofs.Scan.Field
import FormatScan.Proofs.Scan.Steps

/-!
# Reading items back

An item's directive takes the item's text off the front of the input, as long as
nothing or a space follows it there, and stores the item's value. Between two
items the space of the format skips the one of the input. A list of items is
therefore read back item by item, and the bytes read are those of its texts.
-/

namespace FormatScan.RoundTrip

open Numeral Scan

/-- Nothing follows, or a space does. -/
def Ends (rest : Bytes) : Prop := ∀ c, rest.head? = some c → c = 0x20

/-- The progress behind an item: its text is read, and the next target holds
what was stored. -/
def behind (progress : Scan.Progress) (text rest : Bytes) (used : List ScanTarget)
    (after : ScanTarget) (pending : List ScanTarget) : Scan.Progress where
  input := rest
  read := progress.read + text.length
  targets := ⟨used ++ [after], pending⟩
  assigned := progress.assigned + 1
  conversions := progress.conversions + 1

/-- The bits of a number with its sign, decoded as the format says. -/
def bitsOf (signed negative : Bool) (magnitude : Nat) : UInt64 :=
  if signed then (quadOf negative magnitude).toUInt64 else wordOf negative magnitude

/-- A space is a digit in no base, and no `x`. -/
theorem Ends.not_digit {rest : Bytes} (h : Ends rest) (base : Nat) :
    ∀ c, rest.head? = some c → ¬Byte.isDigitBelow base c = true ∧ ¬IsMark c := by
  intro c hc
  have hspace := h c hc
  subst hspace
  constructor
  · intro hd
    obtain ⟨hblank, _⟩ := Byte.class_of_isDigitBelow hd
    cases hblank
  · rintro (hx | hx) <;> cases hx

/-- A number directive without a width stores the word of a spelled number. -/
theorem perform_spelled {directive : Scan.Directive} {format : NumberFormat}
    (hc : directive.conversion = .number format) (hw : directive.width = 0)
    (hs : directive.suppressed = false) (hf : format.Fixed) {text run rest : Bytes}
    {negative : Bool} (h : Spells format.base text negative run) (hlen : text.length ≤ 31)
    (hrest : Ends rest) {progress : Scan.Progress} (hi : progress.input = text ++ rest)
    {used pending : List ScanTarget} {target after : ScanTarget}
    (ht : progress.targets = ⟨used, target :: pending⟩)
    (hu : (if format.pointer
        then intoPointer (bitsOf format.signed negative (runValue format.base run))
        else intoInteger directive.length.forTarget
          (bitsOf format.signed negative (runValue format.base run))) target = some after) :
    directive.perform progress = .ok (behind progress text rest used after pending) := by
  have htakes : directive.conversion.takes = true := by
    rw [hc]
    rfl
  have hne : text ≠ [] := by
    rintro rfl
    cases h with
    | plain hr => exact hr.ne_nil rfl
  obtain ⟨c, tail, rfl⟩ := List.exists_cons_of_ne_nil hne
  have hblank : Byte.isSpace c = false := (plain_of_spells h c List.mem_cons_self).1
  have hready := Progress.approach_of_not_blank hi hblank directive.conversion.keepsBlanks
  have hlimit : (c :: tail).length ≤ fieldLimit directive.width := by
    rw [hw]
    exact hlen
  obtain ⟨state, hbase, htake⟩ :=
    Field.exists_take?_of_spells hf h hlimit (hrest.not_digit format.base)
  have hbits : Field.bits format ⟨c :: tail, state⟩ =
      bitsOf format.signed negative (runValue format.base run) := by
    have hrange : 2 ≤ format.base ∧ format.base ≤ 36 := by
      rcases hf with ⟨hb, _⟩ | ⟨hb, _⟩ <;> omega
    unfold Field.bits bitsOf
    dsimp only
    rw [hbase, h.decodeSigned_eq hrange.1 hrange.2, h.decodeUnsigned_eq hrange.1 hrange.2]
  have hadvance : (progress.advance (c :: tail).length).targets = ⟨used, target :: pending⟩ := ht
  have hinput : progress.input.drop (c :: tail).length = rest := by
    rw [hi, List.drop_left]
  rw [Directive.perform_of_takes htakes, hready]
  dsimp only
  rw [hc, perform_number, hi, htake]
  dsimp only
  rw [hs, Progress.assign_ok hadvance _ (by rw [hbits]; exact hu)]
  dsimp only [Progress.advance, behind]
  rw [hinput]

/-- Without a width the span of a text in front of a space is the text. -/
theorem span_token (token : Token) {rest : Bytes} (hrest : Ends rest) :
    span 0 (fun d => !Byte.isSpace d) (token.bytes ++ rest) = token.bytes := by
  have hplain : ∀ d ∈ token.bytes, (!Byte.isSpace d) = true := by
    intro d hd
    rw [(token.plain d hd).1]
    rfl
  unfold span
  rw [if_pos (by decide), List.takeWhile_append_of_pos hplain]
  cases rest with
  | nil => exact List.append_nil _
  | cons d more =>
    have hspace := hrest d rfl
    subst hspace
    rw [List.takeWhile_cons_of_neg (by decide), List.append_nil]

/-- A buffer with room for a text and a zero byte holds both, in front of what
it held behind them. -/
theorem overlayText_of_lt {buffer bytes : Bytes} (h : bytes.length < buffer.length) :
    overlayText buffer bytes = bytes ++ 0 :: buffer.drop (bytes.length + 1) := by
  have hwhole : bytes.take (buffer.length - 1) = bytes := List.take_of_length_le (by omega)
  have hkept : (bytes ++ [0]).take buffer.length = bytes ++ [0] :=
    List.take_of_length_le (by rw [List.length_append, List.length_singleton]; omega)
  unfold overlayText overlay
  rw [hwhole, hkept]
  simp

/-- A text directive without a width stores the text in front of a space, and a
zero byte behind it. -/
theorem perform_token {directive : Scan.Directive} (hc : directive.conversion = .word)
    (hw : directive.width = 0) (hs : directive.suppressed = false) (token : Token) {rest : Bytes}
    (hrest : Ends rest) {progress : Scan.Progress} (hi : progress.input = token.bytes ++ rest)
    {used pending : List ScanTarget} {buffer : Bytes}
    (ht : progress.targets = ⟨used, .buffer buffer :: pending⟩)
    (hfit : token.bytes.length < buffer.length) :
    directive.perform progress =
      .ok (behind progress token.bytes rest used
        (.buffer (token.bytes ++ 0 :: buffer.drop (token.bytes.length + 1))) pending) := by
  have htakes : directive.conversion.takes = true := by
    rw [hc]
    rfl
  obtain ⟨c, tail, hcons⟩ := List.exists_cons_of_ne_nil token.ne_nil
  have hblank : Byte.isSpace c = false :=
    (token.plain c (by rw [hcons]; exact List.mem_cons_self)).1
  have hinput : progress.input = c :: (tail ++ rest) := by
    rw [hi, hcons, List.cons_append]
  have hready := Progress.approach_of_not_blank hinput hblank directive.conversion.keepsBlanks
  have hspan : span directive.width (fun d => !Byte.isSpace d) progress.input = token.bytes := by
    rw [hw, hi]
    exact span_token token hrest
  have hadvance : (progress.advance token.bytes.length).targets =
      ⟨used, .buffer buffer :: pending⟩ := ht
  have hinto : intoBuffer (overlayText · token.bytes) (.buffer buffer) =
      some (.buffer (overlayText buffer token.bytes)) := rfl
  have hleft : progress.input.drop token.bytes.length = rest := by
    rw [hi, List.drop_left]
  rw [Directive.perform_of_takes htakes, hready]
  dsimp only
  rw [hc]
  dsimp only [Conversion.perform]
  rw [hspan, hs, Progress.assign_ok hadvance _ hinto]
  dsimp only [Progress.advance, behind]
  rw [hleft, overlayText_of_lt hfit]

/-- The directive of an item as the scanner reads it. -/
def Item.scanned : Item → Scan.Directive
  | signed _ =>
    { length := { longLong := true }, conversion := .number { base := 10, signed := true } }
  | unsigned radix _ =>
    { length := { longLong := true },
      conversion := .number
        { base := radix.base, signed := false, marked := decide (radix.base = 16) } }
  | address _ =>
    { conversion := .number { base := 16, signed := false, marked := true, pointer := true } }
  | word _ => { conversion := .word }

/-- The scanner reads the directive of an item from its letters. -/
theorem Item.exists_scanDirective (item : Item) :
    ∃ letters, item.scanDirective = 0x25 :: letters ∧
      ∀ more, Scan.Directive.read (letters ++ more) = .read item.scanned more := by
  cases item with
  | signed value => exact ⟨[0x6C, 0x6C, 0x64], rfl, fun _ => rfl⟩
  | unsigned radix value =>
    refine ⟨[0x6C, 0x6C, radix.letter], ?_, ?_⟩
    · cases radix with
      | decimal => rfl
      | hex marked => cases marked <;> rfl
      | octal marked => cases marked <;> rfl
    · intro more
      cases radix <;> rfl
  | address value => exact ⟨[0x70], rfl, fun _ => rfl⟩
  | word token => exact ⟨[0x73], rfl, fun _ => rfl⟩

/-- A signed word comes back from its magnitude and sign. -/
theorem quadOf_natAbs (value : Int64) : quadOf (value.toInt < 0) value.toInt.natAbs = value := by
  have hsigned : signedBy (value.toInt < 0) value.toInt.natAbs = value.toInt := by
    unfold signedBy
    split
    · rename_i h
      have hneg := of_decide_eq_true h
      omega
    · rename_i h
      have hpos : ¬value.toInt < 0 := by simpa using h
      omega
  have hclamp : Quad.clamp value.toInt = value.toInt := by
    have hlow := value.le_toInt
    have hhigh := value.toInt_lt
    unfold Quad.clamp Quad.least Quad.greatest
    omega
  rw [quadOf, hsigned, hclamp, Int64.ofInt_toInt]

/-- The text of a signed word spells it, and is short enough for a field. -/
theorem exists_spells_quad (value : Int64) :
    let text := numberText false 10 (value.toInt < 0) value.toInt.natAbs
    ∃ run, Spells 10 text (value.toInt < 0) run ∧ text.length ≤ 31 ∧
      bitsOf true (value.toInt < 0) (runValue 10 run) = value.toUInt64 := by
  intro text
  obtain ⟨run, hspells, hvalue⟩ := exists_spells_numberText 10 (by omega) false
    (value.toInt < 0) (fun _ => rfl) value.toInt.natAbs
  have hlow := value.le_toInt
  have hhigh := value.toInt_lt
  have hlen : text.length ≤ 25 := length_numberText_le 10 (by omega) false (value.toInt < 0)
    value.toInt.natAbs (by unfold Word.largest; omega)
  refine ⟨run, hspells, Nat.le_trans hlen (by decide), ?_⟩
  rw [hvalue, bitsOf, if_pos rfl, quadOf_natAbs]

/-- The text of an unsigned word spells it, and is short enough for a field. -/
theorem exists_spells_word {base : Nat} (hb : base = 8 ∨ base = 10 ∨ base = 16) (marked : Bool)
    (value : UInt64) :
    let text := numberText marked base false value.toNat
    ∃ run, Spells base text false run ∧ text.length ≤ 31 ∧
      bitsOf false false (runValue base run) = value := by
  intro text
  obtain ⟨run, hspells, hvalue⟩ := exists_spells_numberText base hb marked false
    (fun h => absurd h Bool.false_ne_true) value.toNat
  have hlt := value.toNat_lt
  have hlen : text.length ≤ 25 := length_numberText_le base hb marked false value.toNat
    (by unfold Word.largest; omega)
  refine ⟨run, hspells, Nat.le_trans hlen (by decide), ?_⟩
  rw [hvalue, bitsOf, if_neg Bool.false_ne_true, wordOf_toNat]

/-- The directive of an item takes its text and stores its value. -/
theorem Item.perform_scanned (item : Item) {target : ScanTarget} (hfit : item.Fits target)
    {rest : Bytes} (hrest : Ends rest) {progress : Scan.Progress}
    (hi : progress.input = item.text ++ rest) {used pending : List ScanTarget}
    (ht : progress.targets = ⟨used, target :: pending⟩) :
    item.scanned.perform progress =
      .ok (behind progress item.text rest used (item.stored target) pending) := by
  cases item with
  | signed value =>
    cases target with
    | int old =>
      obtain ⟨run, hspells, hlen, hbits⟩ := exists_spells_quad value
      refine perform_spelled rfl rfl rfl (Or.inl ⟨Or.inr rfl, rfl⟩) hspells hlen hrest hi ht ?_
      dsimp only [scanned]
      rw [hbits]
      have hstored : Int64.ofInt (OperandWidth.longLong.signed value.toUInt64) = value := by
        rw [signed_longLong, Int64.ofInt_toInt]
      exact congrArg (fun stored => some (ScanTarget.int stored)) hstored
    | _ => exact absurd hfit id
  | unsigned radix value =>
    cases target with
    | uint old =>
      have hfixed : NumberFormat.Fixed
          { base := radix.base, signed := false, marked := decide (radix.base = 16) } := by
        cases radix <;> simp [NumberFormat.Fixed, Radix.base]
      obtain ⟨run, hspells, hlen, hbits⟩ := exists_spells_word radix.base_cases radix.marked value
      refine perform_spelled rfl rfl rfl hfixed hspells hlen hrest hi ht ?_
      dsimp only [scanned]
      rw [hbits]
      have hstored : UInt64.ofNat (OperandWidth.longLong.unsigned value) = value := by
        rw [unsigned_longLong, UInt64.ofNat_toNat]
      exact congrArg (fun stored => some (ScanTarget.uint stored)) hstored
    | _ => exact absurd hfit id
  | address value =>
    cases target with
    | pointer old =>
      obtain ⟨run, hspells, hlen, hbits⟩ :=
        exists_spells_word (Or.inr (Or.inr rfl)) true value
      refine perform_spelled rfl rfl rfl (Or.inr ⟨rfl, rfl⟩) hspells hlen hrest hi ht ?_
      dsimp only [scanned]
      rw [hbits]
      rfl
    | _ => exact absurd hfit id
  | word token =>
    cases target with
    | buffer bytes => exact perform_token rfl rfl rfl token hrest hi ht hfit
    | _ => exact absurd hfit id

/-- The directive of an item takes the item's text, and scanning goes on behind
both. -/
theorem run_item (total : Nat) (item : Item) {target : ScanTarget} (hfit : item.Fits target)
    {rest more : Bytes} (hrest : Ends rest) {progress : Scan.Progress}
    (hi : progress.input = item.text ++ rest) {used pending : List ScanTarget}
    (ht : progress.targets = ⟨used, target :: pending⟩) :
    Scan.run total (item.scanDirective ++ more) progress =
      Scan.run total more
        (behind progress item.text rest used (item.stored target) pending) := by
  obtain ⟨letters, hdirective, hread⟩ := item.exists_scanDirective
  rw [hdirective, List.cons_append, run_directive (hread more),
    item.perform_scanned hfit hrest hi ht]

/-- A space of the format skips the one in front of an item's text. -/
theorem skipBlanks_item (item : Item) {rest : Bytes} {progress : Scan.Progress}
    (hi : progress.input = 0x20 :: (item.text ++ rest)) :
    progress.skipBlanks =
      { progress with input := item.text ++ rest, read := progress.read + 1 } := by
  obtain ⟨c, tail, hcons⟩ := List.exists_cons_of_ne_nil item.text_ne_nil
  have hblank : ¬Byte.isSpace c = true := by
    rw [(item.plain_text c (by rw [hcons]; exact List.mem_cons_self)).1]
    exact Bool.false_ne_true
  have hblanks : progress.input.takeWhile Byte.isSpace = [0x20] := by
    rw [hi, hcons, List.takeWhile_cons_of_pos (by decide), List.cons_append,
      List.takeWhile_cons_of_neg hblank]
  rw [Scan.Progress.skipBlanks, hblanks, Scan.Progress.advance, hi]
  rfl

/-- The directives that read further items back, each behind a space. -/
def furtherDirectives (items : List Item) : Bytes :=
  (items.map Item.scanDirective).flatMap (0x20 :: ·)

/-- Further texts start with a space, when there are any. -/
theorem ends_furtherTexts (items : List Item) : Ends (furtherTexts items) := by
  intro c hc
  cases items with
  | nil => cases hc
  | cons item items => exact (Option.some.inj hc).symm

/-- Further items are read back one after the other, up to the end of the
input. -/
theorem run_further (total : Nat) (more : Bytes) {items : List Item} {targets : List ScanTarget}
    (hfit : List.Forall₂ Item.Fits items targets) {progress : Scan.Progress}
    (hi : progress.input = furtherTexts items) {used pending : List ScanTarget}
    (ht : progress.targets = ⟨used, targets ++ pending⟩) :
    Scan.run total (furtherDirectives items ++ more) progress =
      Scan.run total more
        { input := []
          read := progress.read + (furtherTexts items).length
          targets := ⟨used ++ List.zipWith Item.stored items targets, pending⟩
          assigned := progress.assigned + items.length
          conversions := progress.conversions + items.length } := by
  induction hfit generalizing progress used with
  | nil =>
    obtain ⟨input, read, targets, assigned, conversions⟩ := progress
    subst hi ht
    simp [furtherDirectives, furtherTexts]
  | @cons item target items targets hitem hfit ih =>
    have hinput : progress.input = 0x20 :: (item.text ++ furtherTexts items) := by
      rw [hi]
      rfl
    have hformat : furtherDirectives (item :: items) ++ more =
        0x20 :: (item.scanDirective ++ (furtherDirectives items ++ more)) := by
      simp [furtherDirectives]
    have hskip := skipBlanks_item item hinput
    have hskipped : progress.skipBlanks.input = item.text ++ furtherTexts items := by rw [hskip]
    have htargets : progress.skipBlanks.targets = ⟨used, target :: (targets ++ pending)⟩ := by
      rw [hskip, ht]
      rfl
    rw [hformat, run_blank (by decide),
      run_item total item hitem (ends_furtherTexts items) hskipped htargets, ih rfl rfl, hskip]
    have hlen : (furtherTexts (item :: items)).length =
        1 + item.text.length + (furtherTexts items).length := by
      have hcons : furtherTexts (item :: items) = 0x20 :: (item.text ++ furtherTexts items) := rfl
      rw [hcons, List.length_cons, List.length_append]
      omega
    simp only [behind, hlen, List.zipWith_cons_cons, List.append_assoc, List.singleton_append,
      List.length_cons, Nat.add_assoc, Nat.add_comm 1]

/-- Items are read back one after the other, up to the end of the input. -/
theorem run_items (total : Nat) (more : Bytes) {items : List Item} {targets : List ScanTarget}
    (hfit : List.Forall₂ Item.Fits items targets) {progress : Scan.Progress}
    (hi : progress.input = spaced (items.map Item.text)) {used pending : List ScanTarget}
    (ht : progress.targets = ⟨used, targets ++ pending⟩) :
    Scan.run total (scanFormat items ++ more) progress =
      Scan.run total more
        { input := []
          read := progress.read + (spaced (items.map Item.text)).length
          targets := ⟨used ++ List.zipWith Item.stored items targets, pending⟩
          assigned := progress.assigned + items.length
          conversions := progress.conversions + items.length } := by
  cases hfit with
  | nil => exact run_further total more List.Forall₂.nil hi ht
  | @cons item target items targets hitem hfit =>
    have htexts : spaced ((item :: items).map Item.text) = item.text ++ furtherTexts items := by
      rw [List.map_cons, spaced_cons]
      rfl
    have hformat : scanFormat (item :: items) ++ more =
        item.scanDirective ++ (furtherDirectives items ++ more) := by
      rw [scanFormat, List.map_cons, spaced_cons, List.append_assoc]
      rfl
    rw [htexts] at hi ⊢
    rw [hformat, run_item total item hitem (ends_furtherTexts items) hi ht,
      run_further total more hfit rfl rfl]
    simp only [behind, List.length_append, List.zipWith_cons_cons, List.append_assoc,
      List.singleton_append, List.length_cons, Nat.add_assoc, Nat.add_comm 1]

/-- Joined texts hold no zero byte. -/
theorem untilZero_spaced (items : List Item) :
    untilZero (spaced (items.map Item.text)) = spaced (items.map Item.text) := by
  have hplain : ∀ item : Item, ∀ c ∈ item.text, (c != 0) = true := by
    intro item c hc
    simpa using (item.plain_text c hc).2
  have hfurther : ∀ others : List Item, ∀ c ∈ furtherTexts others, (c != 0) = true := by
    intro others c hc
    obtain ⟨text, htext, hmem⟩ := List.mem_flatMap.mp hc
    obtain ⟨item, _, rfl⟩ := List.mem_map.mp htext
    rcases List.mem_cons.mp hmem with rfl | hmem
    · decide
    · exact hplain item c hmem
  rw [untilZero, List.takeWhile_eq_self_iff]
  cases items with
  | nil => exact hfurther []
  | cons item items =>
    rw [List.map_cons, spaced_cons]
    intro c hc
    rcases List.mem_append.mp hc with hmem | hmem
    · exact hplain item c hmem
    · exact hfurther items c hmem

/-- A count directive stores the number of bytes read. -/
theorem run_countDirective (total : Nat) {progress : Scan.Progress} {used : List ScanTarget}
    {old : Int64} (ht : progress.targets = ⟨used, [.count old]⟩) :
    Scan.run total countDirective progress =
      ⟨{ progress with
          targets := ⟨used ++ [.count (Int64.ofNat progress.read)], []⟩
          conversions := progress.conversions + 1 }, .finished⟩ := by
  have hread : Scan.Directive.read [0x6C, 0x6C, 0x6E] =
      .read { length := { longLong := true }, conversion := .count } [] := rfl
  have hstore : Scan.Directive.perform { length := { longLong := true }, conversion := .count }
      progress = .ok { progress with
        targets := ⟨used ++ [.count (Int64.ofNat progress.read)], []⟩
        conversions := progress.conversions + 1 } := by
    rw [← ofInt_signed_ofNat progress.read]
    unfold Scan.Directive.perform Scan.Progress.store Cursor.take
    dsimp only
    rw [ht]
    rfl
  rw [countDirective, run_directive hread, hstore]
  exact run_nil

/-- A scan of the joined texts under the format of their items comes to the end of
both, with every item in its target. -/
theorem scan_texts {items : List Item} {targets : List ScanTarget}
    (hfit : List.Forall₂ Item.Fits items targets) (more : Bytes) (pending : List ScanTarget) :
    scan (spaced (items.map Item.text)) (scanFormat items ++ more) (targets ++ pending) =
      let stopped := Scan.run (scanFormat items ++ more).length more
        { input := []
          read := (spaced (items.map Item.text)).length
          targets := ⟨List.zipWith Item.stored items targets, pending⟩
          assigned := items.length
          conversions := items.length }
      ⟨stopped.progress.targets.all, stopped.result⟩ := by
  let start : Scan.Progress :=
    { input := spaced (items.map Item.text), targets := .start (targets ++ pending) }
  have hinput : start.input = spaced (items.map Item.text) := rfl
  have htargets : start.targets = ⟨[], targets ++ pending⟩ := rfl
  have hrun := run_items (scanFormat items ++ more).length more hfit hinput htargets
  rw [scan, untilZero_spaced]
  dsimp only
  rw [hrun]
  simp only [start, Nat.zero_add, List.nil_append]

/-- What was printed of a list of items is read back as it was: all items count
as assigned, and every target holds its item's value. A count at the end of both
formats prints nothing, and both sides store the length of the output, which is a
word whenever the output fits in memory. -/
theorem scan_printed_items {items : List Item} {targets : List ScanTarget}
    (hfit : List.Forall₂ Item.Fits items targets) (printedCount scannedCount : Int64) :
    let printed := Format.printAll (printFormat items) (items.map Item.operand)
    let scanned := scan printed.sink.bytes (scanFormat items) targets
    let counted := Format.printAll (printFormat items ++ countDirective)
      (items.map Item.operand ++ [.count printedCount])
    let recounted := scan counted.sink.bytes (scanFormat items ++ countDirective)
      (targets ++ [.count scannedCount])
    let length := printed.sink.bytes.length
    (printed.result = .ok (min length Word.largest) ∧
        scanned.result = .ok (.assigned items.length) ∧
        scanned.targets = List.zipWith Item.stored items targets) ∧
      counted.sink.bytes = printed.sink.bytes ∧
      counted.result = printed.result ∧
      recounted.result = scanned.result ∧
      (length ≤ Word.largest →
        counted.args = items.map Item.operand ++ [.count (Int64.ofNat length)] ∧
          recounted.targets = scanned.targets ++ [.count (Int64.ofNat length)]) := by
  intro printed scanned counted recounted length
  obtain ⟨hbytes, hresult⟩ := printAll_items items
  obtain ⟨hcbytes, hcresult, hcargs⟩ := printAll_items_count items printedCount
  have hlength : length = (spaced (items.map Item.text)).length := congrArg List.length hbytes
  have hscanned : scanned =
      ⟨List.zipWith Item.stored items targets, .ok (.assigned items.length)⟩ := by
    have hscan := scan_texts hfit [] []
    rw [List.append_nil, List.append_nil, run_nil] at hscan
    dsimp only [scanned]
    rw [hbytes, hscan]
    simp [Cursor.all, Stopped.result]
  have hrecounted : recounted = ⟨List.zipWith Item.stored items targets ++
      [.count (Int64.ofNat (spaced (items.map Item.text)).length)],
      .ok (.assigned items.length)⟩ := by
    dsimp only [recounted]
    rw [hcbytes, scan_texts hfit countDirective [.count scannedCount], run_countDirective _ rfl]
    simp [Cursor.all, Stopped.result]
  rw [hscanned, hrecounted]
  refine ⟨⟨?_, rfl, rfl⟩, ?_, ?_, rfl, ?_⟩
  · rw [hlength]
    exact hresult
  · exact hcbytes.trans hbytes.symm
  · exact hcresult.trans hresult.symm
  · intro hle
    rw [hlength] at hle ⊢
    refine ⟨?_, rfl⟩
    rw [hcargs, Nat.min_eq_left hle]

/-- A signed number, a marked one and a text come back from one line. -/
theorem scan_printed_line :
    let token : Token := ⟨[0x61, 0x62], List.cons_ne_nil _ _,
      List.forall_mem_cons.mpr ⟨by decide, List.forall_mem_singleton.mpr (by decide)⟩⟩
    let items : List Item := [.signed (-5), .unsigned (.hex true) 255, .word token]
    let targets : List ScanTarget := [.int 0, .uint 0, .buffer [1, 2, 3, 4]]
    let printed := Format.printAll (printFormat items) (items.map Item.operand)
    List.Forall₂ Item.Fits items targets ∧
      (scan printed.sink.bytes (scanFormat items) targets).targets =
        [.int (-5), .uint 255, .buffer [0x61, 0x62, 0, 4]] := by
  intro token items targets printed
  have hroom : token.bytes.length < 4 := by decide
  have hfit : List.Forall₂ Item.Fits items targets :=
    .cons trivial (.cons trivial (.cons hroom .nil))
  exact ⟨hfit, (scan_printed_items hfit 0 0).1.2.2⟩

end FormatScan.RoundTrip
