import FormatScan.Proofs.Format.Layout
import FormatScan.Proofs.RoundTrip.Item

/-!
# Printing items

An item's directive prints the item's text and takes the item's operand. The
fields of numbers have neither a width nor a precision, so they are nothing but
sign, mark and digits. A list of items is printed as its texts with a space
between each two of them.
-/

namespace FormatScan.RoundTrip

open Numeral Format

/-- The directive of an item as the formatter reads it. -/
def Item.printed : Item → Format.Directive
  | signed _ => ⟨[.length .l, .length .l], .signed 10⟩
  | unsigned radix _ =>
    ⟨(if radix.marked then [.alternate] else []) ++ [.length .l, .length .l],
      .unsigned radix.base false⟩
  | address _ => ⟨[], .pointer⟩
  | word _ => ⟨[], .text⟩

/-- Two letters `l` go in front of the directive behind them. -/
theorem read_longLong {c : UInt8} (hz : c ≠ 0) (hd : ¬Byte.isDigit c = true)
    (hm : Modifier.ofByte? c = none) (more : Bytes) :
    Format.Directive.read false (0x6C :: 0x6C :: c :: more) =
      (⟨[.length .l, .length .l], Format.Conversion.ofByte c⟩, more) := by
  have hdigit : ¬(Byte.isDigit c && (false || c != 0x30)) = true := by
    rw [Bool.and_eq_true]
    exact fun h => hd h.1
  have hl : Modifier.ofByte? 0x6C = some (.length .l) := by decide
  rw [Directive.read_modifier (by decide) (by decide) hl,
    Directive.read_modifier (by decide) (by decide) hl]
  have hlast := Directive.read_conversion hz hdigit hm more
  have hdot : (false || Modifier.length .l == Modifier.dot) = false := by decide
  rw [hdot, hdot, hlast]
  rfl

/-- The formatter reads the directive of an item from its letters. -/
theorem Item.read_letters (item : Item) (more : Bytes) :
    Format.Directive.read false (item.letters ++ more) = (item.printed, more) := by
  have hmark : ∀ rest, Format.Directive.read false (0x23 :: rest) =
      ((Format.Directive.read false rest).1.cons .alternate,
        (Format.Directive.read false rest).2) := by
    intro rest
    exact Directive.read_modifier (by decide) (by decide) (by decide) rest
  have hwide : ∀ radix : Radix,
      Format.Directive.read false (0x6C :: 0x6C :: radix.letter :: more) =
        (⟨[.length .l, .length .l], .unsigned radix.base false⟩, more) := by
    intro radix
    cases radix with
    | decimal => exact read_longLong (c := 0x75) (by decide) (by decide) (by decide) more
    | hex marked => exact read_longLong (c := 0x78) (by decide) (by decide) (by decide) more
    | octal marked => exact read_longLong (c := 0x6F) (by decide) (by decide) (by decide) more
  cases item with
  | signed value => exact read_longLong (by decide) (by decide) (by decide) more
  | unsigned radix value =>
    by_cases hm : radix.marked = true
    · simp only [letters, printed, hm, if_true, List.cons_append, List.nil_append]
      rw [hmark, hwide]
      rfl
    · simp only [letters, printed, hm]
      exact hwide radix
  | address value => exact Directive.read_conversion (by decide) (by decide) (by decide) more
  | word token => exact Directive.read_conversion (by decide) (by decide) (by decide) more

/-- A number field without a width and a precision is sign, mark and digits. -/
theorem stream_numberField {settings : Settings} (hw : settings.width = 0)
    (hp : settings.precision = 0) (hz : settings.zero = false) (base : Nat)
    (negative : Bool) (magnitude : Nat) :
    Piece.stream (numberField settings base false negative magnitude) =
      numberText settings.alternate base negative magnitude := by
  have hsound : settings.Sound :=
    ⟨by rw [hw], by rw [hw]; decide, by rw [hp]; decide, fun _ => hp⟩
  have hfill : ¬(settings.zero = true ∧ settings.left = false) := by
    rw [hz]
    exact fun h => Bool.false_ne_true h.1
  have hlaid := laysOut_numberField hsound base false negative magnitude
  rw [LaysOut, if_neg hfill] at hlaid
  obtain ⟨zeros, hzeros, hpads⟩ := hlaid
  have hnone : zeros = 0 := by omega
  rw [hpads.eq_body (by omega), hnone, numberText, List.append_assoc]
  rfl

/-- The text of a token is printed whole, since it holds no zero byte. -/
theorem stream_textField (token : Token) :
    Piece.stream (textField {} (some token.bytes)) = token.bytes := by
  have hwhole : keptText {} (some token.bytes) = token.bytes := by
    change untilZero token.bytes = token.bytes
    rw [untilZero, List.takeWhile_eq_self_iff]
    intro c hc
    simpa using (token.plain c hc).2
  have hpads := pads_textField Settings.sound_start (some token.bytes)
  rw [hwhole] at hpads
  exact hpads.eq_body (Int.natCast_nonneg _)

/-- The directive of an item takes the item's operand and adds the item's
text. -/
theorem Item.exists_perform_printed (item : Item) (used pending : List FormatArg)
    (produced : Nat) :
    ∃ pieces, item.printed.perform ⟨⟨used, item.operand :: pending⟩, produced⟩ =
        .ok (pieces, ⟨used ++ [item.operand], pending⟩) ∧
      Piece.stream pieces = item.text := by
  cases item with
  | signed value =>
    refine ⟨numberField { length := { longLong := true } } 10 false
      ((OperandWidth.longLong.signed value.toUInt64) < 0)
      (OperandWidth.longLong.signed value.toUInt64).natAbs, rfl, ?_⟩
    rw [stream_numberField rfl rfl rfl, signed_longLong]
    rfl
  | unsigned radix value =>
    refine ⟨numberField { alternate := radix.marked, length := { longLong := true } } radix.base
      false false (OperandWidth.longLong.unsigned value), ?_, ?_⟩
    · cases hm : radix.marked with
      | true =>
        simp only [printed, hm, if_true]
        rfl
      | false =>
        simp only [printed, hm]
        rfl
    · rw [stream_numberField rfl rfl rfl, unsigned_longLong]
      rfl
  | address value =>
    refine ⟨numberField { alternate := true } 16 false false value.toNat, rfl, ?_⟩
    exact stream_numberField rfl rfl rfl 16 false value.toNat
  | word token => exact ⟨textField {} (some token.bytes), rfl, stream_textField token⟩

/-- The directives that print further items, each behind a space. -/
def furtherPrinters (items : List Item) : Bytes := (items.map Item.directive).flatMap (0x20 :: ·)

/-- Pieces in front of earlier pieces are pieces in front of both. -/
theorem after_after (formatted : Formatted) (first second : List Piece) :
    (formatted.after second).after first = formatted.after (first ++ second) := by
  simp only [Formatted.after, List.append_assoc]

/-- The directive of an item prints its text, and formatting goes on behind
it. -/
theorem exists_run_item (item : Item) (more : Bytes) (used pending : List FormatArg)
    (produced : Nat) :
    ∃ pieces, Piece.stream pieces = item.text ∧
      Format.run (item.directive ++ more) ⟨⟨used, item.operand :: pending⟩, produced⟩ =
        (Format.run more ⟨⟨used ++ [item.operand], pending⟩,
          Piece.countFrom produced pieces⟩).after pieces := by
  obtain ⟨pieces, hperform, hstream⟩ := item.exists_perform_printed used pending produced
  have hnamed : item.printed.conversion ≠ .invalid := by
    cases item <;> simp [Item.printed]
  refine ⟨pieces, hstream, ?_⟩
  rw [Item.directive, List.cons_append, run_directive (item.read_letters more) hnamed hperform]
  rfl

/-- Further items are printed one after the other. -/
theorem exists_run_further (items : List Item) (more : Bytes) (used pending : List FormatArg)
    (produced : Nat) :
    ∃ pieces, Piece.stream pieces = furtherTexts items ∧
      Format.run (furtherPrinters items ++ more)
          ⟨⟨used, items.map Item.operand ++ pending⟩, produced⟩ =
        (Format.run more ⟨⟨used ++ items.map Item.operand, pending⟩,
          Piece.countFrom produced pieces⟩).after pieces := by
  induction items generalizing used produced with
  | nil => exact ⟨[], rfl, by simp [furtherPrinters, Piece.countFrom, Formatted.after]⟩
  | cons item items ih =>
    have hformat : furtherPrinters (item :: items) ++ more =
        0x20 :: (item.directive ++ (furtherPrinters items ++ more)) := by
      simp [furtherPrinters]
    obtain ⟨first, hfirst, hitem⟩ := exists_run_item item (furtherPrinters items ++ more) used
      (items.map Item.operand ++ pending) (Piece.countFrom produced [.text [0x20]])
    obtain ⟨others, hothers, hrun⟩ := ih (used ++ [item.operand])
      (Piece.countFrom (Piece.countFrom produced [.text [0x20]]) first)
    refine ⟨.text [0x20] :: (first ++ others), ?_, ?_⟩
    · rw [Piece.stream_cons, Piece.stream_append, hfirst, hothers]
      rfl
    · rw [hformat, run_literal (by decide) (by decide)]
      dsimp only [Format.Progress.add]
      rw [List.map_cons, List.cons_append, hitem, hrun, after_after, after_after,
        List.append_assoc, List.singleton_append]
      have hcount : Piece.countFrom produced (.text [0x20] :: (first ++ others)) =
          Piece.countFrom (Piece.countFrom (Piece.countFrom produced [.text [0x20]]) first)
            others := by
        rw [← List.singleton_append, Piece.countFrom_append, Piece.countFrom_append]
      rw [hcount]
      rfl

/-- Items are printed one after the other, with spaces between them. -/
theorem exists_run_items (items : List Item) (more : Bytes) (pending : List FormatArg) :
    ∃ pieces, Piece.stream pieces = spaced (items.map Item.text) ∧
      Format.run (printFormat items ++ more) ⟨.start (items.map Item.operand ++ pending), 0⟩ =
        (Format.run more ⟨⟨items.map Item.operand, pending⟩,
          Piece.countFrom 0 pieces⟩).after pieces := by
  cases items with
  | nil => exact exists_run_further [] more [] pending 0
  | cons item items =>
    have hformat : printFormat (item :: items) ++ more =
        item.directive ++ (furtherPrinters items ++ more) := by
      rw [printFormat, List.map_cons, spaced_cons, List.append_assoc]
      rfl
    obtain ⟨first, hfirst, hitem⟩ := exists_run_item item (furtherPrinters items ++ more) []
      (items.map Item.operand ++ pending) 0
    obtain ⟨others, hothers, hrun⟩ := exists_run_further items more [item.operand] pending
      (Piece.countFrom 0 first)
    refine ⟨first ++ others, ?_, ?_⟩
    · rw [Piece.stream_append, hfirst, hothers, List.map_cons, spaced_cons]
      rfl
    · rw [hformat, Piece.countFrom_append]
      dsimp only [Cursor.start]
      rw [List.map_cons, List.cons_append, hitem, List.nil_append, hrun, after_after]
      rfl

/-- A count directive prints nothing and stores the number of bytes produced. -/
theorem run_print_count (used : List FormatArg) (old : Int64) (produced : Nat) :
    Format.run countDirective ⟨⟨used, [.count old]⟩, produced⟩ =
      ⟨[], ⟨used ++ [.count (Int64.ofNat produced)], []⟩, .ok produced⟩ := by
  have hread : Format.Directive.read false [0x6C, 0x6C, 0x6E] =
      (⟨[.length .l, .length .l], .count⟩, []) :=
    read_longLong (by decide) (by decide) (by decide) []
  have hperform : Format.Directive.perform ⟨[.length .l, .length .l], .count⟩
      ⟨⟨used, [.count old]⟩, produced⟩ =
        .ok ([], ⟨used ++ [.count (Int64.ofNat produced)], []⟩) := by
    rw [← ofInt_signed_ofNat produced]
    rfl
  rw [countDirective, run_directive hread (by decide) hperform, run_nil]
  rfl

/-- A list of items is printed as its joined texts. -/
theorem printAll_items (items : List Item) :
    (printAll (printFormat items) (items.map Item.operand)).sink.bytes =
        spaced (items.map Item.text) ∧
      (printAll (printFormat items) (items.map Item.operand)).result =
        .ok (min (spaced (items.map Item.text)).length Word.largest) := by
  obtain ⟨pieces, hstream, hrun⟩ := exists_run_items items [] []
  rw [List.append_nil, List.append_nil, run_nil] at hrun
  have hformat : Format.format (printFormat items) (items.map Item.operand) =
      ⟨pieces ++ [], ⟨items.map Item.operand, []⟩, .ok (Piece.countFrom 0 pieces)⟩ := hrun
  rw [Piece.countFrom_eq (Nat.zero_le _), Nat.zero_add, hstream, List.append_nil] at hformat
  constructor
  · rw [printAll_bytes, hformat, hstream]
  · exact congrArg Formatted.result hformat

/-- A count behind a list of items prints nothing, and stores the length of the
joined texts. -/
theorem printAll_items_count (items : List Item) (old : Int64) :
    let counted := printAll (printFormat items ++ countDirective)
      (items.map Item.operand ++ [.count old])
    let length := min (spaced (items.map Item.text)).length Word.largest
    counted.sink.bytes = spaced (items.map Item.text) ∧ counted.result = .ok length ∧
      counted.args = items.map Item.operand ++ [.count (Int64.ofNat length)] := by
  intro counted length
  obtain ⟨pieces, hstream, hrun⟩ := exists_run_items items countDirective [.count old]
  rw [run_print_count] at hrun
  have hformat : Format.format (printFormat items ++ countDirective)
      (items.map Item.operand ++ [.count old]) =
        ⟨pieces ++ [], ⟨items.map Item.operand ++
          [.count (Int64.ofNat (Piece.countFrom 0 pieces))], []⟩,
          .ok (Piece.countFrom 0 pieces)⟩ := hrun
  rw [Piece.countFrom_eq (Nat.zero_le _), Nat.zero_add, hstream, List.append_nil] at hformat
  refine ⟨?_, ?_, ?_⟩
  · exact (printAll_bytes _ _).trans (by rw [hformat, hstream])
  · exact congrArg Formatted.result hformat
  · have hargs := congrArg (fun formatted => formatted.operands.all) hformat
    exact hargs.trans (List.append_nil _)

end FormatScan.RoundTrip
