import FormatScan.Proofs.Format.Echo
import FormatScan.Proofs.Format.Layout

/-!
# Zero bytes in an output

A zero byte ends the format and the text of an operand, and no digit, sign, mark or
padding is one. So one conversion alone can put a zero byte into an output, the one that
writes a single byte, and it does so exactly when the lowest byte of its operand is zero.
-/

namespace FormatScan.Format

open Numeral

/-- The directive writes a single byte, and behind its stars the lowest byte of the next
operand is zero. -/
def Directive.PutsZero (directive : Directive) (operands : Operands) : Prop :=
  directive.conversion = .char ∧ ∃ settings used operand pending bits,
    Settings.applyAll {} operands directive.modifiers =
      .ok (settings, ⟨used, operand :: pending⟩) ∧
      operand.bits? = some bits ∧ bits.toUInt8 = 0

/-- A call comes to a directive that puts a zero byte out. -/
def PutsZero (text : Bytes) (args : List FormatArg) : Prop :=
  ∃ rest reached, Comes text ⟨.start args, 0⟩ (0x25 :: rest) reached ∧
    (Directive.read false rest).1.PutsZero reached.operands

/-! ## Fields -/

theorem zero_notMem_untilZero (text : Bytes) : (0 : UInt8) ∉ untilZero text := by
  intro hmem
  have hne := List.mem_takeWhile_imp (p := (· != 0)) hmem
  exact absurd hne (by decide)

theorem zero_notMem_numberField (settings : Settings) {base : Nat} (hb : 2 ≤ base)
    (hb' : base ≤ 36) (upper negative : Bool) (magnitude : Nat) :
    (0 : UInt8) ∉ Piece.stream (numberField settings base upper negative magnitude) := by
  have hdigits : (0 : UInt8) ∉ digits base upper magnitude := by
    intro hmem
    have hdigit := (isNumeral_digits hb hb' upper magnitude).digits 0 hmem
    have hnone : Byte.digitValue? 0 = none := by decide
    rw [Byte.isDigitBelow, hnone] at hdigit
    cases hdigit
  have hmark : (0 : UInt8) ∉ baseMark settings base magnitude := by
    unfold baseMark
    split
    · split
      · decide
      · split <;> decide
    · decide
  have hsign : (0 : UInt8) ∉ (if negative then [0x2D] else [] : Bytes) := by
    cases negative <;> decide
  rw [stream_numberField]
  simp only [List.mem_append, List.mem_replicate, not_or]
  exact ⟨fun h => absurd h.2 (by decide), ⟨hsign, hmark, fun h => absurd h.2 (by decide), hdigits⟩,
    fun h => absurd h.2 (by decide)⟩

theorem zero_notMem_textField (settings : Settings) (value : Option Bytes) :
    (0 : UInt8) ∉ Piece.stream (textField settings value) := by
  have hwhole : ∀ count, (0 : UInt8) ∉ (untilZero (value.getD absentText)).take count :=
    fun count hmem => zero_notMem_untilZero _ (List.mem_of_mem_take hmem)
  have hbyte : (if settings.zero then 0x30 else 0x20 : UInt8) ≠ 0 := by
    cases settings.zero <;> decide
  unfold textField padding
  simp only [Piece.stream_cons, Piece.stream_nil, Piece.bytes, List.append_nil, List.mem_append,
    List.mem_replicate, not_or]
  refine ⟨fun h => hbyte h.2.symm, ?_, fun h => hbyte h.2.symm⟩
  split
  · exact hwhole _
  · exact zero_notMem_untilZero _

/-! ## Directives -/

theorem zero_notMem_integer {settings : Settings} {progress operands : Operands} {base : Nat}
    (hb : 2 ≤ base) (hb' : base ≤ 36) {upper signed : Bool} {pieces : List Piece}
    (h : integer settings progress base upper signed = .ok (pieces, operands)) :
    (0 : UInt8) ∉ Piece.stream pieces := by
  unfold integer at h
  split at h
  · cases h
  · dsimp only at h
    split at h
    all_goals
      cases h
      exact zero_notMem_numberField settings hb hb' _ _ _

/-- Only the conversion that writes a single byte can put a zero byte out. -/
theorem Conversion.zero_notMem_perform {conversion : Conversion}
    (hbase : ∀ base, conversion.base? = some base → 2 ≤ base ∧ base ≤ 36)
    (hc : conversion ≠ .char) {settings : Settings} {progress : Progress} {pieces : List Piece}
    {operands : Operands}
    (h : conversion.perform settings progress = .ok (pieces, operands)) :
    (0 : UInt8) ∉ Piece.stream pieces := by
  cases conversion with
  | char => exact absurd rfl hc
  | percent =>
    cases h
    decide
  | invalid =>
    cases h
    decide
  | signed base | unsigned base upper =>
    exact zero_notMem_integer (hbase base rfl).1 (hbase base rfl).2 h
  | decimal => exact zero_notMem_integer (by decide) (by decide) h
  | pointer =>
    dsimp only [perform] at h
    split at h
    · cases h
      exact zero_notMem_numberField _ (by decide) (by decide) _ _ _
    · cases h
  | text =>
    dsimp only [perform] at h
    split at h
    · cases h
      exact zero_notMem_textField _ _
    · cases h
  | count =>
    dsimp only [perform] at h
    split at h
    · cases h
      decide
    · cases h

/-- A directive of a format puts a zero byte out only as `PutsZero` says. -/
theorem Directive.putsZero_of_perform {text : Bytes} {progress : Progress} {pieces : List Piece}
    {operands : Operands}
    (h : (Directive.read false text).1.perform progress = .ok (pieces, operands))
    (hzero : (0 : UInt8) ∈ Piece.stream pieces) :
    (Directive.read false text).1.PutsZero progress.operands := by
  unfold Directive.perform at h
  cases happly : Settings.applyAll {} progress.operands (Directive.read false text).1.modifiers with
  | error error =>
    rw [happly] at h
    cases h
  | ok settled =>
    obtain ⟨settings, ⟨used, pending⟩⟩ := settled
    rw [happly] at h
    dsimp only at h
    by_cases hchar : (Directive.read false text).1.conversion = .char
    · rw [hchar] at h
      rcases takeBits_cases pending with ⟨operand, rest, bits, rfl, hbits⟩ | ⟨error, hfail⟩
      · dsimp only [Conversion.perform] at h
        rw [takeBits_eq hbits] at h
        cases h
        refine ⟨hchar, settings, used, operand, rest, bits, happly, hbits, ?_⟩
        exact (List.mem_singleton.mp hzero).symm
      · dsimp only [Conversion.perform] at h
        rw [hfail] at h
        cases h
    · exact absurd hzero (Conversion.zero_notMem_perform (fun base => base_of_read) hchar h)

/-- A directive that puts a zero byte out puts out nothing else. -/
theorem Directive.PutsZero.exists_perform {directive : Directive} {progress : Progress}
    (h : directive.PutsZero progress.operands) :
    ∃ operands, directive.perform progress = .ok ([Piece.text [0]], operands) := by
  obtain ⟨hchar, settings, used, operand, pending, bits, happly, hbits, hzero⟩ := h
  refine ⟨⟨used ++ [operand], pending⟩, ?_⟩
  rw [Directive.perform, happly]
  dsimp only
  rw [hchar]
  dsimp only [Conversion.perform]
  rw [takeBits_eq hbits]
  dsimp only
  rw [hzero]

/-! ## Calls -/

/-- A run that puts a zero byte out comes to a directive that does. -/
theorem exists_comes_of_zero_mem {text : Bytes} {progress : Progress}
    (h : (0 : UInt8) ∈ Piece.stream (run text progress).pieces) :
    ∃ rest reached, Comes text progress (0x25 :: rest) reached ∧
      (Directive.read false rest).1.PutsZero reached.operands := by
  -- what a literal or a directive puts out stands in front of what the rest of the run does
  fun_induction run text progress with
  | case1 => cases h
  | case2 => cases h
  | case3 progress c rest hz hp pieces ih =>
    have hz' : c ≠ 0 := by simpa using hz
    have hp' : c ≠ 0x25 := by simpa using hp
    rw [Formatted.after, Piece.stream_append, List.mem_append] at h
    rcases h with hhead | hrest
    · exact absurd (List.mem_singleton.mp hhead).symm hz'
    · obtain ⟨later, reached, way, hputs⟩ := ih hrest
      exact ⟨later, reached, .literal hz' hp' way, hputs⟩
  | case4 => cases h
  | case5 =>
    rw [Piece.stream_cons, Piece.stream_nil, List.append_nil] at h
    exact absurd h (zero_notMem_untilZero _)
  | case6 progress c rest hz hp read pieces operands hperform hn ih =>
    have hc : c = 0x25 := by simpa using hp
    have hn' : read.1.conversion ≠ .invalid := by simpa using hn
    rw [Formatted.after, Piece.stream_append, List.mem_append] at h
    rw [hc]
    rcases h with hhead | hrest
    · exact ⟨rest, progress, .start, Directive.putsZero_of_perform hperform hhead⟩
    · obtain ⟨later, reached, way, hputs⟩ := ih hrest
      exact ⟨later, reached, .directive rfl hn' hperform way, hputs⟩

/-- What is put out at a place that a run comes to is put out by the run. -/
theorem Comes.mem_stream {text later : Bytes} {progress reached : Progress}
    (way : Comes text progress later reached) {byte : UInt8}
    (h : byte ∈ Piece.stream (run later reached).pieces) :
    byte ∈ Piece.stream (run text progress).pieces := by
  obtain ⟨front, taken, pieces, htext, hpending, _, hrun⟩ := way.exists_front
  have hwhole : run text progress = (run later reached).after pieces := by
    rw [htext]
    have hgoes := hrun later reached.operands.pending
    rwa [← hpending] at hgoes
  rw [hwhole, Formatted.after, Piece.stream_append]
  exact List.mem_append_right _ h

/-- An output has a zero byte exactly when the call comes to a directive that writes a single
byte, and the lowest byte of its operand is zero. -/
theorem zero_mem_printAll_iff {text : Bytes} {args : List FormatArg} :
    (0 : UInt8) ∈ (printAll text args).sink.bytes ↔ PutsZero text args := by
  rw [printAll_bytes]
  refine ⟨exists_comes_of_zero_mem, ?_⟩
  rintro ⟨rest, reached, way, hputs⟩
  obtain ⟨operands, hperform⟩ := hputs.exists_perform
  have hnamed : (Directive.read false rest).1.conversion ≠ .invalid := by
    rw [hputs.1]
    exact Conversion.noConfusion
  refine way.mem_stream ?_
  rw [run_directive rfl hnamed hperform, Formatted.after, Piece.stream_append]
  exact List.mem_append_left _ List.mem_cons_self

end FormatScan.Format
