import FormatScan.Proofs.Machine.Directive
import FormatScan.Proofs.Machine.Layout

/-!
# Formatting by position

The format is walked by position. Every step moves the position on, and a zero, or
the end, stops it. An invalid directive is echoed by the slice from its percent sign
to where reading it stopped; from there on percent signs are bytes like any other.
-/

namespace FormatScan.Machine

open Format

/-- Write an integer operand. -/
def writeInteger (out : Output) (settings : Settings) (operands : Operands) (base : Nat)
    (upper signed : Bool) : Checked (Except FormatError (Output × Operands)) :=
  andThen (takeBits operands) fun taken => do
    let width := settings.length.forOperand
    let bits :=
      if signed then (Int64.ofInt (width.signed taken.1)).toUInt64
      else UInt64.ofNat (width.unsigned taken.1)
    let out ← number out settings base upper signed bits
    return .ok (out, taken.2)

/-- Carry out a conversion whose modifiers are settled. -/
def convert (out : Output) (settings : Settings) (operands : Operands) :
    Conversion → Checked (Except FormatError (Output × Operands))
  | .percent => do
    let out ← put out 0x25
    return .ok (out, operands)
  | .char =>
    andThen (takeBits operands) fun taken => do
      let out ← put out taken.1.toUInt8
      return .ok (out, taken.2)
  | .signed base => writeInteger out settings operands base false true
  | .unsigned base upper => writeInteger out settings operands base upper false
  | .decimal => writeInteger out settings operands 10 false settings.plus
  | .pointer =>
    andThen (takeBits operands) fun taken => do
      let marked := { settings with alternate := settings.width == 0 }
      let out ← number out marked 16 false false taken.1
      return .ok (out, taken.2)
  | .text =>
    andThen (takeText operands) fun taken => do
      let out ← string out settings taken.1
      return .ok (out, taken.2)
  | .count =>
    andThen (storeCount operands (settings.length.forCount.signed (UInt64.ofNat out.produced)))
      fun stored => return .ok (out, stored.2)
  | .invalid => .ok (.ok (out, operands))

/-- The outcome of formatting. -/
structure Ended where
  /-- The output. -/
  out : Output
  /-- The operands afterwards. -/
  operands : Operands
  /-- Why formatting ended early, if it did. -/
  result : Except FormatError Unit

/-- Format from a position on. Behind an invalid directive `stop` says that percent
signs stand for themselves. -/
def run (format : Bytes) (i : Nat) (stop : Bool) (out : Output) (operands : Operands) :
    Checked Ended :=
  let c := byteAt format i
  if c == 0 then .ok ⟨out, operands, .ok ()⟩
  else reach format (i + 1) fun _ =>
    if c != 0x25 || stop then do
      let out ← put out c
      run format (i + 1) stop out operands
    else do
      let percent ← sub (i + 1) 1
      match ← parse format (i + 1) {} operands with
      | .error e => return ⟨out, operands, .error e⟩
      | .ok parsed =>
        require (i < parsed.next) .boundBroken fun _ =>
          if parsed.conversion == .invalid then do
            let echo ← slice format percent parsed.next
            let out ← putAll out echo
            run format parsed.next true out parsed.operands
          else do
            match ← convert out parsed.settings parsed.operands parsed.conversion with
            | .error e => return ⟨out, operands, .error e⟩
            | .ok done => run format parsed.next stop done.1 done.2
termination_by format.length - i

/-- Format into a sink. -/
def printTo (sink : Sink) (format : Bytes) (args : List FormatArg) : Checked Printed := do
  let ended ← run format 0 false ⟨sink, 0⟩ (.start args)
  let sink ← finish ended.out.sink
  return ⟨sink, ended.operands.all, ended.result.map fun _ => ended.out.produced⟩

/-- The operands of a call, and the texts among them, are no longer than memory allows. -/
structure OperandsFit (args : List FormatArg) : Prop where
  /-- The list of operands. -/
  args_fit : Fits args
  /-- The texts in it. -/
  texts_fit : ∀ text, .text (some text) ∈ args → Fits text

/-- A text that is taken is one of the operands. -/
theorem mem_of_takeText {operands : Operands} {taken : Option Bytes × Operands}
    (h : operands.takeText = .ok taken) : .text taken.1 ∈ operands.all := by
  obtain ⟨used, pending⟩ := operands
  unfold Operands.takeText Cursor.take at h
  cases pending with
  | nil => cases h
  | cons arg rest =>
    cases arg with
    | text value =>
      cases h
      exact List.mem_append_right used List.mem_cons_self
    | _ => cases h

/-- Marks are left in operands of their own, and bring no new text. -/
theorem mem_of_mem_leave {marks : List Mark} {args : List FormatArg} {text : Option Bytes}
    (h : .text text ∈ leave marks args) : .text text ∈ args := by
  unfold leave at h
  induction marks generalizing args with
  | nil => simpa using h
  | cons mark marks ih =>
    cases args with
    | nil => simp at h
    | cons arg args =>
      rw [List.zipWith_cons_cons, List.cons_append, List.length_cons, List.drop_succ_cons,
        List.mem_cons] at h
      rcases h with hfirst | hrest
      · cases mark with
        | value =>
          rw [hfirst]
          exact List.mem_cons_self
        | count width produced => cases hfirst
      · exact List.mem_cons_of_mem arg (ih hrest)

/-- A directive keeps the operands within what memory allows. -/
theorem OperandsFit.perform {directive : Directive} {progress : Progress} {pieces : List Piece}
    {left : Operands} (h : OperandsFit progress.operands.all)
    (hperform : directive.perform progress = .ok (pieces, left)) : OperandsFit left.all := by
  obtain ⟨⟨used, pending⟩, produced⟩ := progress
  cases directive.acts pending with
  | takes taken rest pieces' hmarks hstep =>
    rw [hstep] at hperform
    cases hperform
    constructor
    · have hfits := h.args_fit
      unfold Fits Cursor.all at *
      simpa [length_leave] using hfits
    · intro text hmem
      refine h.texts_fit text ?_
      unfold Cursor.all at *
      simp only [List.mem_append] at hmem ⊢
      rcases hmem with (hused | htaken) | hrest
      · exact Or.inl hused
      · exact Or.inr (Or.inl (mem_of_mem_leave htaken))
      · exact Or.inr (Or.inr hrest)
  | fails _ error hstep =>
    rw [hstep] at hperform
    cases hperform

section Conversions

variable {out : Output} (hout : out.Sound) {operands : Operands}

include hout

/-- Writing an integer operand meets no fault. -/
theorem writeInteger_eq (hfits : Fits operands.all) (settings : Settings) {base : Nat}
    (hb : 2 ≤ base) (hb' : base ≤ 36) (upper signed : Bool) :
    writeInteger out settings operands base upper signed =
      .ok ((integer settings operands base upper signed).map (Prod.map out.write id)) := by
  rw [writeInteger, integer, takeBits_eq_ok hfits]
  cases operands.takeBits with
  | error e => rfl
  | ok taken =>
    rw [andThen_ok]
    dsimp only
    cases signed with
    | true =>
      obtain ⟨hleast, hgreatest⟩ := signed_range settings.length.forOperand taken.1
      rw [if_pos rfl, if_pos rfl, number_signed hout hb hb' settings upper hleast hgreatest]
      rfl
    | false =>
      have hvalue : (UInt64.ofNat (settings.length.forOperand.unsigned taken.1)).toNat =
          settings.length.forOperand.unsigned taken.1 :=
        UInt64.toNat_ofNat_of_lt' (Nat.lt_succ_of_le (unsigned_le _ _))
      rw [if_neg Bool.false_ne_true, if_neg Bool.false_ne_true,
        number_unsigned hout hb hb', hvalue]
      rfl

/-- Carrying out a conversion meets no fault. -/
theorem convert_eq (hargs : OperandsFit operands.all) (settings : Settings)
    {conversion : Conversion}
    (hbase : ∀ base, conversion.base? = some base → 2 ≤ base ∧ base ≤ 36) :
    convert out settings operands conversion =
      .ok ((conversion.perform settings ⟨operands, out.produced⟩).map
        (Prod.map out.write id)) := by
  have hbits := takeBits_eq_ok hargs.args_fit
  have hnone : ∀ left : Operands, (.ok (.ok (out, left)) : Checked (Except FormatError _)) =
      .ok (.ok (out.write [], left)) := fun left => rfl
  cases conversion with
  | percent =>
    rw [convert, put_eq hout]
    rfl
  | char =>
    rw [convert, hbits, Conversion.perform]
    cases operands.takeBits with
    | error e => rfl
    | ok taken =>
      rw [andThen_ok, put_eq hout]
      rfl
  | signed base =>
    obtain ⟨hb, hb'⟩ := hbase base rfl
    exact writeInteger_eq hout hargs.args_fit settings hb hb' false true
  | unsigned base upper =>
    obtain ⟨hb, hb'⟩ := hbase base rfl
    exact writeInteger_eq hout hargs.args_fit settings hb hb' upper false
  | decimal =>
    exact writeInteger_eq hout hargs.args_fit settings (by decide) (by decide) false settings.plus
  | pointer =>
    rw [convert, hbits, Conversion.perform]
    cases operands.takeBits with
    | error e => rfl
    | ok taken =>
      rw [andThen_ok]
      dsimp only
      rw [number_unsigned hout (by decide) (by decide)]
      rfl
  | text =>
    have htake : takeText operands = .ok operands.takeText :=
      takeNext_eq hargs.args_fit (fun arg => by cases arg <;> rfl)
    rw [convert, htake, Conversion.perform]
    cases htaken : operands.takeText with
    | error e => rfl
    | ok taken =>
      have hfits : ∀ text, taken.1 = some text → Fits text := by
        intro text htext
        have hmem := mem_of_takeText htaken
        rw [htext] at hmem
        exact hargs.texts_fit text hmem
      rw [andThen_ok, string_eq hout settings hfits]
      rfl
  | count =>
    have hstore : ∀ count, storeCount operands count = .ok (operands.storeCount count) :=
      fun count => takeNext_eq hargs.args_fit (fun arg => by cases arg <;> rfl)
    rw [convert, hstore, Conversion.perform]
    dsimp only
    cases operands.storeCount _ with
    | error e => rfl
    | ok stored => exact hnone stored.2
  | invalid => exact hnone operands

end Conversions

section Running

variable {format rest : Bytes} {i : Nat} {out : Output}

/-- At a zero, and at the end, formatting stops. -/
theorem run_ended (h : byteAt format i = 0) (stop : Bool) (out : Output) (operands : Operands) :
    run format i stop out operands = .ok ⟨out, operands, .ok ()⟩ := by
  rw [run, h, if_pos (by rfl)]

/-- A byte that stands for itself is written. -/
theorem run_plain {c : UInt8} (hfits : Fits format) (h : At format i (c :: rest))
    (hout : out.Sound) (hz : c ≠ 0) {stop : Bool} (hplain : (c != 0x25 || stop) = true)
    (operands : Operands) :
    run format i stop out operands =
      run format (i + 1) stop (out.write [.text [c]]) operands := by
  rw [run, h.byteAt_eq, if_neg (by simpa using hz), h.next.reach_eq hfits, if_pos hplain,
    put_eq hout, ok_bind]

/-- Behind an invalid directive every byte stands for itself. -/
theorem run_stopped (hfits : Fits format) (h : At format i rest) (hout : out.Sound)
    (operands : Operands) :
    run format i true out operands =
      .ok ⟨out.write [.text (untilZero rest)], operands, .ok ()⟩ := by
  have hended : ∀ {out : Output}, out.Sound → out.write [.text []] = out :=
    fun hout => hout.write_nothing rfl
  induction rest generalizing i out with
  | nil =>
    rw [run_ended h.byteAt_nil]
    unfold untilZero
    rw [List.takeWhile_nil, hended hout]
  | cons c rest ih =>
    unfold untilZero at ih ⊢
    by_cases hz : c = 0
    · subst hz
      rw [run_ended h.byteAt_eq, List.takeWhile_cons_of_neg (by decide), hended hout]
    · have hjoin : out.write ([.text [c]] ++ [.text (rest.takeWhile (· != 0))]) =
          out.write [.text (c :: rest.takeWhile (· != 0))] :=
        hout.write_congr (by simp [Piece.bytes])
      rw [run_plain hfits h hout hz (Bool.or_true _), ih h.next (hout.write _),
        Output.write_append, hjoin, List.takeWhile_cons_of_pos (by simpa using hz)]

/-- An invalid directive is echoed, and nothing is a directive any more. -/
theorem run_echo (hfits : Fits format) {front after : Bytes}
    (h : At format i (0x25 :: front ++ after)) {j : Nat} (hat : At format j after)
    (hzero : 0 ∉ front) (hout : out.Sound) (operands : Operands) :
    (do
      let echo ← slice format i j
      let out ← putAll out echo
      run format j true out operands) =
      .ok ⟨out.write [.text (untilZero (0x25 :: front ++ after))], operands, .ok ()⟩ := by
  have hnonzero : ∀ c ∈ 0x25 :: front, (c != 0) = true := by
    intro c hc
    rw [bne_iff_ne]
    rintro rfl
    rcases List.mem_cons.mp hc with hc | hc
    · exact absurd hc (by decide)
    · exact hzero hc
  have hjoin : out.write ([.text (0x25 :: front)] ++ [.text (untilZero after)]) =
      out.write [.text (untilZero (0x25 :: front ++ after))] := by
    refine hout.write_congr ?_
    unfold untilZero
    rw [List.takeWhile_append_of_pos hnonzero]
    simp [Piece.bytes]
  rw [h.slice_front hat, ok_bind, putAll_eq hout, ok_bind,
    run_stopped hfits hat (hout.write _), Output.write_append, hjoin]

/-- A directive is carried out behind its percent sign, and an invalid one is echoed. -/
theorem run_directive_eq (hfits : Fits format) (h : At format i (0x25 :: rest))
    (hout : out.Sound) {operands : Operands} (hargs : OperandsFit operands.all) :
    run format i false out operands =
      match (Directive.read false rest).1.perform ⟨operands, out.produced⟩ with
      | .error e => .ok ⟨out, operands, .error e⟩
      | .ok (pieces, left) =>
        if (Directive.read false rest).1.conversion == .invalid then
          .ok ⟨out.write [.text (untilZero (0x25 :: rest))], left, .ok ()⟩
        else
          run format (format.length - (Directive.read false rest).2.length) false
            (out.write pieces) left := by
  have hparse : parse format (i + 1) {} operands =
      .ok ((Settings.applyAll {} operands (Directive.read false rest).1.modifiers).map
        fun settled => ⟨(Directive.read false rest).1.conversion, settled.1, settled.2,
          format.length - (Directive.read false rest).2.length⟩) :=
    parse_eq hfits h.next {} hargs.args_fit
  obtain ⟨front, hrest, hzero⟩ := exists_front_of_read false rest
  obtain ⟨hat, hle⟩ := h.next.behind ⟨front, hrest.symm⟩
  rw [run, h.byteAt_eq, if_neg (by decide), h.next.reach_eq hfits, if_neg (by decide),
    sub_eq (Nat.le_add_left 1 i), Nat.add_sub_cancel i 1, ok_bind, hparse, ok_bind,
    Directive.perform]
  dsimp only
  cases happly : Settings.applyAll {} operands (Directive.read false rest).1.modifiers with
  | error e => rfl
  | ok settled =>
    have hkept : OperandsFit settled.2.all := by rwa [all_of_applyAll happly]
    dsimp only [Except.map]
    rw [require_of (by omega)]
    by_cases hinvalid : (Directive.read false rest).1.conversion = .invalid
    · have hfront : 0x25 :: front ++ (Directive.read false rest).2 = 0x25 :: rest := by
        rw [List.cons_append, ← hrest]
      have hecho := run_echo hfits (hfront ▸ h) hat hzero hout settled.2
      rw [hfront] at hecho
      rw [hinvalid, if_pos (by rfl), hecho, Conversion.perform]
      rfl
    · have hnamed : ¬((Directive.read false rest).1.conversion == .invalid) = true := by
        simpa using hinvalid
      rw [if_neg hnamed, convert_eq hout hkept settled.1 (fun base => Directive.base_of_read), ok_bind]
      cases (Directive.read false rest).1.conversion.perform settled.1
        ⟨settled.2, out.produced⟩ with
      | error e => rfl
      | ok done => exact (if_neg hnamed).symm

/-- Formatting by position meets no fault, and yields what formatting yields. -/
theorem run_eq (hfits : Fits format) (h : At format i rest) (hout : out.Sound)
    (progress : Progress) (hproduced : progress.produced = out.produced)
    (hargs : OperandsFit progress.operands.all) :
    run format i false out progress.operands =
      .ok ⟨out.write (Format.run rest progress).pieces, (Format.run rest progress).operands,
        (Format.run rest progress).result.map fun _ => ()⟩ := by
  induction rest, progress using Format.run.induct generalizing i out with
  | case1 progress =>
    rw [run_ended h.byteAt_nil, run_nil]
    rfl
  | case2 progress c rest hz =>
    rw [beq_iff_eq] at hz
    subst hz
    rw [run_ended h.byteAt_eq, run_zero]
    rfl
  | case3 progress c rest hz hp pieces =>
    rename_i ih
    have hc : c ≠ 0 := by simpa using hz
    have hproduced' : (progress.add [Piece.text [c]]).produced =
        (out.write [Piece.text [c]]).produced := by
      rw [Progress.add, hproduced]
      rfl
    rw [run_plain hfits h hout hc (by rw [hp]; rfl)]
    refine (ih h.next (hout.write _) hproduced' hargs).trans ?_
    rw [run_literal hc (by simpa using hp), Output.write_append]
    rfl
  | case4 progress c rest hz hp read error =>
    rename_i hperform
    have hc : c = 0x25 := by simpa using hp
    subst hc
    rw [run_directive_eq hfits h hout hargs, ← hproduced, hperform, run_failed hperform]
    rfl
  | case5 progress c rest hz hp read pieces left hperform =>
    rename_i hinvalid
    have hc : c = 0x25 := by simpa using hp
    subst hc
    rw [run_directive_eq hfits h hout hargs, ← hproduced, hperform,
      run_invalid (by simpa using hinvalid) hperform]
    exact if_pos hinvalid
  | case6 progress c rest hz hp read pieces left hperform hnamed =>
    rename_i ih
    have hc : c = 0x25 := by simpa using hp
    subst hc
    obtain ⟨front, hrest, -⟩ := exists_front_of_read false rest
    obtain ⟨hat, -⟩ := h.next.behind ⟨front, hrest.symm⟩
    have hproduced' : (progress.add pieces).produced = (out.write pieces).produced := by
      rw [Progress.add, hproduced]
      rfl
    rw [run_directive_eq hfits h hout hargs, ← hproduced, hperform,
      run_directive (Prod.eta _).symm (by simpa using hnamed) hperform]
    dsimp only
    rw [if_neg hnamed]
    refine (ih hat (hout.write _) hproduced' (hargs.perform hperform)).trans ?_
    rw [Output.write_append]
    rfl

end Running

/-- Formatting into a sink meets no fault, whatever the format and the operands are,
and yields what formatting yields. -/
theorem printTo_eq {sink : Sink} {format : Bytes} {args : List FormatArg}
    (hsink : SinkFits sink) (hfits : Fits format) (hargs : OperandsFit args) :
    printTo sink format args = .ok (Format.printTo sink format args) := by
  have hout : Output.Sound ⟨sink, 0⟩ := ⟨hsink, Nat.zero_le _⟩
  have hrun : run format 0 false ⟨sink, 0⟩ (.start args) =
      .ok ⟨Output.write ⟨sink, 0⟩ (Format.format format args).pieces,
        (Format.format format args).operands,
        (Format.format format args).result.map fun _ => ()⟩ :=
    run_eq hfits (At.start format) hout ⟨.start args, 0⟩ rfl hargs
  rw [printTo, hrun, ok_bind]
  dsimp only
  rw [finish_eq, ok_bind, Format.printTo]
  cases hresult : (Format.format format args).result with
  | error e => rfl
  | ok length =>
    rw [produced_of_run_ok hresult]
    rfl

end FormatScan.Machine
