import FormatScan.Format.Render
import FormatScan.Proofs.Format.Modifiers

/-!
# What a directive takes

A directive looks at the operands in front of it and at nothing else: not at those
taken before, not at those behind the ones it takes. Stars and conversions alike
leave a value as it is, and only a count slot holds something else afterwards. What
it holds then depends on the number of bytes produced, and this is the one thing
that shows where in the output a directive stands.

So a directive either takes operands and leaves them as its marks say, wherever
those operands stand, or it fails at one of them, and then the index in its error
counts from the first operand that was not taken before.
-/

namespace FormatScan.Format

/-- What a directive leaves in an operand that it takes. -/
inductive Mark where
  /-- The operand as it was. -/
  | value
  /-- The number of bytes produced, narrowed to a width. -/
  | count (width : OperandWidth) (produced : Nat)
deriving DecidableEq, Repr

/-- What an operand holds once a directive has taken it. -/
def Mark.leaves : Mark → FormatArg → FormatArg
  | value, arg => arg
  | count width produced, _ => .count (Int64.ofInt (width.signed (UInt64.ofNat produced)))

/-- The same mark behind some more output. -/
def Mark.behind (ahead : Nat) : Mark → Mark
  | value => value
  | count width produced => count width (Word.satAdd ahead produced)

/-- A list of operands once marks have been left in the first of them. -/
def leave (marks : List Mark) (args : List FormatArg) : List FormatArg :=
  List.zipWith Mark.leaves marks args ++ args.drop marks.length

/-- Without marks the operands stay as they are. -/
theorem leave_nil (args : List FormatArg) : leave [] args = args := by
  simp [leave]

/-- Marks go with their own operands. -/
theorem leave_append {marks : List Mark} {args : List FormatArg} (h : marks.length = args.length)
    (marks' : List Mark) (args' : List FormatArg) :
    leave (marks ++ marks') (args ++ args') = leave marks args ++ leave marks' args' := by
  have hdrop : args.drop marks.length = [] := by rw [h, List.drop_length]
  have hbehind : (args ++ args').drop (marks ++ marks').length = args'.drop marks'.length := by
    rw [List.length_append, h, List.drop_append]
    simp
  unfold leave
  rw [List.zipWith_append h, hbehind, hdrop, List.append_nil, List.append_assoc]

/-- Leaving marks keeps the number of operands. -/
theorem length_leave (marks : List Mark) (args : List FormatArg) :
    (leave marks args).length = args.length := by
  have hlength : min marks.length args.length + (args.length - marks.length) = args.length := by
    omega
  rw [leave, List.length_append, List.length_zipWith, List.length_drop, hlength]

/-- Operands that are only looked at stay as they are. -/
theorem leave_values (args : List FormatArg) :
    leave (List.replicate args.length .value) args = args := by
  induction args with
  | nil => rfl
  | cons arg args ih =>
    have hone : leave [.value] [arg] = [arg] := rfl
    have happend : leave ([.value] ++ List.replicate args.length .value) ([arg] ++ args) =
        leave [.value] [arg] ++ leave (List.replicate args.length .value) args :=
      leave_append rfl _ _
    rw [hone, ih] at happend
    exact happend

/-- A place in a list of operands behind some more of them. -/
def shiftArgument (index : Nat) : FormatError → FormatError
  | .missingArgument i => .missingArgument (index + i)
  | .argumentMismatch i expected found => .argumentMismatch (index + i) expected found
  | .unterminatedScanSet offset => .unterminatedScanSet offset

/-- Places behind one list and then behind another are places behind both. -/
theorem shiftArgument_add (i j : Nat) (error : FormatError) :
    shiftArgument (i + j) error = shiftArgument i (shiftArgument j error) := by
  cases error <;> simp [shiftArgument, Nat.add_assoc]

/-- Taking an integer finds one in front, or fails at its place. -/
theorem takeBits_cases (pending : List FormatArg) :
    (∃ arg rest bits, pending = arg :: rest ∧ arg.bits? = some bits) ∨
      ∃ error, ∀ used, Operands.takeBits ⟨used, pending⟩ =
        .error (shiftArgument used.length error) := by
  cases pending with
  | nil => exact Or.inr ⟨.missingArgument 0, fun used => rfl⟩
  | cons arg rest =>
    cases hbits : arg.bits? with
    | some bits => exact Or.inl ⟨arg, rest, bits, rfl, hbits⟩
    | none =>
      refine Or.inr ⟨.argumentMismatch 0 .integer arg.kind, fun used => ?_⟩
      unfold Operands.takeBits Cursor.take
      dsimp only
      rw [hbits]
      rfl

/-- Modifiers find an integer in front for every star, or fail at the place of the
first that they miss. -/
theorem Settings.applyAll_cases (modifiers : List Modifier) (settings : Settings)
    (pending : List FormatArg) :
    (∃ stars rest, pending = stars ++ rest ∧ stars.length = modifiers.count .star ∧
        ∀ star ∈ stars, star.bits?.isSome = true) ∨
      ∃ error, ∀ used, settings.applyAll ⟨used, pending⟩ modifiers =
        .error (shiftArgument used.length error) := by
  induction modifiers generalizing settings pending with
  | nil => exact Or.inl ⟨[], pending, rfl, rfl, by simp⟩
  | cons modifier modifiers ih =>
    by_cases hstar : modifier = .star
    · subst hstar
      rcases takeBits_cases pending with ⟨arg, rest, bits, rfl, hbits⟩ | ⟨error, hfail⟩
      · rcases ih (settings.setStar (OperandWidth.int.signed bits)) rest with
          ⟨stars, rest', rfl, hlength, hstars⟩ | ⟨error, hfail⟩
        · refine Or.inl ⟨arg :: stars, rest', rfl, ?_, ?_⟩
          · rw [List.length_cons, hlength, List.count_cons_self]
          · intro star hs
            rcases List.mem_cons.mp hs with rfl | hs
            · rw [hbits]
              rfl
            · exact hstars star hs
        · refine Or.inr ⟨shiftArgument 1 error, fun used => ?_⟩
          rw [Settings.applyAll, Settings.apply, takeBits_eq hbits]
          dsimp only
          rw [hfail, List.length_append, List.length_singleton, shiftArgument_add]
      · refine Or.inr ⟨error, fun used => ?_⟩
        rw [Settings.applyAll, Settings.apply, hfail]
    · obtain ⟨next, hnext, _, _⟩ := Settings.exists_apply settings hstar
      rw [List.count_cons_of_ne (fun h => hstar h)]
      rcases ih next pending with hstars | ⟨error, hfail⟩
      · exact Or.inl hstars
      · refine Or.inr ⟨error, fun used => ?_⟩
        rw [Settings.applyAll, hnext]
        exact hfail used

/-- How a step of formatting acts in front of some operands, whatever was taken
before them and however much was produced. -/
inductive Acts (step : Progress → Except FormatError (List Piece × Operands))
    (marks : Nat → List Mark) : List FormatArg → Prop where
  /-- It takes the first of them, whatever lies behind, and leaves its marks. -/
  | takes (taken rest : List FormatArg) (pieces : List Piece)
      (hmarks : ∀ produced, (marks produced).length = taken.length)
      (hstep : ∀ used more produced, step ⟨⟨used, taken ++ more⟩, produced⟩ =
        .ok (pieces, ⟨used ++ leave (marks produced) taken, more⟩)) :
      Acts step marks (taken ++ rest)
  /-- It fails at one of them. -/
  | fails (pending : List FormatArg) (error : FormatError)
      (hstep : ∀ used produced, step ⟨⟨used, pending⟩, produced⟩ =
        .error (shiftArgument used.length error)) :
      Acts step marks pending

section Steps

variable {step : Progress → Except FormatError (List Piece × Operands)}

/-- A step that takes nothing acts in front of any operands. -/
theorem Acts.of_pieces (pieces : List Piece)
    (h : ∀ progress, step progress = .ok (pieces, progress.operands)) (pending : List FormatArg) :
    Acts step (fun _ => []) pending := by
  refine .takes [] pending pieces (fun _ => rfl) (fun used more produced => ?_)
  rw [h, leave_nil, List.append_nil, List.nil_append]

/-- A step that takes one operand acts in front of any operands, when the number of
bytes produced shows in nothing but the mark it leaves. -/
theorem Acts.of_take {β : Type} {expected : OperandKind} {mark : Nat → Mark}
    (use : Nat → FormatArg → Option (β × FormatArg)) (layout : β → List Piece)
    (huse : ∀ arg, (∃ result, ∀ produced,
        use produced arg = some (result, (mark produced).leaves arg)) ∨
      ∀ produced, use produced arg = none)
    (h : ∀ progress, step progress =
      (progress.operands.take expected FormatArg.kind (use progress.produced)).map
        (Prod.map layout id))
    (pending : List FormatArg) : Acts step (fun produced => [mark produced]) pending := by
  cases pending with
  | nil => exact .fails [] (.missingArgument 0) (fun used produced => h _)
  | cons arg rest =>
    rcases huse arg with ⟨result, hsome⟩ | hnone
    · refine .takes [arg] rest (layout result) (fun _ => rfl) (fun used more produced => ?_)
      rw [h]
      unfold Cursor.take
      dsimp only [List.singleton_append]
      rw [hsome]
      rfl
    · refine .fails _ (.argumentMismatch 0 expected arg.kind) (fun used produced => ?_)
      rw [h]
      unfold Cursor.take
      dsimp only
      rw [hnone]
      rfl

/-- A step that takes an integer and lays it out acts in front of any operands. -/
theorem Acts.of_bits (layout : UInt64 → List Piece)
    (h : ∀ progress, step progress = progress.operands.takeBits.map (Prod.map layout id))
    (pending : List FormatArg) : Acts step (fun _ => [.value]) pending := by
  refine Acts.of_take (fun _ arg => arg.bits?.map fun bits => (bits, arg)) layout (fun arg => ?_) h
    pending
  cases hbits : arg.bits? with
  | none => exact Or.inr fun _ => rfl
  | some bits => exact Or.inl ⟨bits, fun _ => rfl⟩

/-- The text that an operand is. -/
def textOf : FormatArg → Option (Option Bytes × FormatArg)
  | .text value => some (value, .text value)
  | _ => none

/-- The operand with a count stored in it, if it is a slot for one. -/
def storedIn (count : Int) : FormatArg → Option (Unit × FormatArg)
  | .count _ => some ((), .count (Int64.ofInt count))
  | _ => none

/-- A step that takes a text and lays it out acts in front of any operands. -/
theorem Acts.of_text (layout : Option Bytes → List Piece)
    (h : ∀ progress, step progress = progress.operands.takeText.map (Prod.map layout id))
    (pending : List FormatArg) : Acts step (fun _ => [.value]) pending := by
  refine Acts.of_take (fun _ => textOf) layout (fun arg => ?_) h pending
  cases arg with
  | text value => exact Or.inl ⟨value, fun _ => rfl⟩
  | int _ | uint _ | char _ | pointer _ | count _ => exact Or.inr fun _ => rfl

/-- A step that stores the number of bytes produced acts in front of any operands. -/
theorem Acts.of_count (width : OperandWidth)
    (h : ∀ progress, step progress =
      (progress.operands.storeCount (width.signed (UInt64.ofNat progress.produced))).map
        (Prod.map (fun _ => []) id))
    (pending : List FormatArg) : Acts step (fun produced => [.count width produced]) pending := by
  refine Acts.of_take (fun produced => storedIn (width.signed (UInt64.ofNat produced)))
    (fun _ => []) (fun arg => ?_) h pending
  cases arg with
  | count value => exact Or.inl ⟨(), fun _ => rfl⟩
  | int _ | uint _ | char _ | pointer _ | text _ => exact Or.inr fun _ => rfl

end Steps

/-- Writing an integer acts in front of any operands. -/
theorem acts_integer (settings : Settings) (base : Nat) (upper signed : Bool)
    (pending : List FormatArg) :
    Acts (fun progress => integer settings progress.operands base upper signed)
      (fun _ => [.value]) pending := by
  refine Acts.of_bits (fun bits =>
    if signed then
      numberField settings base upper (settings.length.forOperand.signed bits < 0)
        (settings.length.forOperand.signed bits).natAbs
    else numberField settings base upper false (settings.length.forOperand.unsigned bits))
    (fun progress => ?_) pending
  unfold integer
  cases progress.operands.takeBits with
  | error e => rfl
  | ok taken => cases signed <;> rfl

/-- The marks of a conversion, which takes one operand or none. -/
def Conversion.marks (width : OperandWidth) (produced : Nat) : Conversion → List Mark
  | .percent | .invalid => []
  | .char | .signed _ | .unsigned _ _ | .decimal | .pointer | .text => [.value]
  | .count => [.count width produced]

/-- A conversion acts in front of any operands. -/
theorem Conversion.acts (conversion : Conversion) (settings : Settings)
    (pending : List FormatArg) :
    Acts (conversion.perform settings)
      (fun produced => conversion.marks settings.length.forCount produced) pending := by
  cases conversion with
  | percent => exact Acts.of_pieces [.text [0x25]] (fun _ => rfl) pending
  | invalid => exact Acts.of_pieces [] (fun _ => rfl) pending
  | signed base => exact acts_integer settings base false true pending
  | unsigned base upper => exact acts_integer settings base upper false pending
  | decimal => exact acts_integer settings 10 false settings.plus pending
  | char =>
    refine Acts.of_bits (fun bits => [.text [bits.toUInt8]]) (fun progress => ?_) pending
    unfold Conversion.perform
    cases progress.operands.takeBits <;> rfl
  | pointer =>
    refine Acts.of_bits (fun bits =>
      numberField { settings with alternate := settings.width == 0 } 16 false false bits.toNat)
      (fun progress => ?_) pending
    unfold Conversion.perform
    cases progress.operands.takeBits <;> rfl
  | text =>
    refine Acts.of_text (textField settings) (fun progress => ?_) pending
    unfold Conversion.perform
    cases progress.operands.takeText <;> rfl
  | count =>
    refine Acts.of_count settings.length.forCount (fun progress => ?_) pending
    unfold Conversion.perform
    dsimp only
    cases progress.operands.storeCount _ <;> rfl

/-- The length letters of a directive, added up in order. -/
def Directive.letters (directive : Directive) : LengthFlags :=
  (directive.modifiers.filterMap Modifier.letter?).foldl LengthFlags.add {}

/-- The marks of a directive: one value for every star, and those of its
conversion. -/
def Directive.marks (directive : Directive) (produced : Nat) : List Mark :=
  List.replicate (directive.modifiers.count .star) .value ++
    directive.conversion.marks directive.letters.forCount produced

/-- A directive acts in front of any operands. -/
theorem Directive.acts (directive : Directive) (pending : List FormatArg) :
    Acts directive.perform directive.marks pending := by
  rcases Settings.applyAll_cases directive.modifiers {} pending with
    ⟨stars, rest, rfl, hlength, hstars⟩ | ⟨error, hfail⟩
  · obtain ⟨settled, happly, hletters, _⟩ :=
      Settings.exists_applyAll directive.modifiers {} hlength hstars
    have hconversion := directive.conversion.acts settled rest
    rw [hletters] at hconversion
    cases hconversion with
    | takes taken rest pieces hmarks hstep =>
      rw [← List.append_assoc]
      refine .takes (stars ++ taken) rest pieces (fun produced => ?_)
        (fun used more produced => ?_)
      · have hconverted := hmarks produced
        rw [Directive.marks, List.length_append, List.length_append, List.length_replicate, hlength]
        exact congrArg (directive.modifiers.count .star + ·) hconverted
      · have hvalues : leave (directive.marks produced) (stars ++ taken) =
            stars ++
              leave (directive.conversion.marks directive.letters.forCount produced) taken := by
          rw [Directive.marks, ← hlength, leave_append (List.length_replicate), leave_values]
        rw [hvalues, ← List.append_assoc, Directive.perform, List.append_assoc, happly]
        exact hstep (used ++ stars) more produced
    | fails _ error hstep =>
      refine .fails _ (shiftArgument stars.length error) (fun used produced => ?_)
      rw [Directive.perform, happly, ← shiftArgument_add, ← List.length_append]
      exact hstep (used ++ stars) produced
  · refine .fails _ error (fun used produced => ?_)
    rw [Directive.perform, hfail]

end FormatScan.Format
