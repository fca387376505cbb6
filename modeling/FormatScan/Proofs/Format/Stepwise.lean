import FormatScan.Proofs.Format.Steps

/-!
# Formatting operation by operation

A call is told here as it happens: every piece goes to the sink when it is written,
every operand counts as taken when it is asked for, and every count is stored where
its slot stands. An operation that fails takes nothing back, so whatever a failing
directive has done by then stays done.

Where a call succeeds, it leaves what formatting by pieces leaves, and where it fails,
both fail alike. What a failing directive leaves behind is not settled by this, since
formatting by pieces does not tell it.
-/

namespace FormatScan.Format

/-- What the sink and the operands hold while a call goes on. -/
structure Held where
  /-- The sink. -/
  sink : Sink
  /-- The operands. -/
  operands : Operands
  /-- The number of bytes produced. -/
  produced : Nat

/-- What is held at the start of a call. -/
def Held.start (sink : Sink) (args : List FormatArg) : Held := ⟨sink, .start args, 0⟩

/-- What is held at a place of a call, with a sink. -/
def Progress.hold (progress : Progress) (sink : Sink) : Held :=
  ⟨sink, progress.operands, progress.produced⟩

/-- What is held once some pieces are written. -/
def Held.write (held : Held) (pieces : List Piece) : Held :=
  { held with
    sink := held.sink.writeAll pieces
    produced := Piece.countFrom held.produced pieces }

/-- A step of a call. One that fails leaves what it has done by then. -/
abbrev Step := EStateM FormatError Held

/-- Write pieces one after the other. -/
def emit : List Piece → Step Unit
  | [] => return
  | piece :: pieces => do
    modify fun held => held.write [piece]
    emit pieces

/-- Take the next operand, with its index. -/
def next : Step (Nat × FormatArg) := do
  let held ← get
  match held.operands.pending with
  | [] => throw (.missingArgument held.operands.index)
  | arg :: rest =>
    set { held with operands := ⟨held.operands.used ++ [arg], rest⟩ }
    return (held.operands.index, arg)

/-- Take the next operand, and look at it only then. -/
def fetch {β : Type} (expected : OperandKind) (use : FormatArg → Option β) : Step β := do
  let (index, arg) ← next
  match use arg with
  | some result => return result
  | none => throw (.argumentMismatch index expected arg.kind)

/-- Take an integer operand as its 64 bits. -/
def fetchBits : Step UInt64 := fetch .integer FormatArg.bits?

/-- Take a text operand. -/
def fetchText : Step (Option Bytes) :=
  fetch .text fun
    | .text value => some value
    | _ => none

/-- Take a count slot. -/
def fetchSlot : Step Unit :=
  fetch .countSlot fun
    | .count _ => some ()
    | _ => none

/-- Store a count in the operand taken last. -/
def store (count : Int) : Step Unit :=
  modify fun held =>
    { held with
      operands := ⟨held.operands.used.dropLast ++ [.count (Int64.ofInt count)],
        held.operands.pending⟩ }

/-- Carry out one modifier. -/
def Settings.adjust (settings : Settings) : Modifier → Step Settings
  | .left => return { settings with left := true }
  | .alternate => return { settings with alternate := true }
  | .plus => return { settings with plus := true }
  | .zero => return { settings with zero := true }
  | .dot => return { settings with dotted := true }
  | .star => do return settings.setStar (OperandWidth.int.signed (← fetchBits))
  | .amount value => return settings.setAmount value
  | .length letter => return { settings with length := settings.length.add letter }

/-- Carry out a list of modifiers in order. -/
def Settings.adjustAll (settings : Settings) : List Modifier → Step Settings
  | [] => return settings
  | modifier :: rest => do (← settings.adjust modifier).adjustAll rest

/-- Write a signed or unsigned integer operand. -/
def emitInteger (settings : Settings) (base : Nat) (upper signed : Bool) : Step Unit := do
  let bits ← fetchBits
  let width := settings.length.forOperand
  if signed then
    let value := width.signed bits
    emit (numberField settings base upper (value < 0) value.natAbs)
  else emit (numberField settings base upper false (width.unsigned bits))

/-- Carry out a conversion whose modifiers are settled. -/
def Conversion.carryOut (settings : Settings) : Conversion → Step Unit
  | .percent => emit [.text [0x25]]
  | .char => do emit [.text [(← fetchBits).toUInt8]]
  | .signed base => emitInteger settings base false true
  | .unsigned base upper => emitInteger settings base upper false
  | .decimal => emitInteger settings 10 false settings.plus
  | .pointer => do
    let bits ← fetchBits
    emit (numberField { settings with alternate := settings.width == 0 } 16 false false bits.toNat)
  | .text => do emit (textField settings (← fetchText))
  | .count => do
    fetchSlot
    store (settings.length.forCount.signed (UInt64.ofNat (← get).produced))
  | .invalid => return

/-- Carry out a directive: its modifiers first, then its conversion. -/
def Directive.carryOut (directive : Directive) : Step Unit := do
  directive.conversion.carryOut (← Settings.adjustAll {} directive.modifiers)

/-- Carry out the rest of a format. -/
def carryOut (format : Bytes) : Step Unit :=
  match format with
  | [] => return
  | c :: rest =>
    if c == 0 then return
    else if c != 0x25 then do
      emit [.text [c]]
      carryOut rest
    else do
      let read := Directive.read false rest
      read.1.carryOut
      if read.1.conversion == .invalid then emit [.text (untilZero format)]
      else carryOut read.2
termination_by format.length
decreasing_by
  · simp
  · exact Nat.lt_succ_of_le (Directive.length_read_le false rest)

section Agreement

variable {α β : Type}

/-- One step goes on where another ended, unless that one failed. -/
theorem bind_eq (step : Step α) (more : α → Step β) (held : Held) :
    (step >>= more) held =
      match step held with
      | .ok result after => more result after
      | .error error after => .error error after := by
  change EStateM.bind step more held = _
  unfold EStateM.bind
  cases step held <;> rfl

/-- Writing cannot fail. -/
theorem emit_eq (pieces : List Piece) (held : Held) :
    emit pieces held = .ok () (held.write pieces) := by
  induction pieces generalizing held with
  | nil => rfl
  | cons piece pieces ih => exact ih (held.write [piece])

/-- What a step comes to: what it yields and leaves, or why it failed. -/
def outcome {α : Type} : EStateM.Result FormatError Held α → Except FormatError (α × Held)
  | .ok result held => .ok (result, held)
  | .error error _ => .error error

/-- What one step behind another comes to. -/
theorem outcome_bind (step : Step α) (more : α → Step β) (held : Held) :
    outcome ((step >>= more) held) =
      match outcome (step held) with
      | .ok (result, after) => outcome (more result after)
      | .error error => .error error := by
  rw [bind_eq]
  cases step held <;> rfl

/-- An operand is taken from the front of those that are pending, whether or not it is of
use. -/
theorem fetch_eq (expected : OperandKind) (use : FormatArg → Option β) (held : Held) :
    fetch expected use held =
      match held.operands.pending with
      | [] => .error (.missingArgument held.operands.index) held
      | arg :: rest =>
        let after := { held with operands := ⟨held.operands.used ++ [arg], rest⟩ }
        match use arg with
        | some result => .ok result after
        | none => .error (.argumentMismatch held.operands.index expected arg.kind) after := by
  obtain ⟨sink, ⟨used, pending⟩, produced⟩ := held
  cases pending with
  | nil => rfl
  | cons arg rest =>
    have hnext : next ⟨sink, ⟨used, arg :: rest⟩, produced⟩ =
        .ok (used.length, arg) ⟨sink, ⟨used ++ [arg], rest⟩, produced⟩ := rfl
    unfold fetch
    rw [bind_eq, hnext]
    dsimp only
    cases use arg <;> rfl

/-- Taking an operand comes to what taking it from the list does. -/
theorem outcome_fetch (expected : OperandKind) (use : FormatArg → Option β) (held : Held) :
    outcome (fetch expected use held) =
      (held.operands.take expected FormatArg.kind fun arg => (use arg).map fun result =>
        (result, arg)).map fun taken => (taken.1, { held with operands := taken.2 }) := by
  rw [fetch_eq]
  unfold Cursor.take
  cases held.operands.pending with
  | nil => rfl
  | cons arg rest =>
    dsimp only
    cases use arg <;> rfl

/-- Taking an integer comes to what taking it from the list does. -/
theorem outcome_fetchBits (held : Held) :
    outcome (fetchBits held) =
      held.operands.takeBits.map fun taken => (taken.1, { held with operands := taken.2 }) :=
  outcome_fetch _ _ held

/-- Taking a text comes to what taking it from the list does. -/
theorem outcome_fetchText (held : Held) :
    outcome (fetchText held) =
      held.operands.takeText.map fun taken => (taken.1, { held with operands := taken.2 }) := by
  obtain ⟨sink, ⟨used, pending⟩, produced⟩ := held
  cases pending with
  | nil => rfl
  | cons arg rest => cases arg <;> rfl

/-- What is held behind some pieces and with other operands. -/
def Held.behind (held : Held) (done : List Piece × Operands) : Unit × Held :=
  ((), { held.write done.1 with operands := done.2 })

/-- An integer is written as its pieces say. -/
theorem outcome_emitInteger (settings : Settings) (base : Nat) (upper signed : Bool)
    (held : Held) :
    outcome (emitInteger settings base upper signed held) =
      (integer settings held.operands base upper signed).map held.behind := by
  unfold emitInteger integer
  rw [outcome_bind, outcome_fetchBits]
  cases held.operands.takeBits with
  | error e => rfl
  | ok taken =>
    cases signed with
    | true => exact congrArg outcome (emit_eq _ _)
    | false => exact congrArg outcome (emit_eq _ _)

/-- A conversion comes to what it performs. -/
theorem Conversion.outcome_carryOut (conversion : Conversion) (settings : Settings)
    (progress : Progress) (sink : Sink) :
    outcome (conversion.carryOut settings (progress.hold sink)) =
      (conversion.perform settings progress).map (progress.hold sink).behind := by
  cases conversion with
  | percent => rfl
  | invalid => rfl
  | signed base => exact outcome_emitInteger settings base false true _
  | unsigned base upper => exact outcome_emitInteger settings base upper false _
  | decimal => exact outcome_emitInteger settings 10 false settings.plus _
  | char =>
    unfold Conversion.carryOut Conversion.perform
    rw [outcome_bind, outcome_fetchBits]
    dsimp only [Progress.hold]
    cases progress.operands.takeBits <;> rfl
  | pointer =>
    unfold Conversion.carryOut Conversion.perform
    rw [outcome_bind, outcome_fetchBits]
    dsimp only [Progress.hold]
    cases progress.operands.takeBits with
    | error e => rfl
    | ok taken => exact congrArg outcome (emit_eq _ _)
  | text =>
    unfold Conversion.carryOut Conversion.perform
    rw [outcome_bind, outcome_fetchText]
    dsimp only [Progress.hold]
    cases progress.operands.takeText with
    | error e => rfl
    | ok taken => exact congrArg outcome (emit_eq _ _)
  | count =>
    obtain ⟨⟨used, pending⟩, produced⟩ := progress
    cases pending with
    | nil => rfl
    | cons arg rest =>
      cases arg with
      | count value =>
        -- The slot is the operand taken last, so the count replaces the slot alone.
        have hlast : (used ++ [FormatArg.count value]).dropLast = used := List.dropLast_concat
        change outcome (.ok () ⟨sink, ⟨(used ++ [FormatArg.count value]).dropLast ++ _, rest⟩,
          produced⟩) = _
        rw [hlast]
        rfl
      | _ => rfl

/-- Modifiers come to what they settle. -/
theorem Settings.outcome_adjustAll (modifiers : List Modifier) (settings : Settings)
    (held : Held) :
    outcome (settings.adjustAll modifiers held) =
      (settings.applyAll held.operands modifiers).map fun settled =>
        (settled.1, { held with operands := settled.2 }) := by
  induction modifiers generalizing settings held with
  | nil => rfl
  | cons modifier modifiers ih =>
    have hstep : outcome (settings.adjust modifier held) =
        (settings.apply held.operands modifier).map fun settled =>
          (settled.1, { held with operands := settled.2 }) := by
      cases modifier with
      | star =>
        unfold Settings.adjust Settings.apply
        rw [outcome_bind, outcome_fetchBits]
        cases held.operands.takeBits <;> rfl
      | left | alternate | plus | zero | dot | amount _ | length _ => rfl
    unfold Settings.adjustAll Settings.applyAll
    rw [outcome_bind, hstep]
    cases settings.apply held.operands modifier with
    | error e => rfl
    | ok settled => exact ih settled.1 { held with operands := settled.2 }

/-- A directive comes to what it performs. -/
theorem Directive.outcome_carryOut (directive : Directive) (progress : Progress) (sink : Sink) :
    outcome (directive.carryOut (progress.hold sink)) =
      (directive.perform progress).map (progress.hold sink).behind := by
  unfold Directive.carryOut Directive.perform
  rw [outcome_bind, Settings.outcome_adjustAll]
  dsimp only [Progress.hold]
  cases Settings.applyAll {} progress.operands directive.modifiers with
  | error e => rfl
  | ok settled =>
    exact directive.conversion.outcome_carryOut settled.1 ⟨settled.2, progress.produced⟩ sink

/-- A directive that succeeds leaves its pieces in the sink. -/
theorem Directive.carryOut_of_ok {directive : Directive} {progress : Progress}
    {pieces : List Piece} {operands : Operands}
    (h : directive.perform progress = .ok (pieces, operands)) (sink : Sink) :
    directive.carryOut (progress.hold sink) =
      .ok () (Progress.hold { progress.add pieces with operands := operands }
        (sink.writeAll pieces)) := by
  have hout := directive.outcome_carryOut progress sink
  rw [h] at hout
  cases hstep : directive.carryOut (progress.hold sink) with
  | error error after =>
    rw [hstep] at hout
    cases hout
  | ok result after =>
    rw [hstep] at hout
    cases hout
    rfl

/-- A directive that fails by pieces fails operation by operation. -/
theorem Directive.carryOut_of_error {directive : Directive} {progress : Progress}
    {error : FormatError} (h : directive.perform progress = .error error) (sink : Sink) :
    ∃ after, directive.carryOut (progress.hold sink) = .error error after := by
  have hout := directive.outcome_carryOut progress sink
  rw [h] at hout
  cases hstep : directive.carryOut (progress.hold sink) with
  | ok result after =>
    rw [hstep] at hout
    cases hout
  | error error' after =>
    rw [hstep] at hout
    cases hout
    exact ⟨after, rfl⟩

end Agreement

section Running

variable {rest : Bytes} {held : Held}

/-- Nothing is carried out where the format ends. -/
theorem carryOut_nil : carryOut [] held = .ok () held := by
  rw [carryOut]
  rfl

/-- A zero byte ends the format. -/
theorem carryOut_zero : carryOut (0 :: rest) held = .ok () held := by
  rw [carryOut, if_pos (by decide)]
  rfl

/-- A byte that stands for itself is written. -/
theorem carryOut_literal {c : UInt8} (hz : c ≠ 0) (hp : c ≠ 0x25) :
    carryOut (c :: rest) held = carryOut rest (held.write [.text [c]]) := by
  rw [carryOut, if_neg (by simpa using hz), if_pos (by simpa using hp), bind_eq, emit_eq]

/-- A directive is carried out, and formatting goes on behind it or echoes it. -/
theorem carryOut_directive :
    carryOut (0x25 :: rest) held =
      match (Directive.read false rest).1.carryOut held with
      | .error error after => .error error after
      | .ok _ after =>
        if (Directive.read false rest).1.conversion = .invalid then
          .ok () (after.write [.text (untilZero (0x25 :: rest))])
        else carryOut (Directive.read false rest).2 after := by
  rw [carryOut, if_neg (by decide), if_neg (by decide), bind_eq]
  cases (Directive.read false rest).1.carryOut held with
  | error error after => rfl
  | ok result after =>
    by_cases hi : (Directive.read false rest).1.conversion = .invalid
    · dsimp only
      rw [if_pos hi, if_pos (by rw [hi]; rfl), emit_eq]
    · dsimp only
      rw [if_neg hi, if_neg (by simpa using hi)]

/-- An invalid directive has no output of its own. -/
theorem Directive.pieces_of_invalid {directive : Directive} {progress : Progress}
    {pieces : List Piece} {operands : Operands} (hi : directive.conversion = .invalid)
    (h : directive.perform progress = .ok (pieces, operands)) : pieces = [] := by
  unfold Directive.perform at h
  rw [hi] at h
  split at h
  · cases h
  · cases h
    rfl

/-- A call that succeeds leaves its pieces in the sink. -/
theorem carryOut_of_ok {format : Bytes} {progress : Progress} {length : Nat}
    (h : (run format progress).result = .ok length) (sink : Sink) :
    carryOut format (progress.hold sink) =
      .ok () (Progress.hold ⟨(run format progress).operands, length⟩
        (sink.writeAll (run format progress).pieces)) := by
  fun_induction run format progress generalizing sink with
  | case1 progress =>
    cases h
    exact carryOut_nil
  | case2 progress c rest hz =>
    cases h
    rw [beq_iff_eq.mp hz]
    exact carryOut_zero
  | case3 progress c rest hz hp pieces ih =>
    rw [carryOut_literal (by simpa using hz) (by simpa using hp)]
    exact ih h (sink.writeAll pieces)
  | case4 => cases h
  | case5 progress c rest hz hp read pieces operands hperform hi =>
    have hc : c = 0x25 := by simpa using hp
    have hi' : read.1.conversion = .invalid := by simpa using hi
    have hnone := Directive.pieces_of_invalid hi' hperform
    subst hc hnone
    cases h
    rw [carryOut_directive, Directive.carryOut_of_ok hperform]
    exact if_pos hi'
  | case6 progress c rest hz hp read pieces operands hperform hn ih =>
    have hc : c = 0x25 := by simpa using hp
    rw [hc, carryOut_directive, Directive.carryOut_of_ok hperform]
    dsimp only
    rw [if_neg (by simpa using hn), ih h]
    dsimp only [Formatted.after, Sink.writeAll]
    rw [List.foldl_append]

end Running

end FormatScan.Format
