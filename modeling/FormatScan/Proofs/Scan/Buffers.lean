import FormatScan.Proofs.Scan.Walk

/-!
# Buffers do not steer a scan

A directive that stores a text writes as much of it as the buffer of its target
holds, and looks at the size and the old bytes of that buffer for nothing else. So
a scan whose buffers are emptied in front takes the same course: it reads the same
bytes, counts the same, leaves the same numbers and stops at the same place for
the same reason. Two lists of targets that differ in their buffers alone become
one list when these are emptied, and with both of them a scan does the same.

What a buffer holds afterwards is cut from a text that only the input settles. The
texts are read off the directives that were carried out, in the order of the
targets: these are the deposits of a scan.
-/

namespace FormatScan

/-- The bytes of a target that is a buffer. -/
def ScanTarget.bytes? : ScanTarget → Option Bytes
  | .buffer bytes => some bytes
  | .int _ | .uint _ | .pointer _ | .count _ => none

/-- A target with its buffer emptied. Any other target is kept. -/
def ScanTarget.emptied : ScanTarget → ScanTarget
  | .buffer _ => .buffer []
  | target => target

namespace Scan

/-- What a directive leaves in its target. -/
inductive Deposit where
  /-- A text with a zero byte behind it. -/
  | text (taken : Bytes)
  /-- Bytes as they stand. -/
  | bytes (taken : Bytes)
  /-- A number, which no buffer takes. -/
  | number
deriving DecidableEq, Repr

/-- What a buffer holds behind a deposit. Of a text it takes as much as leaves a
byte for the zero, of plain bytes as many as it has room for, and the bytes behind
these are its old ones. A buffer without bytes stays as it is. -/
def Deposit.into : Deposit → Bytes → Bytes
  | text taken, buffer =>
    if buffer = [] then []
    else
      let kept := min taken.length (buffer.length - 1)
      taken.take kept ++ 0 :: buffer.drop (kept + 1)
  | bytes taken, buffer =>
    let kept := min taken.length buffer.length
    taken.take kept ++ buffer.drop kept
  | number, buffer => buffer

/-- What a conversion leaves in its target, if it takes one, in front of an input. -/
def Conversion.deposit? (width : Nat) (input : Bytes) : Conversion → Option Deposit
  | chars => some (.bytes (input.take (max width 1)))
  | set accepted => some (.text (span width accepted.contains input))
  | word =>
    some (.text (span width (fun c => !Byte.isSpace c) (input.dropWhile Byte.isSpace)))
  | number _ | count => some .number
  | percent | unknown => none

/-- What a directive leaves in its target, if it takes one, in front of an input. -/
def Directive.deposit? (directive : Directive) (input : Bytes) : Option Deposit :=
  if directive.suppressed then none else directive.conversion.deposit? directive.width input

/-- What the directives of a scan leave in the targets, in the order of these. -/
def depositsOf (trace : List (Directive × Progress)) : List Deposit :=
  trace.filterMap fun step => step.1.deposit? step.2.input

/-- What targets hold as buffers once deposits were made in the first of them. -/
def settle : List Deposit → List (Option Bytes) → List (Option Bytes)
  | deposit :: deposits, content :: contents =>
    content.map deposit.into :: settle deposits contents
  | _, contents => contents

/-- An empty buffer takes nothing. -/
theorem Deposit.into_nil (deposit : Deposit) : deposit.into [] = [] := by
  cases deposit <;> simp [into]

/-- Storing a text with a zero byte is making a deposit of it. -/
theorem overlayText_eq (buffer taken : Bytes) :
    overlayText buffer taken = (Deposit.text taken).into buffer := by
  by_cases hempty : buffer = []
  · simp [overlayText, overlay, Deposit.into, hempty]
  · have hpos : 0 < buffer.length := List.length_pos_iff.mpr hempty
    have hkept : taken.take (buffer.length - 1) =
        taken.take (min taken.length (buffer.length - 1)) := by
      rw [Nat.min_comm, ← List.take_take, List.take_length]
    have hlength : (taken.take (min taken.length (buffer.length - 1)) ++ [0]).length =
        min taken.length (buffer.length - 1) + 1 := by
      rw [List.length_append, List.length_take_of_le (Nat.min_le_left _ _), List.length_singleton]
    rw [overlayText, overlay, hkept, List.take_of_length_le (by omega), hlength, Deposit.into,
      if_neg hempty, List.append_assoc, List.singleton_append]

/-- Storing plain bytes is making a deposit of them. -/
theorem overlay_eq (buffer taken : Bytes) :
    overlay buffer taken = (Deposit.bytes taken).into buffer := by
  have hkept : taken.take buffer.length = taken.take (min taken.length buffer.length) := by
    rw [Nat.min_comm, ← List.take_take, List.take_length]
  rw [overlay, hkept, List.length_take_of_le (Nat.min_le_left _ _), Deposit.into]

/-- A way of using targets makes a deposit: it puts this into a buffer, and the bytes
of a buffer make no other difference to it. -/
structure Deposit.MadeBy (deposit : Deposit) (use : ScanTarget → Option ScanTarget) : Prop where
  /-- A buffer is used as it is when emptied. -/
  use_emptied : ∀ target, use target.emptied = (use target).map ScanTarget.emptied
  /-- The deposit goes into the buffer. -/
  bytes_eq : ∀ target after, use target = some after →
    after.bytes? = target.bytes?.map deposit.into

/-- Writing a deposit into a buffer makes it. -/
theorem Deposit.madeBy_intoBuffer {deposit : Deposit} {write : Bytes → Bytes}
    (h : ∀ buffer, write buffer = deposit.into buffer) : deposit.MadeBy (intoBuffer write) := by
  constructor
  · intro target
    cases target with
    | buffer bytes => simp [intoBuffer, ScanTarget.emptied, h, into_nil]
    | int _ | uint _ | pointer _ | count _ => rfl
  · intro target after hafter
    cases target with
    | buffer bytes =>
      cases hafter
      simp [ScanTarget.bytes?, h]
    | int _ | uint _ | pointer _ | count _ => cases hafter

/-- A use of targets that refuses buffers makes the deposit of a number. -/
theorem Deposit.madeBy_number {use : ScanTarget → Option ScanTarget}
    (hrefuse : ∀ bytes, use (.buffer bytes) = none)
    (hkeep : ∀ target after, use target = some after → after.bytes? = none) :
    Deposit.number.MadeBy use := by
  have hplain : ∀ target : ScanTarget, target.bytes? = none → target.emptied = target := by
    intro target h
    cases target with
    | buffer bytes => cases h
    | int _ | uint _ | pointer _ | count _ => rfl
  constructor
  · intro target
    by_cases hbuffer : target.bytes? = none
    · rw [hplain target hbuffer]
      cases hafter : use target with
      | none => rfl
      | some after => rw [Option.map_some, hplain after (hkeep target after hafter)]
    · cases target with
      | buffer bytes => simp [ScanTarget.emptied, hrefuse]
      | int _ | uint _ | pointer _ | count _ => exact absurd rfl hbuffer
  · intro target after hafter
    rw [hkeep target after hafter]
    cases target with
    | buffer bytes =>
      rw [hrefuse] at hafter
      cases hafter
    | int _ | uint _ | pointer _ | count _ => rfl

/-- A count is a number. -/
theorem madeBy_intoCount (value : Int64) : Deposit.number.MadeBy (intoCount value) := by
  refine Deposit.madeBy_number (fun _ => rfl) (fun target after h => ?_)
  cases target <;> cases h <;> rfl

/-- An address is a number. -/
theorem madeBy_intoPointer (bits : UInt64) : Deposit.number.MadeBy (intoPointer bits) := by
  refine Deposit.madeBy_number (fun _ => rfl) (fun target after h => ?_)
  cases target <;> cases h <;> rfl

/-- An integer is a number. -/
theorem madeBy_intoInteger (width : OperandWidth) (bits : UInt64) :
    Deposit.number.MadeBy (intoInteger width bits) := by
  refine Deposit.madeBy_number (fun _ => rfl) (fun target after h => ?_)
  cases target <;> cases h <;> rfl

/-- What a conversion takes makes the deposit of that conversion. -/
theorem Conversion.exists_madeBy {conversion : Conversion} {directive : Directive} {input : Bytes}
    {taking : Taking}
    (h : conversion.taking? directive (facing input conversion.keepsBlanks) = some taking) :
    ∃ deposit, conversion.deposit? directive.width input = some deposit ∧
      deposit.MadeBy taking.use := by
  cases conversion with
  | percent => cases h
  | count => cases h
  | unknown => cases h
  | chars =>
    cases h
    exact ⟨_, rfl, Deposit.madeBy_intoBuffer fun buffer => overlay_eq buffer _⟩
  | set accepted =>
    have hwhole : facing input (Conversion.set accepted).keepsBlanks = input := rfl
    rw [hwhole] at h
    dsimp only [taking?] at h
    split at h
    · cases h
    · cases h
      exact ⟨_, rfl, Deposit.madeBy_intoBuffer fun buffer => overlayText_eq buffer _⟩
  | word =>
    cases h
    exact ⟨_, rfl, Deposit.madeBy_intoBuffer fun buffer => overlayText_eq buffer _⟩
  | number format =>
    obtain ⟨field, _, rfl⟩ := Option.map_eq_some_iff.mp h
    refine ⟨.number, rfl, ?_⟩
    dsimp only
    split
    · exact madeBy_intoPointer _
    · exact madeBy_intoInteger _ _

/-- What a directive stores makes its deposit, and it stores nothing when it has
none. -/
theorem Directive.effect_deposit {directive : Directive} {input : Bytes} {read : Nat}
    {effect : Effect} (h : directive.effect input read = .ok effect) :
    (directive.deposit? input = none ∧ effect.store = none) ∨
      ∃ deposit expected use, directive.deposit? input = some deposit ∧
        effect.store = some (expected, use) ∧ deposit.MadeBy use := by
  by_cases hs : directive.suppressed = true
  · have hnone : directive.deposit? input = none := if_pos hs
    refine Or.inl ⟨hnone, ?_⟩
    cases Directive.effects h with
    | taken => simp [Taking.effect, hs]
    | counted => simp [Directive.countEffect, hs]
    | passed => rfl
  · have hsome : directive.deposit? input = directive.conversion.deposit? directive.width input :=
      if_neg hs
    rw [hsome]
    by_cases htakes : directive.conversion.takes = true
    · rw [Directive.effect_of_takes htakes] at h
      rcases ready_cases input directive.conversion.keepsBlanks with ⟨_, hready⟩ |
        ⟨_, skipped, hready, hdrop⟩
      · rw [hready] at h
        cases h
      · rw [hready] at h
        dsimp only at h
        rw [hdrop] at h
        cases htaking : directive.conversion.taking? directive
            (facing input directive.conversion.keepsBlanks) with
        | none =>
          rw [htaking] at h
          cases h
        | some taking =>
          rw [htaking] at h
          cases h
          obtain ⟨deposit, hdeposit, hmade⟩ := Conversion.exists_madeBy htaking
          refine Or.inr ⟨deposit, taking.expected, taking.use, hdeposit, ?_, hmade⟩
          rw [Taking.effect, if_neg hs]
    · cases Directive.effects h with
      | taken htakes' => exact absurd htakes' htakes
      | counted hcount =>
        refine Or.inr ⟨.number, .countSlot, intoCount (directive.counted read), ?_, ?_,
          madeBy_intoCount _⟩
        · rw [hcount]
          rfl
        · rw [Directive.countEffect, if_neg hs]
      | passed hplain =>
        refine Or.inl ⟨?_, rfl⟩
        rcases hplain with hc | hc <;> rw [hc] <;> rfl

/-- A directive that is carried out makes its deposit in the next target. -/
theorem Directive.settle_of_perform {directive : Directive} {progress done : Progress}
    (h : directive.perform progress = .ok done) (deposits : List Deposit) :
    done.targets.used.map ScanTarget.bytes? ++
        settle deposits (done.targets.pending.map ScanTarget.bytes?) =
      progress.targets.used.map ScanTarget.bytes? ++
        settle ((directive.deposit? progress.input).toList ++ deposits)
          (progress.targets.pending.map ScanTarget.bytes?) := by
  obtain ⟨effect, heffect, hcarry⟩ := Directive.exists_effect h
  rcases (effect.leads hcarry).targets with ⟨hnone, htargets⟩ |
    ⟨expected, use, target, rest, after, hsome, hpending, hafter, htargets⟩
  · rcases Directive.effect_deposit heffect with ⟨hdeposit, _⟩ | ⟨_, _, _, _, hsome, _⟩
    · rw [hdeposit, htargets]
      rfl
    · rw [hnone] at hsome
      cases hsome
  · rcases Directive.effect_deposit heffect with ⟨_, hnone⟩ |
      ⟨deposit, _, _, hdeposit, hstore, hmade⟩
    · rw [hsome] at hnone
      cases hnone
    · rw [hsome] at hstore
      cases hstore
      rw [hdeposit, htargets, hpending]
      simp [settle, hmade.bytes_eq target after hafter]

section Courses

variable {total : Nat} {format : Bytes} {progress : Progress}
  {trace : List (Directive × Progress)} {stopped : Stopped}

/-- A scan leaves the buffers that it has taken, and makes its deposits in the
others. -/
theorem Course.settles (course : Course total format progress trace stopped) :
    stopped.progress.targets.all.map ScanTarget.bytes? =
      progress.targets.used.map ScanTarget.bytes? ++
        settle (depositsOf trace) (progress.targets.pending.map ScanTarget.bytes?) := by
  have hstop : ∀ targets : Targets, targets.all.map ScanTarget.bytes? =
      targets.used.map ScanTarget.bytes? ++
        settle (depositsOf []) (targets.pending.map ScanTarget.bytes?) := by
    intro targets
    simp [Cursor.all, depositsOf, settle]
  induction course with
  | ended => exact hstop _
  | zero => exact hstop _
  | unmatched => exact hstop _
  | cut => exact hstop _
  | openSet => exact hstop _
  | failed => exact hstop _
  | blank hc course ih => exact ih
  | literal hz hs hp hm course ih =>
    obtain ⟨_, rfl⟩ := Progress.matchByte_ok hm
    exact ih
  | @directive rest after progress done directive trace stopped hr hd course ih =>
    have hcons : depositsOf ((directive, progress) :: trace) =
        (directive.deposit? progress.input).toList ++ depositsOf trace := by
      unfold depositsOf
      rw [List.filterMap_cons]
      dsimp only
      cases directive.deposit? progress.input <;> rfl
    rw [ih, hcons, Directive.settle_of_perform hd]

end Courses

/-- A place of a scan with all buffers emptied. -/
def Progress.emptied (progress : Progress) : Progress :=
  { progress with
    targets := ⟨progress.targets.used.map ScanTarget.emptied,
      progress.targets.pending.map ScanTarget.emptied⟩ }

/-- Emptying a buffer keeps the kind of the target. -/
theorem kind_emptied (target : ScanTarget) : target.emptied.kind = target.kind := by
  cases target <;> rfl

/-- Storing at the emptied place is storing and then emptying. -/
theorem Progress.store_emptied {use : ScanTarget → Option ScanTarget} {deposit : Deposit}
    (h : deposit.MadeBy use) (progress : Progress) (expected : OperandKind) :
    progress.emptied.store expected use =
      (progress.store expected use).map Progress.emptied := by
  unfold Progress.store Cursor.take Cursor.index Progress.emptied
  cases hpending : progress.targets.pending with
  | nil => simp [Except.map]
  | cons target rest =>
    have hkind := kind_emptied target
    have huse := h.use_emptied target
    cases hafter : use target with
    | none => simp [huse, hkind, hafter, Except.map]
    | some after => simp [huse, hafter, Except.map]

/-- A directive does at the emptied place what it does at the place itself. -/
theorem Directive.perform_emptied (directive : Directive) (progress : Progress) :
    directive.perform progress.emptied = (directive.perform progress).map Progress.emptied := by
  have hplace : directive.effect progress.emptied.input progress.emptied.read =
      directive.effect progress.input progress.read := rfl
  rw [Directive.perform_eq, Directive.perform_eq, hplace]
  cases heffect : directive.effect progress.input progress.read with
  | error halt => rfl
  | ok effect =>
    dsimp only [Effect.carryOut]
    rcases Directive.effect_deposit heffect with ⟨_, hstore⟩ |
      ⟨deposit, expected, use, _, hstore, hmade⟩
    · rw [hstore]
      rfl
    · rw [hstore]
      exact Progress.store_emptied hmade
        ⟨progress.input.drop effect.length, progress.read + effect.length, progress.targets,
          progress.assigned + effect.assigned, progress.conversions + effect.conversions⟩ expected

/-- A byte matches at the emptied place as it does at the place itself. -/
theorem Progress.matchByte_emptied (progress : Progress) (c : UInt8) :
    progress.emptied.matchByte c = (progress.matchByte c).map Progress.emptied := by
  rw [progress.matchByte_of_input_eq progress.emptied rfl]
  cases hm : progress.matchByte c with
  | error halt => rfl
  | ok next =>
    obtain ⟨_, rfl⟩ := Progress.matchByte_ok hm
    rfl

/-- A scan from the emptied place takes the same course. -/
theorem Course.emptied {total : Nat} {format : Bytes} {progress : Progress}
    {trace : List (Directive × Progress)} {stopped : Stopped}
    (course : Course total format progress trace stopped) :
    Course total format progress.emptied (trace.map fun step => (step.1, step.2.emptied))
      ⟨stopped.progress.emptied, stopped.halt⟩ := by
  induction course with
  | ended => exact .ended
  | zero => exact .zero
  | blank hc course ih => exact .blank hc ih
  | literal hz hs hp hm course ih =>
    refine .literal hz hs hp ?_ ih
    rw [Progress.matchByte_emptied, hm]
    rfl
  | unmatched hz hs hp hm =>
    refine .unmatched hz hs hp ?_
    rw [Progress.matchByte_emptied, hm]
    rfl
  | cut hr => exact .cut hr
  | openSet hr => exact .openSet hr
  | failed hr hf =>
    refine .failed hr ?_
    rw [Directive.perform_emptied, hf]
    rfl
  | directive hr hd course ih =>
    refine .directive hr ?_ ih
    rw [Directive.perform_emptied, hd]
    rfl

/-- A scan with emptied buffers reports the same, leaves the same targets but for their
buffers, and makes the same deposits. -/
theorem scan_emptied (input format : Bytes) (targets : List ScanTarget) :
    let whole := scan input format targets
    let bare := scan input format (targets.map ScanTarget.emptied)
    bare.result = whole.result ∧ bare.targets = whole.targets.map ScanTarget.emptied ∧
      depositsOf (performed format (.start input (targets.map ScanTarget.emptied))) =
        depositsOf (performed format (.start input targets)) := by
  intro whole bare
  obtain ⟨htrace, hrun⟩ := (course_run format.length format (.start input targets)).emptied.eq_run
  have hstart : (Progress.start input targets).emptied =
      .start input (targets.map ScanTarget.emptied) := rfl
  rw [hstart] at hrun htrace
  have hresult : bare.result = Stopped.result _ := congrArg Stopped.result hrun
  have htargets : bare.targets = _ := congrArg (fun stopped => stopped.progress.targets.all) hrun
  refine ⟨?_, ?_, ?_⟩
  · rw [hresult]
    rfl
  · rw [htargets]
    exact List.map_append.symm
  · rw [htrace]
    unfold depositsOf
    rw [List.filterMap_map]
    rfl

/-- The buffers among the targets do not steer a scan. With two lists of targets that
differ in nothing but the sizes and the bytes of their buffers, an input and a format
give the same report, and every target that is no buffer holds the same. The
directives that are carried out make the same deposits both times, and what each
buffer holds is what its own bytes become behind its deposit. -/
theorem scan_apart_from_buffers {targets others : List ScanTarget}
    (h : targets.map ScanTarget.emptied = others.map ScanTarget.emptied) (input format : Bytes) :
    let first := scan input format targets
    let second := scan input format others
    let deposits := depositsOf (performed format (.start input targets))
    second.result = first.result ∧
      second.targets.map ScanTarget.emptied = first.targets.map ScanTarget.emptied ∧
      depositsOf (performed format (.start input others)) = deposits ∧
      first.targets.map ScanTarget.bytes? = settle deposits (targets.map ScanTarget.bytes?) ∧
      second.targets.map ScanTarget.bytes? = settle deposits (others.map ScanTarget.bytes?) := by
  intro first second deposits
  obtain ⟨hresult, htargets, hdeposits⟩ := scan_emptied input format targets
  obtain ⟨hresult', htargets', hdeposits'⟩ := scan_emptied input format others
  rw [← h] at hresult' htargets' hdeposits'
  have hsame : depositsOf (performed format (.start input others)) = deposits :=
    hdeposits'.symm.trans hdeposits
  refine ⟨hresult'.symm.trans hresult, htargets'.symm.trans htargets, hsame, ?_, ?_⟩
  · exact (course_run format.length format (.start input targets)).settles
  · rw [← hsame]
    exact (course_run format.length format (.start input others)).settles

/-- The format `%s%c%s%n` takes `abc`, a space and `de` from `abc de`, and counts six
bytes, whatever the three buffers hold of them. -/
theorem scan_apart_from_buffers_truncated :
    let input : Bytes := [0x61, 0x62, 0x63, 0x20, 0x64, 0x65]
    let format : Bytes := [0x25, 0x73, 0x25, 0x63, 0x25, 0x73, 0x25, 0x6E]
    let targets : List ScanTarget := [.buffer [7, 7], .buffer [], .buffer [7, 7, 7, 7], .count 0]
    let others : List ScanTarget := [.buffer [], .buffer [9, 9], .buffer [9], .count 0]
    targets.map ScanTarget.emptied = others.map ScanTarget.emptied ∧
      (scan input format others).result = (scan input format targets).result ∧
      (scan input format targets).targets.map ScanTarget.bytes? =
        [some [0x61, 0], some [], some [0x64, 0x65, 0, 7], none] ∧
      (scan input format others).targets.map ScanTarget.bytes? =
        [some [], some [0x20, 9], some [0], none] := by
  intro input format targets others
  have h : targets.map ScanTarget.emptied = others.map ScanTarget.emptied := rfl
  obtain ⟨hresult, _, _, hfirst, hsecond⟩ := scan_apart_from_buffers h input format
  have hdeposits : depositsOf (performed format (.start input targets)) =
      [.text [0x61, 0x62, 0x63], .bytes [0x20], .text [0x64, 0x65], .number] := by
    decide +kernel
  rw [hdeposits] at hfirst hsecond
  exact ⟨h, hresult, hfirst, hsecond⟩

end Scan

end FormatScan
