import FormatScan.Proofs.Scan.Field
import FormatScan.Proofs.Scan.Steps

/-!
# What a directive does

A directive looks at the input in front of it and at the number of bytes read,
and at nothing else that a scan has reached. Its effect is settled by these two:
how many bytes it passes over, what it stores, and what it counts. Carrying the
effect out then only moves the counters and takes the next target.

So whatever holds of a scan's bookkeeping is proved once for carrying out an
effect. The bytes that are passed over are bytes of the input, which is why the
number of bytes read always tells how much of the input is gone.
-/

namespace FormatScan.Scan

/-- The number of bytes that are passed over to get ready for a conversion. -/
def ready (input : Bytes) (keepsBlanks : Bool) : Except Halt Nat :=
  if input.isEmpty then .error .exhausted
  else if keepsBlanks then .ok 0
  else
    let blanks := (input.takeWhile Byte.isSpace).length
    if (input.drop blanks).isEmpty then .error .exhausted else .ok blanks

/-- What a conversion takes from the input in front of it. -/
structure Taking where
  /-- The number of bytes it takes. -/
  length : Nat
  /-- The kind of target it needs. -/
  expected : OperandKind
  /-- What it makes of a target. -/
  use : ScanTarget → Option ScanTarget

/-- What a conversion takes, when the input fits. -/
def Conversion.taking? (directive : Directive) (input : Bytes) : Conversion → Option Taking
  | chars =>
    let taken := input.take (max directive.width 1)
    some ⟨taken.length, .byteBuffer, intoBuffer (overlay · taken)⟩
  | set accepted =>
    let taken := span directive.width accepted.contains input
    if taken.isEmpty then none
    else some ⟨taken.length, .byteBuffer, intoBuffer (overlayText · taken)⟩
  | word =>
    let taken := span directive.width (fun c => !Byte.isSpace c) input
    some ⟨taken.length, .byteBuffer, intoBuffer (overlayText · taken)⟩
  | number format =>
    (Field.take? format directive.width input).map fun field =>
      ⟨field.text.length, if format.pointer then .pointer else .integer,
        if format.pointer then intoPointer (field.bits format)
        else intoInteger directive.length.forTarget (field.bits format)⟩
  | percent | count | unknown => none

/-- What a directive does. -/
structure Effect where
  /-- The number of bytes it passes over. -/
  length : Nat
  /-- The kind of target it needs and what it makes of it, unless it stores
  nothing. -/
  store : Option (OperandKind × (ScanTarget → Option ScanTarget))
  /-- How much it adds to the count of assigned values. -/
  assigned : Nat
  /-- How much it adds to the count of conversions. -/
  conversions : Nat

/-- What a conversion does once it has taken its bytes: it stores unless it is
suppressed, and counts as carried out either way. -/
def Taking.effect (taking : Taking) (skipped : Nat) (suppressed : Bool) : Effect :=
  if suppressed then ⟨skipped + taking.length, none, 0, 1⟩
  else ⟨skipped + taking.length, some (taking.expected, taking.use), 1, 1⟩

/-- The count that a directive stores behind some bytes. -/
def Directive.counted (directive : Directive) (read : Nat) : Int64 :=
  Int64.ofInt (directive.length.forTarget.signed (UInt64.ofNat read))

/-- The effect of a count directive. -/
def Directive.countEffect (directive : Directive) (read : Nat) : Effect :=
  if directive.suppressed then ⟨0, none, 0, 1⟩
  else ⟨0, some (.countSlot, intoCount (directive.counted read)), 0, 1⟩

/-- What a directive does in front of an input, behind a number of bytes read. -/
def Directive.effect (directive : Directive) (input : Bytes) (read : Nat) : Except Halt Effect :=
  match directive.conversion with
  | .percent =>
    match input with
    | [] => .error .exhausted
    | head :: _ => if head == 0x25 then .ok ⟨1, none, 0, 0⟩ else .error .mismatch
  | .count => .ok (directive.countEffect read)
  | .unknown =>
    match ready input false with
    | .error halt => .error halt
    | .ok skipped => .ok ⟨skipped, none, 0, 0⟩
  | conversion =>
    match ready input conversion.keepsBlanks with
    | .error halt => .error halt
    | .ok skipped =>
      match conversion.taking? directive (input.drop skipped) with
      | none => .error .mismatch
      | some taking => .ok (taking.effect skipped directive.suppressed)

/-- Carry out an effect: move the counters, then store. -/
def Effect.carryOut (effect : Effect) (progress : Progress) : Except Halt Progress :=
  let passed : Progress :=
    { input := progress.input.drop effect.length
      read := progress.read + effect.length
      targets := progress.targets
      assigned := progress.assigned + effect.assigned
      conversions := progress.conversions + effect.conversions }
  match effect.store with
  | none => .ok passed
  | some (expected, use) => passed.store expected use

/-- Getting ready passes over the bytes that `ready` tells. -/
theorem Progress.approach_eq (progress : Progress) (keepsBlanks : Bool) :
    progress.approach keepsBlanks =
      match ready progress.input keepsBlanks with
      | .error halt => .error halt
      | .ok skipped => .ok (progress.advance skipped) := by
  unfold Progress.approach ready
  by_cases hempty : progress.input.isEmpty = true
  · rw [if_pos hempty, if_pos hempty]
  · rw [if_neg hempty, if_neg hempty]
    cases keepsBlanks with
    | true => rfl
    | false =>
      dsimp only [Progress.skipBlanks, Progress.advance]
      by_cases hblank : (progress.input.drop
          (progress.input.takeWhile Byte.isSpace).length).isEmpty = true
      · simp only [Bool.false_eq_true, if_false, hblank, if_true]
      · simp only [Bool.false_eq_true, if_false, hblank]

/-- A conversion that takes input takes what `taking?` tells. -/
theorem Conversion.perform_eq {conversion : Conversion} (h : conversion.takes = true)
    (directive : Directive) (progress : Progress) :
    conversion.perform directive progress =
      match conversion.taking? directive progress.input with
      | none => .error .mismatch
      | some taking =>
        (progress.advance taking.length).assign directive.suppressed taking.expected
          taking.use := by
  cases conversion with
  | percent => cases h
  | count => cases h
  | unknown => cases h
  | chars => rfl
  | word => rfl
  | set accepted =>
    dsimp only [perform, taking?]
    split <;> rfl
  | number format =>
    rw [perform_number]
    dsimp only [taking?]
    cases Field.take? format directive.width progress.input <;> rfl

/-- A directive that takes input has the effect of what it takes. -/
theorem Directive.effect_of_takes {directive : Directive}
    (h : directive.conversion.takes = true) (input : Bytes) (read : Nat) :
    directive.effect input read =
      match ready input directive.conversion.keepsBlanks with
      | .error halt => .error halt
      | .ok skipped =>
        match directive.conversion.taking? directive (input.drop skipped) with
        | none => .error .mismatch
        | some taking => .ok (taking.effect skipped directive.suppressed) := by
  rw [Directive.effect.eq_def]
  cases hc : directive.conversion with
  | percent => rw [hc] at h; cases h
  | count => rw [hc] at h; cases h
  | unknown => rw [hc] at h; cases h
  | chars => rfl
  | set accepted => rfl
  | word => rfl
  | number format => rfl

/-- Assigning what was taken, and counting the conversion, carries its effect
out. -/
theorem Taking.carryOut_effect (taking : Taking) (skipped : Nat) (suppressed : Bool)
    (progress : Progress) :
    (taking.effect skipped suppressed).carryOut progress =
      match ((progress.advance skipped).advance taking.length).assign suppressed taking.expected
        taking.use with
      | .error halt => .error halt
      | .ok done => .ok { done with conversions := done.conversions + 1 } := by
  have hread : progress.read + skipped + taking.length =
      progress.read + (skipped + taking.length) := Nat.add_assoc _ _ _
  have hinput : (progress.input.drop skipped).drop taking.length =
      progress.input.drop (skipped + taking.length) := List.drop_drop
  cases suppressed with
  | true =>
    dsimp only [Progress.assign, Progress.advance]
    rw [hread, hinput]
    rfl
  | false =>
    have heffect : taking.effect skipped false =
        ⟨skipped + taking.length, some (taking.expected, taking.use), 1, 1⟩ := rfl
    dsimp only [Progress.assign, Progress.advance]
    rw [hread, hinput, heffect, if_neg Bool.false_ne_true]
    dsimp only [Effect.carryOut, Progress.store]
    cases progress.targets.take taking.expected ScanTarget.kind
        fun t => (taking.use t).map fun u => ((), u) <;> rfl

/-- Carrying out a directive is carrying out its effect. -/
theorem Directive.perform_eq (directive : Directive) (progress : Progress) :
    directive.perform progress =
      match directive.effect progress.input progress.read with
      | .error halt => .error halt
      | .ok effect => effect.carryOut progress := by
  by_cases htakes : directive.conversion.takes = true
  · rw [Directive.perform_of_takes htakes, Directive.effect_of_takes htakes, Progress.approach_eq]
    cases ready progress.input directive.conversion.keepsBlanks with
    | error halt => rfl
    | ok skipped =>
      dsimp only
      rw [Conversion.perform_eq htakes]
      dsimp only [Progress.advance]
      cases directive.conversion.taking? directive (progress.input.drop skipped) with
      | none => rfl
      | some taking => exact (taking.carryOut_effect skipped directive.suppressed progress).symm
  · unfold Directive.perform Directive.effect
    cases hc : directive.conversion with
    | percent =>
      dsimp only [Progress.matchByte]
      cases progress.input with
      | nil => rfl
      | cons head tail =>
        dsimp only
        split <;> rfl
    | count =>
      dsimp only [countEffect]
      split <;> rfl
    | unknown =>
      dsimp only
      rw [Progress.approach_eq]
      cases ready progress.input false <;> rfl
    | _ => exact absurd (by rw [hc]; rfl) htakes

/-- What a conversion faces in front of an input: all of it, or what lies behind its
blanks. -/
def facing (input : Bytes) (keepsBlanks : Bool) : Bytes :=
  if keepsBlanks then input else input.dropWhile Byte.isSpace

/-- A conversion gets ready when it faces some input, and then it stands in front of
that. -/
theorem ready_cases (input : Bytes) (keepsBlanks : Bool) :
    (facing input keepsBlanks = [] ∧ ready input keepsBlanks = .error .exhausted) ∨
      (facing input keepsBlanks ≠ [] ∧ ∃ skipped, ready input keepsBlanks = .ok skipped ∧
        input.drop skipped = facing input keepsBlanks) := by
  have hsplit : (input.takeWhile Byte.isSpace ++ input.dropWhile Byte.isSpace).drop
      (input.takeWhile Byte.isSpace).length = input.dropWhile Byte.isSpace := List.drop_left
  rw [List.takeWhile_append_dropWhile] at hsplit
  by_cases hempty : input = []
  · subst hempty
    exact Or.inl ⟨by cases keepsBlanks <;> rfl, rfl⟩
  · cases keepsBlanks with
    | true => exact Or.inr ⟨hempty, 0, by simp [ready, hempty], rfl⟩
    | false =>
      have hfacing : facing input false = input.dropWhile Byte.isSpace := rfl
      rw [hfacing]
      by_cases hblank : input.dropWhile Byte.isSpace = []
      · refine Or.inl ⟨hblank, ?_⟩
        simp only [ready, hsplit, hblank]
        simp [hempty]
      · refine Or.inr ⟨hblank, (input.takeWhile Byte.isSpace).length, ?_, hsplit⟩
        simp only [ready, hsplit]
        simp [hempty, hblank]

/-- Getting ready passes over bytes of the input. -/
theorem ready_le {input : Bytes} {keepsBlanks : Bool} {skipped : Nat}
    (h : ready input keepsBlanks = .ok skipped) : skipped ≤ input.length := by
  rcases ready_cases input keepsBlanks with ⟨_, hready⟩ | ⟨hne, _, hready, hdrop⟩
  · rw [hready] at h
    cases h
  · rw [hready] at h
    cases h
    rw [← hdrop, ne_eq, List.drop_eq_nil_iff] at hne
    omega

/-- Only the end of the input keeps a conversion from getting ready. -/
theorem ready_error {input : Bytes} {keepsBlanks : Bool} {halt : Halt}
    (h : ready input keepsBlanks = .error halt) : halt = .exhausted := by
  rcases ready_cases input keepsBlanks with ⟨_, hready⟩ | ⟨_, _, hready, _⟩
  · rw [hready] at h
    cases h
    rfl
  · rw [hready] at h
    cases h

/-- A span is taken from the front of the input. -/
theorem length_span_le (width : Nat) (accept : UInt8 → Bool) (input : Bytes) :
    (span width accept input).length ≤ input.length := by
  unfold span
  refine Nat.le_trans (List.takeWhile_sublist accept).length_le ?_
  split
  · exact Nat.le_refl _
  · exact (List.take_sublist width input).length_le

/-- A conversion takes bytes of the input. -/
theorem Conversion.taking?_le {conversion : Conversion} {directive : Directive} {input : Bytes}
    {taking : Taking} (h : conversion.taking? directive input = some taking) :
    taking.length ≤ input.length := by
  cases conversion with
  | percent => cases h
  | count => cases h
  | unknown => cases h
  | chars =>
    cases h
    exact (List.take_sublist _ input).length_le
  | word =>
    cases h
    exact length_span_le _ _ input
  | set accepted =>
    dsimp only [taking?] at h
    split at h
    · cases h
    · cases h
      exact length_span_le _ _ input
  | number format =>
    obtain ⟨field, htake, rfl⟩ := Option.map_eq_some_iff.mp h
    exact (Field.front_of_take? htake).length_le

/-- What the effect of a directive can be. -/
inductive Directive.Effects (directive : Directive) (input : Bytes) (read : Nat) : Effect → Prop
  where
  /-- It takes input, behind the bytes that it passes over first. -/
  | taken {skipped : Nat} {taking : Taking} (htakes : directive.conversion.takes = true)
      (hlength : skipped + taking.length ≤ input.length) :
      directive.Effects input read (taking.effect skipped directive.suppressed)
  /-- It counts. -/
  | counted (hcount : directive.conversion = .count) :
      directive.Effects input read (directive.countEffect read)
  /-- It only passes over some bytes. -/
  | passed {length : Nat} (hplain : directive.conversion = .percent ∨
      directive.conversion = .unknown) (hlength : length ≤ input.length) :
      directive.Effects input read ⟨length, none, 0, 0⟩

/-- The effect of a directive is one of these. -/
theorem Directive.effects {directive : Directive} {input : Bytes} {read : Nat} {effect : Effect}
    (h : directive.effect input read = .ok effect) : directive.Effects input read effect := by
  by_cases htakes : directive.conversion.takes = true
  · rw [Directive.effect_of_takes htakes] at h
    cases hready : ready input directive.conversion.keepsBlanks with
    | error halt =>
      rw [hready] at h
      cases h
    | ok skipped =>
      rw [hready] at h
      dsimp only at h
      cases htaking : directive.conversion.taking? directive (input.drop skipped) with
      | none =>
        rw [htaking] at h
        cases h
      | some taking =>
        rw [htaking] at h
        cases h
        have hskipped := ready_le hready
        have htaken := Conversion.taking?_le htaking
        rw [List.length_drop] at htaken
        exact Effects.taken htakes (by omega)
  · unfold Directive.effect at h
    cases hc : directive.conversion with
    | percent =>
      rw [hc] at h
      cases input with
      | nil => cases h
      | cons head tail =>
        dsimp only at h
        split at h
        · cases h
          exact Effects.passed (Or.inl hc) (Nat.succ_le_succ (Nat.zero_le _))
        · cases h
    | count =>
      rw [hc] at h
      cases h
      exact Effects.counted hc
    | unknown =>
      rw [hc] at h
      dsimp only at h
      cases hready : ready input false with
      | error halt =>
        rw [hready] at h
        cases h
      | ok skipped =>
        rw [hready] at h
        cases h
        exact Effects.passed (Or.inr hc) (ready_le hready)
    | _ => exact absurd (by rw [hc]; rfl) htakes

/-- Only a count looks at the number of bytes read. -/
theorem Directive.effect_of_not_count {directive : Directive}
    (h : directive.conversion ≠ .count) (input : Bytes) (read read' : Nat) :
    directive.effect input read = directive.effect input read' := by
  unfold Directive.effect
  cases hc : directive.conversion with
  | count => exact absurd hc h
  | _ => rfl

/-- An input that does not fit, or is used up, keeps a directive from having an
effect. -/
theorem Directive.effect_error {directive : Directive} {input : Bytes} {read : Nat} {halt : Halt}
    (h : directive.effect input read = .error halt) : halt = .exhausted ∨ halt = .mismatch := by
  by_cases htakes : directive.conversion.takes = true
  · rw [Directive.effect_of_takes htakes] at h
    cases hready : ready input directive.conversion.keepsBlanks with
    | error reason =>
      rw [hready] at h
      cases h
      exact Or.inl (ready_error hready)
    | ok skipped =>
      rw [hready] at h
      dsimp only at h
      cases htaking : directive.conversion.taking? directive (input.drop skipped) with
      | none =>
        rw [htaking] at h
        cases h
        exact Or.inr rfl
      | some taking =>
        rw [htaking] at h
        cases h
  · unfold Directive.effect at h
    cases hc : directive.conversion with
    | percent =>
      rw [hc] at h
      cases input with
      | nil =>
        cases h
        exact Or.inl rfl
      | cons head tail =>
        dsimp only at h
        split at h
        · cases h
        · cases h
          exact Or.inr rfl
    | count =>
      rw [hc] at h
      cases h
    | unknown =>
      rw [hc] at h
      dsimp only at h
      cases hready : ready input false with
      | error reason =>
        rw [hready] at h
        cases h
        exact Or.inl (ready_error hready)
      | ok skipped =>
        rw [hready] at h
        cases h
    | _ => exact absurd (by rw [hc]; rfl) htakes

/-- A directive that has no effect has none behind any number of bytes. -/
theorem Directive.effect_error_read {directive : Directive} {input : Bytes} {read : Nat}
    {halt : Halt} (h : directive.effect input read = .error halt) (read' : Nat) :
    directive.effect input read' = .error halt := by
  have hcount : directive.conversion ≠ .count := by
    intro hc
    unfold Directive.effect at h
    rw [hc] at h
    cases h
  rw [Directive.effect_of_not_count hcount input read' read]
  exact h

/-- An effect passes over bytes of the input. -/
theorem Directive.effect_length_le {directive : Directive} {input : Bytes} {read : Nat}
    {effect : Effect} (h : directive.effect input read = .ok effect) :
    effect.length ≤ input.length := by
  cases Directive.effects h with
  | taken _ hlength =>
    unfold Taking.effect
    split <;> exact hlength
  | counted _ =>
    unfold Directive.countEffect
    split <;> exact Nat.zero_le _
  | passed _ hlength => exact hlength

/-- The conversions that are counted: all but a percent sign and the unknown
ones. -/
def Conversion.converts : Conversion → Bool
  | count | chars | set _ | word | number _ => true
  | percent | unknown => false

/-- A directive counts its conversion once, or not at all. -/
theorem Directive.effect_conversions {directive : Directive} {input : Bytes} {read : Nat}
    {effect : Effect} (h : directive.effect input read = .ok effect) :
    effect.conversions = if directive.conversion.converts then 1 else 0 := by
  cases Directive.effects h with
  | taken htakes _ =>
    have hconverts : directive.conversion.converts = true := by
      cases hc : directive.conversion with
      | percent => rw [hc] at htakes; cases htakes
      | unknown => rw [hc] at htakes; cases htakes
      | _ => rfl
    rw [if_pos hconverts]
    unfold Taking.effect
    split <;> rfl
  | counted hcount =>
    rw [hcount, if_pos (by rfl)]
    unfold Directive.countEffect
    split <;> rfl
  | passed hplain _ =>
    rcases hplain with hc | hc
    · rw [hc, if_neg (by decide)]
    · rw [hc, if_neg (by decide)]

/-- A directive assigns no more than it converts. -/
theorem Directive.effect_assigned_le {directive : Directive} {input : Bytes} {read : Nat}
    {effect : Effect} (h : directive.effect input read = .ok effect) :
    effect.assigned ≤ effect.conversions := by
  cases Directive.effects h with
  | taken _ _ =>
    unfold Taking.effect
    split
    · exact Nat.zero_le _
    · exact Nat.le_refl _
  | counted _ =>
    unfold Directive.countEffect
    split <;> exact Nat.zero_le _
  | passed _ _ => exact Nat.le_refl _

/-- What storing does to the targets: the next one is taken and changed. -/
theorem Progress.store_ok {progress done : Progress} {expected : OperandKind}
    {use : ScanTarget → Option ScanTarget} (h : progress.store expected use = .ok done) :
    ∃ target rest after, progress.targets.pending = target :: rest ∧ use target = some after ∧
      done = { progress with targets := ⟨progress.targets.used ++ [after], rest⟩ } := by
  unfold Progress.store Cursor.take at h
  cases hp : progress.targets.pending with
  | nil =>
    rw [hp] at h
    cases h
  | cons target rest =>
    rw [hp] at h
    dsimp only at h
    cases hu : use target with
    | none =>
      rw [hu] at h
      cases h
    | some after =>
      rw [hu] at h
      cases h
      exact ⟨target, rest, after, rfl, hu, rfl⟩

/-- Why storing fails: no target is left, or the next one is of another kind. -/
theorem Progress.store_error {progress : Progress} {expected : OperandKind}
    {use : ScanTarget → Option ScanTarget} {halt : Halt}
    (h : progress.store expected use = .error halt) :
    (progress.targets.pending = [] ∧
        halt = .failed (.missingArgument progress.targets.used.length)) ∨
      ∃ target rest, progress.targets.pending = target :: rest ∧ use target = none ∧
        halt = .failed (.argumentMismatch progress.targets.used.length expected target.kind) := by
  unfold Progress.store Cursor.take at h
  cases hp : progress.targets.pending with
  | nil =>
    rw [hp] at h
    cases h
    exact Or.inl ⟨rfl, rfl⟩
  | cons target rest =>
    rw [hp] at h
    dsimp only at h
    cases hu : use target with
    | some after =>
      rw [hu] at h
      cases h
    | none =>
      rw [hu] at h
      cases h
      exact Or.inr ⟨target, rest, rfl, hu, rfl⟩

/-- Where carrying out an effect leads. -/
structure Effect.Leads (effect : Effect) (progress done : Progress) : Prop where
  /-- The bytes it passes over are gone from the input. -/
  input_eq : done.input = progress.input.drop effect.length
  /-- They are counted as read. -/
  read_eq : done.read = progress.read + effect.length
  /-- The values are counted. -/
  assigned_eq : done.assigned = progress.assigned + effect.assigned
  /-- The conversions are counted. -/
  conversions_eq : done.conversions = progress.conversions + effect.conversions
  /-- Nothing is stored, or the next target is taken and changed. -/
  targets : (effect.store = none ∧ done.targets = progress.targets) ∨
    ∃ expected use target rest after, effect.store = some (expected, use) ∧
      progress.targets.pending = target :: rest ∧ use target = some after ∧
      done.targets = ⟨progress.targets.used ++ [after], rest⟩

/-- Carrying out an effect leads there. -/
theorem Effect.leads {effect : Effect} {progress done : Progress}
    (h : effect.carryOut progress = .ok done) : effect.Leads progress done := by
  unfold Effect.carryOut at h
  dsimp only at h
  cases hs : effect.store with
  | none =>
    rw [hs] at h
    cases h
    exact ⟨rfl, rfl, rfl, rfl, Or.inl ⟨hs, rfl⟩⟩
  | some stored =>
    obtain ⟨expected, use⟩ := stored
    rw [hs] at h
    obtain ⟨target, rest, after, hpending, huse, rfl⟩ := Progress.store_ok h
    exact ⟨rfl, rfl, rfl, rfl,
      Or.inr ⟨expected, use, target, rest, after, hs, hpending, huse, rfl⟩⟩

/-- A directive that is carried out has an effect that leads where it ends. -/
theorem Directive.exists_effect {directive : Directive} {progress done : Progress}
    (h : directive.perform progress = .ok done) :
    ∃ effect, directive.effect progress.input progress.read = .ok effect ∧
      effect.carryOut progress = .ok done := by
  rw [Directive.perform_eq] at h
  cases heffect : directive.effect progress.input progress.read with
  | error halt =>
    rw [heffect] at h
    cases h
  | ok effect =>
    rw [heffect] at h
    exact ⟨effect, rfl, h⟩

/-- Directives end a scan for reasons of their own, never as the end of the
format does. -/
theorem Directive.perform_ne_finished {directive : Directive} {progress : Progress} :
    directive.perform progress ≠ .error .finished := by
  intro h
  rw [Directive.perform_eq] at h
  cases heffect : directive.effect progress.input progress.read with
  | error reason =>
    have hreason := Directive.effect_error heffect
    rw [heffect] at h
    cases h
    rcases hreason with hreason | hreason <;> cases hreason
  | ok effect =>
    rw [heffect] at h
    dsimp only at h
    unfold Effect.carryOut at h
    dsimp only at h
    cases hstore : effect.store with
    | none =>
      rw [hstore] at h
      cases h
    | some stored =>
      obtain ⟨expected, use⟩ := stored
      rw [hstore] at h
      rcases Progress.store_error h with ⟨_, hhalt⟩ | ⟨_, _, _, _, hhalt⟩ <;> cases hhalt

/-- A count that is not suppressed goes into the next target. -/
theorem Directive.exists_perform_count {directive : Directive} (hc : directive.conversion = .count)
    (hs : directive.suppressed = false) {progress : Progress} {used pending : List ScanTarget}
    {slot stored : ScanTarget} (ht : progress.targets = ⟨used, slot :: pending⟩)
    (hu : intoCount (directive.counted progress.read) slot = some stored) :
    ∃ done, directive.perform progress = .ok done ∧
      done.targets = ⟨used ++ [stored], pending⟩ := by
  have heffect : directive.effect progress.input progress.read =
      .ok ⟨0, some (.countSlot, intoCount (directive.counted progress.read)), 0, 1⟩ := by
    unfold Directive.effect Directive.countEffect
    rw [hc, hs]
    rfl
  rw [Directive.perform_eq, heffect]
  dsimp only [Effect.carryOut]
  refine ⟨_, Progress.store_eq ?_ .countSlot hu, rfl⟩
  exact ht

end FormatScan.Scan
