import FormatScan.Proofs.Scan.Composition

/-!
# What a scan reports and what it leaves alone

A scan reports how many values it assigned, counts aside, and takes a target for each
of them and for each count it stored. It takes the targets from the front, so all
others stay as they were, and an error that names a place in the list names the
first of these.

The end of the input is reported for one reason only: the scan comes to a byte or a
directive that asks for input, and finds none left, before it has converted anything.
Then it has taken no target either. Where a scan comes to, what it finds there and what
stops it is said here by its steps along the format, apart from the function that
carries it out.
-/

namespace FormatScan

/-- The place in a list of operands or targets that an error names. -/
def FormatError.argument? : FormatError → Option Nat
  | .missingArgument index => some index
  | .argumentMismatch index _ _ => some index
  | .unterminatedScanSet _ => none

namespace Scan

/-- A directive assigns a value when it takes input and is not suppressed. -/
def Directive.assigns (directive : Directive) : Bool :=
  !directive.suppressed && directive.conversion.takes

/-- A directive stores a count when it counts and is not suppressed. -/
def Directive.storesCount (directive : Directive) : Bool :=
  !directive.suppressed && directive.conversion == .count

/-- What a directive finds of an input, behind the blanks that it skips. -/
def Directive.finds (directive : Directive) (input : Bytes) : Bytes :=
  facing input (directive.conversion == .percent || directive.conversion.keepsBlanks)

/-- The way of a scan along a format: a place in the format and what is reached there,
and a later place with what is reached then. -/
inductive Comes : Bytes → Progress → Bytes → Progress → Prop where
  /-- It has not started yet. -/
  | start {format : Bytes} {progress : Progress} : Comes format progress format progress
  /-- It skips blanks. -/
  | blank {c : UInt8} {rest later : Bytes} {progress reached : Progress}
      (hc : Byte.isSpace c = true) (way : Comes rest progress.skipBlanks later reached) :
      Comes (c :: rest) progress later reached
  /-- It matches a byte. -/
  | literal {c : UInt8} {rest later : Bytes} {progress next reached : Progress} (hz : c ≠ 0)
      (hs : Byte.isSpace c = false) (hp : c ≠ 0x25) (hm : progress.matchByte c = .ok next)
      (way : Comes rest next later reached) : Comes (c :: rest) progress later reached
  /-- It carries a directive out. -/
  | directive {rest after later : Bytes} {progress done reached : Progress} {directive : Directive}
      (hr : Directive.read rest = .read directive after)
      (hd : directive.perform progress = .ok done) (way : Comes after done later reached) :
      Comes (0x25 :: rest) progress later reached

/-- A format asks for input at its front and finds none. -/
inductive Starves : Bytes → Bytes → Prop where
  /-- A byte has to match. -/
  | literal {c : UInt8} {rest : Bytes} (hz : c ≠ 0) (hs : Byte.isSpace c = false) (hp : c ≠ 0x25) :
      Starves (c :: rest) []
  /-- A directive other than a count stands there. -/
  | directive {rest after input : Bytes} {directive : Directive}
      (hr : Directive.read rest = .read directive after) (hc : directive.conversion ≠ .count)
      (hi : directive.finds input = []) : Starves (0x25 :: rest) input

/-- A scan stops at the front of a format. -/
inductive Stops (total : Nat) : Bytes → Progress → Halt → Prop where
  /-- The format has ended. -/
  | ended {progress : Progress} : Stops total [] progress .finished
  /-- A zero byte ends it. -/
  | zero {rest : Bytes} {progress : Progress} : Stops total (0 :: rest) progress .finished
  /-- A byte does not match. -/
  | unmatched {c : UInt8} {rest : Bytes} {progress : Progress} {halt : Halt} (hz : c ≠ 0)
      (hs : Byte.isSpace c = false) (hp : c ≠ 0x25) (hm : progress.matchByte c = .error halt) :
      Stops total (c :: rest) progress halt
  /-- The format cuts a directive. -/
  | cut {rest : Bytes} {progress : Progress} (hr : Directive.read rest = .cut) :
      Stops total (0x25 :: rest) progress .finished
  /-- The format leaves a scan set open. -/
  | openSet {rest after : Bytes} {progress : Progress} (hr : Directive.read rest = .openSet after) :
      Stops total (0x25 :: rest) progress (.failed (.unterminatedScanSet (total - after.length)))
  /-- A directive fails. -/
  | failed {rest after : Bytes} {progress : Progress} {directive : Directive} {halt : Halt}
      (hr : Directive.read rest = .read directive after)
      (hf : directive.perform progress = .error halt) : Stops total (0x25 :: rest) progress halt

/-- A directive has no effect for want of input exactly when it is no count and finds
none. -/
theorem Directive.effect_exhausted_iff {directive : Directive} {input : Bytes} (read : Nat) :
    directive.effect input read = .error .exhausted ↔
      directive.conversion ≠ .count ∧ directive.finds input = [] := by
  by_cases htakes : directive.conversion.takes = true
  · have hcount : directive.conversion ≠ .count := by
      intro hc
      rw [hc] at htakes
      cases htakes
    have hpercent : (directive.conversion == .percent) = false := by
      rw [beq_eq_false_iff_ne]
      intro hc
      rw [hc] at htakes
      cases htakes
    rw [Directive.effect_of_takes htakes, Directive.finds, hpercent, Bool.false_or]
    rcases ready_cases input directive.conversion.keepsBlanks with ⟨hnil, hready⟩ |
      ⟨hne, skipped, hready, _⟩
    · simp [hready, hcount, hnil]
    · rw [hready]
      dsimp only
      cases directive.conversion.taking? directive (input.drop skipped) <;> simp [hne]
  · cases hc : directive.conversion with
    | percent =>
      cases input with
      | nil => simp [Directive.effect, hc, Directive.finds, facing]
      | cons head tail =>
        by_cases hhead : head = 0x25 <;>
          simp [Directive.effect, hc, Directive.finds, facing, hhead]
    | count => simp [Directive.effect, hc]
    | unknown =>
      have hfinds : directive.finds input = facing input false := by
        rw [Directive.finds, hc]
        rfl
      rw [hfinds]
      rcases ready_cases input false with ⟨hnil, hready⟩ | ⟨hne, skipped, hready, _⟩
      · simp [Directive.effect, hc, hready, hnil]
      · simp [Directive.effect, hc, hready, hne]
    | _ => exact absurd (by rw [hc]; rfl) htakes

/-- Storing never fails for want of input. -/
theorem Effect.carryOut_error {effect : Effect} {progress : Progress} {halt : Halt}
    (h : effect.carryOut progress = .error halt) :
    ∃ error, halt = .failed error ∧
      error.argument? = some progress.targets.used.length := by
  unfold Effect.carryOut at h
  dsimp only at h
  cases hstore : effect.store with
  | none =>
    rw [hstore] at h
    cases h
  | some stored =>
    obtain ⟨expected, use⟩ := stored
    rw [hstore] at h
    rcases Progress.store_error h with ⟨_, rfl⟩ | ⟨_, _, _, _, rfl⟩
    · exact ⟨_, rfl, rfl⟩
    · exact ⟨_, rfl, rfl⟩

/-- A directive ends a scan for want of input exactly when it is no count and finds
none. -/
theorem Directive.perform_exhausted_iff {directive : Directive} {progress : Progress} :
    directive.perform progress = .error .exhausted ↔
      directive.conversion ≠ .count ∧ directive.finds progress.input = [] := by
  rw [Directive.perform_eq, ← Directive.effect_exhausted_iff progress.read]
  cases heffect : directive.effect progress.input progress.read with
  | error halt => simp
  | ok effect =>
    constructor
    · intro h
      obtain ⟨error, herror, _⟩ := Effect.carryOut_error h
      cases herror
    · intro h
      cases h

/-- A directive that fails names the first target that was not taken before it. -/
theorem Directive.perform_failed {directive : Directive} {progress : Progress}
    {error : FormatError} (h : directive.perform progress = .error (.failed error)) :
    error.argument? = some progress.targets.used.length := by
  rw [Directive.perform_eq] at h
  cases heffect : directive.effect progress.input progress.read with
  | error reason =>
    have hreason := Directive.effect_error heffect
    rw [heffect] at h
    cases h
    rcases hreason with hreason | hreason <;> cases hreason
  | ok effect =>
    rw [heffect] at h
    obtain ⟨named, hnamed, hplace⟩ := Effect.carryOut_error h
    cases hnamed
    exact hplace

/-- A directive assigns one value or none. -/
theorem Directive.effect_assigned {directive : Directive} {input : Bytes} {read : Nat}
    {effect : Effect} (h : directive.effect input read = .ok effect) :
    effect.assigned = if directive.assigns then 1 else 0 := by
  unfold Directive.assigns
  cases Directive.effects h with
  | taken htakes _ => cases hs : directive.suppressed <;> simp [Taking.effect, htakes]
  | counted hcount =>
    cases hs : directive.suppressed <;> simp [Directive.countEffect, hcount, hs, Conversion.takes]
  | passed hplain _ => rcases hplain with hc | hc <;> simp [hc, Conversion.takes]

/-- Where a scan stops it goes no further. -/
theorem Stops.run_eq {total : Nat} {rest : Bytes} {progress : Progress} {halt : Halt}
    (h : Stops total rest progress halt) :
    run total rest progress = ⟨progress, halt⟩ := by
  cases h with
  | ended => exact run_nil
  | zero => exact run_zero
  | unmatched hz hs hp hm => rw [run_literal hz hs hp, hm]
  | cut hr => exact run_cut hr
  | openSet hr => exact run_openSet hr
  | failed hr hf => rw [run_directive hr, hf]

/-- A scan stops for want of input exactly where the format asks for some and finds none. -/
theorem stops_exhausted_iff {total : Nat} {rest : Bytes} {progress : Progress} :
    Stops total rest progress .exhausted ↔ Starves rest progress.input := by
  constructor
  · intro h
    cases h with
    | unmatched hz hs hp hm =>
      have hnil : progress.input = [] := by
        unfold Progress.matchByte at hm
        split at hm
        · assumption
        · split at hm <;> cases hm
      rw [hnil]
      exact .literal hz hs hp
    | failed hr hf =>
      obtain ⟨hc, hi⟩ := Directive.perform_exhausted_iff.mp hf
      exact .directive hr hc hi
  · intro h
    generalize hinput : progress.input = input at h
    cases h with
    | literal hz hs hp =>
      refine .unmatched hz hs hp ?_
      unfold Progress.matchByte
      rw [hinput]
    | directive hr hc hi =>
      rw [← hinput] at hi
      exact .failed hr (Directive.perform_exhausted_iff.mpr ⟨hc, hi⟩)

section Courses

variable {total : Nat} {format : Bytes} {progress : Progress}
  {trace : List (Directive × Progress)} {stopped : Stopped}

/-- A scan counts the values that it assigns. -/
theorem Course.assigned_eq (course : Course total format progress trace stopped) :
    stopped.progress.assigned = progress.assigned + trace.countP (·.1.assigns) := by
  induction course with
  | ended => rfl
  | zero => rfl
  | unmatched => rfl
  | cut => rfl
  | openSet => rfl
  | failed => rfl
  | blank hc course ih => exact ih
  | literal hz hs hp hm course ih =>
    obtain ⟨_, rfl⟩ := Progress.matchByte_ok hm
    exact ih
  | directive hr hd course ih =>
    obtain ⟨effect, heffect, hcarry⟩ := Directive.exists_effect hd
    rw [ih, (effect.leads hcarry).assigned_eq, Directive.effect_assigned heffect,
      List.countP_cons]
    dsimp only
    omega

/-- The targets that a scan has not taken are the last ones of the list. -/
theorem Course.pending_eq (course : Course total format progress trace stopped)
    {targets : List ScanTarget}
    (h : progress.targets.pending = targets.drop progress.targets.used.length) :
    stopped.progress.targets.pending = targets.drop stopped.progress.targets.used.length := by
  refine course.preserves
    (P := fun other => other.targets.pending = targets.drop other.targets.used.length)
    (fun _ _ _ h => h) ?_ h
  intro directive other done hd h
  obtain ⟨effect, _, hcarry⟩ := Directive.exists_effect hd
  rcases (effect.leads hcarry).targets with ⟨_, htargets⟩ |
    ⟨_, _, target, rest, after, _, hpending, _, htargets⟩
  · rw [htargets]
    exact h
  · rw [htargets]
    rw [hpending] at h
    have hrest := congrArg (List.drop 1) h
    rw [List.drop_drop] at hrest
    simpa using hrest

/-- A scan that fails at a place in the list of targets does so at the first one that it
has not taken. -/
theorem Course.failed_at (course : Course total format progress trace stopped)
    {error : FormatError} (hf : stopped.halt = .failed error) {index : Nat}
    (hi : error.argument? = some index) : index = stopped.progress.targets.used.length := by
  induction course with
  | ended => cases hf
  | zero => cases hf
  | unmatched hz hs hp hm =>
    rcases Progress.matchByte_error hm with rfl | rfl <;> cases hf
  | cut => cases hf
  | openSet =>
    cases hf
    cases hi
  | failed hr hd =>
    dsimp only at hf
    rw [hf] at hd
    rw [Directive.perform_failed hd] at hi
    exact (Option.some.inj hi).symm
  | blank hc course ih => exact ih hf
  | literal hz hs hp hm course ih => exact ih hf
  | directive hr hd course ih => exact ih hf

/-- A scan comes to the place where it stops. -/
theorem Course.exists_stops (course : Course total format progress trace stopped) :
    ∃ rest, Comes format progress rest stopped.progress ∧
      Stops total rest stopped.progress stopped.halt := by
  induction course with
  | ended => exact ⟨_, .start, .ended⟩
  | zero => exact ⟨_, .start, .zero⟩
  | unmatched hz hs hp hm => exact ⟨_, .start, .unmatched hz hs hp hm⟩
  | cut hr => exact ⟨_, .start, .cut hr⟩
  | openSet hr => exact ⟨_, .start, .openSet hr⟩
  | failed hr hf => exact ⟨_, .start, .failed hr hf⟩
  | blank hc course ih =>
    obtain ⟨rest, way, hstops⟩ := ih
    exact ⟨rest, .blank hc way, hstops⟩
  | literal hz hs hp hm course ih =>
    obtain ⟨rest, way, hstops⟩ := ih
    exact ⟨rest, .literal hz hs hp hm way, hstops⟩
  | directive hr hd course ih =>
    obtain ⟨rest, way, hstops⟩ := ih
    exact ⟨rest, .directive hr hd way, hstops⟩

/-- A scan that has used the input up has come to where the format asks for more. -/
theorem Course.exists_starves (course : Course total format progress trace stopped)
    (he : stopped.halt = .exhausted) :
    ∃ rest, Comes format progress rest stopped.progress ∧ Starves rest stopped.progress.input := by
  obtain ⟨rest, way, hstops⟩ := course.exists_stops
  rw [he] at hstops
  exact ⟨rest, way, stops_exhausted_iff.mp hstops⟩

end Courses

/-- A scan goes on from a place that it comes to. -/
theorem Comes.resume {format later : Bytes} {progress reached : Progress}
    (way : Comes format progress later reached) (total : Nat) :
    run total format progress = run total later reached := by
  induction way with
  | start => rfl
  | blank hc way ih => rw [run_blank hc, ih]
  | literal hz hs hp hm way ih =>
    rw [run_literal hz hs hp, hm]
    exact ih
  | directive hr hd way ih =>
    rw [run_directive hr, hd]
    exact ih

/-- A scan that comes to where the format asks for more than is left stops there. -/
theorem Comes.run_eq {format later : Bytes} {progress reached : Progress}
    (way : Comes format progress later reached) (h : Starves later reached.input) (total : Nat) :
    run total format progress = ⟨reached, .exhausted⟩ := by
  rw [way.resume total, (stops_exhausted_iff.mpr h).run_eq]

/-- The marks of a scan are one for each value that it assigns and one for each count
that it stores. -/
theorem length_marksOf (trace : List (Directive × Progress)) :
    (marksOf trace).length =
      trace.countP (·.1.assigns) + trace.countP (·.1.storesCount) := by
  induction trace with
  | nil => rfl
  | cons step trace ih =>
    obtain ⟨directive, progress⟩ := step
    have hmark : (directive.mark? progress.read).toList.length =
        (if directive.assigns then 1 else 0) + if directive.storesCount then 1 else 0 := by
      unfold Directive.mark? Directive.assigns Directive.storesCount
      cases directive.suppressed with
      | true => rfl
      | false =>
        cases directive.conversion <;> rfl
    rw [marksOf_cons, List.length_append, ih, hmark, List.countP_cons, List.countP_cons]
    dsimp only
    omega

/-- A directive that takes a target converts. -/
theorem Directive.not_takes_of_not_converts {directive : Directive}
    (h : directive.conversion.converts = false) :
    directive.assigns = false ∧ directive.storesCount = false := by
  unfold Directive.assigns Directive.storesCount
  cases hc : directive.conversion <;> simp_all [Conversion.converts, Conversion.takes]

/-- The end of the input is reported when it stops a scan that has converted nothing. -/
theorem Stopped.result_eq_endOfInput {stopped : Stopped} :
    stopped.result = .ok .endOfInput ↔
      stopped.halt = .exhausted ∧ stopped.progress.conversions = 0 := by
  unfold Stopped.result
  cases stopped.halt with
  | exhausted => by_cases hnone : stopped.progress.conversions = 0 <;> simp [hnone]
  | finished | mismatch | failed error => simp

/-- Any other report gives the number of values assigned. -/
theorem Stopped.result_eq_assigned {stopped : Stopped} {count : Nat}
    (h : stopped.result = .ok (.assigned count)) : count = stopped.progress.assigned := by
  unfold Stopped.result at h
  cases hhalt : stopped.halt with
  | exhausted =>
    by_cases hnone : stopped.progress.conversions = 0
    · simp [hhalt, hnone] at h
    · simp only [hhalt, hnone, beq_iff_eq, if_false] at h
      cases h
      rfl
  | finished | mismatch =>
    rw [hhalt] at h
    cases h
    rfl
  | failed error =>
    rw [hhalt] at h
    cases h

/-- An error is reported when it stops a scan. -/
theorem Stopped.result_eq_error {stopped : Stopped} {error : FormatError}
    (h : stopped.result = .error error) : stopped.halt = .failed error := by
  unfold Stopped.result at h
  cases hhalt : stopped.halt with
  | exhausted => by_cases hnone : stopped.progress.conversions = 0 <;> simp [hhalt, hnone] at h
  | finished | mismatch =>
    rw [hhalt] at h
    cases h
  | failed error' =>
    rw [hhalt] at h
    cases h
    rfl

/-- What a scan reports and what it leaves alone. It takes targets from the front of the
list: one for each value that it assigns and one for each count that it stores. All
targets behind these are the ones it was given. It reports the number of values
assigned, unless it comes to where the format asks for more input than is left and
has carried out no conversion, a count included. In that case, and in no other, it
reports the end of the input, and all targets are the ones it was given. An error that
names a place in the list names the first target that was not taken. -/
theorem scan_outcome (input format : Bytes) (targets : List ScanTarget) :
    let stopped := run format.length format (.start input targets)
    let steps := performed format (.start input targets)
    let assigned := steps.countP (·.1.assigns)
    let taken := assigned + steps.countP (·.1.storesCount)
    let scanned := scan input format targets
    (stopped.progress.targets.used.length = taken ∧
        stopped.progress.targets.pending = targets.drop taken) ∧
      (scanned.targets.length = targets.length ∧
        scanned.targets.drop taken = targets.drop taken) ∧
      (∀ count, scanned.result = .ok (.assigned count) → count = assigned) ∧
      (scanned.result = .ok .endOfInput ↔
        (∀ step ∈ steps, step.1.conversion.converts = false) ∧
          stopped.progress.input = (untilZero input).drop stopped.progress.read ∧
          ∃ rest, Comes format (.start input targets) rest stopped.progress ∧
            Starves rest stopped.progress.input) ∧
      (scanned.result = .ok .endOfInput → scanned.targets = targets) ∧
      ∀ error index, scanned.result = .error error → error.argument? = some index →
        index = taken ∧ scanned.targets.drop index = targets.drop index := by
  intro stopped steps assigned taken scanned
  have hcourse : Course format.length format (.start input targets) steps stopped :=
    course_run format.length format (.start input targets)
  have hused : stopped.progress.targets.used.length = taken :=
    (noted_run input format targets).length_eq.symm.trans (length_marksOf steps)
  have hpending : stopped.progress.targets.pending = targets.drop taken := by
    rw [← hused]
    exact hcourse.pending_eq rfl
  have hassigned : stopped.progress.assigned = assigned := by
    rw [hcourse.assigned_eq]
    exact Nat.zero_add _
  have hstart : InStep (untilZero input) (.start input targets) := ⟨rfl, Nat.zero_le _⟩
  have hconversions : stopped.progress.conversions = 0 ↔
      ∀ step ∈ steps, step.1.conversion.converts = false := by
    have hzero := conversions_eq_zero input format targets
    simpa [stopped, steps] using hzero
  have hframe : scanned.targets.drop taken = targets.drop taken := by
    have hall : scanned.targets =
        stopped.progress.targets.used ++ stopped.progress.targets.pending := rfl
    rw [hall, ← hused, List.drop_left, hpending, hused]
  have hreport : scanned.result = stopped.result := rfl
  refine ⟨⟨hused, hpending⟩, ⟨hcourse.length_targets, hframe⟩, ?_, ?_, ?_, ?_⟩
  · intro count h
    rw [← hassigned]
    exact Stopped.result_eq_assigned h
  · rw [hreport, Stopped.result_eq_endOfInput, hconversions]
    constructor
    · rintro ⟨hhalt, hnone⟩
      exact ⟨hnone, (hcourse.inStep hstart).input_eq, hcourse.exists_starves hhalt⟩
    · rintro ⟨hnone, _, rest, hway, hstarves⟩
      exact ⟨congrArg Stopped.halt (hway.run_eq hstarves format.length), hnone⟩
  · intro h
    rw [hreport, Stopped.result_eq_endOfInput, hconversions] at h
    -- No target was taken, so the frame is the whole list.
    have hnone : taken = 0 := by
      have hassigns : assigned = 0 := by
        rw [List.countP_eq_zero]
        intro step hmem
        simp [(Directive.not_takes_of_not_converts (h.2 step hmem)).1]
      have hcounts : steps.countP (·.1.storesCount) = 0 := by
        rw [List.countP_eq_zero]
        intro step hmem
        simp [(Directive.not_takes_of_not_converts (h.2 step hmem)).2]
      omega
    rw [hnone] at hframe
    exact hframe
  · intro error index h hindex
    have hplace := hcourse.failed_at (Stopped.result_eq_error h) hindex
    rw [hplace, hused]
    exact ⟨rfl, hframe⟩

end Scan

end FormatScan
