import FormatScan.Proofs.Scan.Effect

/-!
# Scans as sequences of directives

Along a format a scan carries out directives until it stops. They are listed
here in order, each with what had been reached in front of it. The list tells
what the scan counted, and from it one can read which directive filled which
target.

Every step of a scan either moves on in the input or carries a directive out, so
what both of these preserve holds wherever a scan stops. In particular the
number of bytes read is always the number of bytes that are gone from the input,
and no target is ever lost.
-/

namespace FormatScan.Scan

/-- The place in front of a scan. -/
def Progress.start (input : Bytes) (targets : List ScanTarget) : Progress :=
  { input := untilZero input, targets := .start targets }

/-- The directives that a scan carries out along a format, each with what had
been reached in front of it. -/
def performed (format : Bytes) (progress : Progress) : List (Directive × Progress) :=
  match format with
  | [] => []
  | c :: rest =>
    if c == 0 then []
    else if Byte.isSpace c then performed rest progress.skipBlanks
    else if c != 0x25 then
      match progress.matchByte c with
      | .error _ => []
      | .ok progress => performed rest progress
    else
      match _h : Directive.read rest with
      | .cut => []
      | .openSet _ => []
      | .read directive after =>
        match directive.perform progress with
        | .error _ => []
        | .ok done => (directive, progress) :: performed after done
termination_by format.length
decreasing_by
  · simp
  · simp
  · exact Nat.lt_succ_of_le (Directive.length_le_of_readFrom _h)

section Performed

variable {rest : Bytes} {progress : Progress}

/-- Blanks carry nothing out. -/
theorem performed_blank {c : UInt8} (hc : Byte.isSpace c = true) :
    performed (c :: rest) progress = performed rest progress.skipBlanks := by
  have hz : ¬(c == 0) = true := by
    rw [beq_iff_eq]
    rintro rfl
    cases hc
  rw [performed, if_neg hz, if_pos hc]

/-- A byte that matches carries nothing out. -/
theorem performed_literal {c : UInt8} (hz : c ≠ 0) (hs : Byte.isSpace c = false) (hp : c ≠ 0x25)
    {next : Progress} (h : progress.matchByte c = .ok next) :
    performed (c :: rest) progress = performed rest next := by
  rw [performed, if_neg (by simpa using hz), if_neg (by simp [hs]), if_pos (by simpa using hp), h]

/-- Nothing is carried out from a byte on that does not match. -/
theorem performed_mismatch {c : UInt8} (hz : c ≠ 0) (hs : Byte.isSpace c = false) (hp : c ≠ 0x25)
    {halt : Halt} (h : progress.matchByte c = .error halt) :
    performed (c :: rest) progress = [] := by
  rw [performed, if_neg (by simpa using hz), if_neg (by simp [hs]), if_pos (by simpa using hp), h]

/-- A directive that succeeds is carried out ahead of those behind it. -/
theorem performed_directive {directive : Directive} {after : Bytes} {done : Progress}
    (hr : Directive.read rest = .read directive after) (h : directive.perform progress = .ok done) :
    performed (0x25 :: rest) progress = (directive, progress) :: performed after done := by
  rw [performed, if_neg (by decide), if_neg (by decide), if_neg (by decide)]
  split
  · rename_i heq
    rw [hr] at heq
    cases heq
  · rename_i heq
    rw [hr] at heq
    cases heq
  · rename_i heq
    rw [hr] at heq
    cases heq
    rw [h]

/-- Nothing is carried out from a directive on that fails, or is not read in
full. -/
theorem performed_stopped
    (h : ∀ directive after, Directive.read rest = .read directive after →
      ∃ halt, directive.perform progress = .error halt) :
    performed (0x25 :: rest) progress = [] := by
  rw [performed, if_neg (by decide), if_neg (by decide), if_neg (by decide)]
  split
  · rfl
  · rfl
  · rename_i directive after heq
    obtain ⟨halt, hfail⟩ := h directive after heq
    rw [hfail]

/-- Nothing is carried out where the format cuts a directive. -/
theorem performed_cut (hr : Directive.read rest = .cut) :
    performed (0x25 :: rest) progress = [] := by
  refine performed_stopped fun directive after heq => ?_
  rw [hr] at heq
  cases heq

/-- Nothing is carried out where the format leaves a scan set open. -/
theorem performed_openSet {after : Bytes} (hr : Directive.read rest = .openSet after) :
    performed (0x25 :: rest) progress = [] := by
  refine performed_stopped fun directive after heq => ?_
  rw [hr] at heq
  cases heq

/-- Nothing is carried out from a directive on that fails. -/
theorem performed_failed {directive : Directive} {after : Bytes} {halt : Halt}
    (hr : Directive.read rest = .read directive after)
    (hf : directive.perform progress = .error halt) :
    performed (0x25 :: rest) progress = [] := by
  refine performed_stopped fun other tail heq => ?_
  rw [hr] at heq
  cases heq
  exact ⟨halt, hf⟩

end Performed

/-- The course of a scan along a format: what it carries out, and how it stops. -/
inductive Course (total : Nat) : Bytes → Progress → List (Directive × Progress) → Stopped → Prop
  where
  /-- The format ends. -/
  | ended {progress : Progress} : Course total [] progress [] ⟨progress, .finished⟩
  /-- A zero byte ends the format. -/
  | zero {rest : Bytes} {progress : Progress} :
      Course total (0 :: rest) progress [] ⟨progress, .finished⟩
  /-- A blank skips blanks. -/
  | blank {c : UInt8} {rest : Bytes} {progress : Progress} {trace : List (Directive × Progress)}
      {stopped : Stopped} (hc : Byte.isSpace c = true)
      (course : Course total rest progress.skipBlanks trace stopped) :
      Course total (c :: rest) progress trace stopped
  /-- A byte matches. -/
  | literal {c : UInt8} {rest : Bytes} {progress next : Progress}
      {trace : List (Directive × Progress)} {stopped : Stopped} (hz : c ≠ 0)
      (hs : Byte.isSpace c = false) (hp : c ≠ 0x25) (hm : progress.matchByte c = .ok next)
      (course : Course total rest next trace stopped) :
      Course total (c :: rest) progress trace stopped
  /-- A byte does not match. -/
  | unmatched {c : UInt8} {rest : Bytes} {progress : Progress} {halt : Halt} (hz : c ≠ 0)
      (hs : Byte.isSpace c = false) (hp : c ≠ 0x25) (hm : progress.matchByte c = .error halt) :
      Course total (c :: rest) progress [] ⟨progress, halt⟩
  /-- The format cuts a directive. -/
  | cut {rest : Bytes} {progress : Progress} (hr : Directive.read rest = .cut) :
      Course total (0x25 :: rest) progress [] ⟨progress, .finished⟩
  /-- The format leaves a scan set open. -/
  | openSet {rest after : Bytes} {progress : Progress} (hr : Directive.read rest = .openSet after) :
      Course total (0x25 :: rest) progress []
        ⟨progress, .failed (.unterminatedScanSet (total - after.length))⟩
  /-- A directive fails. -/
  | failed {rest after : Bytes} {progress : Progress} {directive : Directive} {halt : Halt}
      (hr : Directive.read rest = .read directive after)
      (hf : directive.perform progress = .error halt) :
      Course total (0x25 :: rest) progress [] ⟨progress, halt⟩
  /-- A directive is carried out. -/
  | directive {rest after : Bytes} {progress done : Progress} {directive : Directive}
      {trace : List (Directive × Progress)} {stopped : Stopped}
      (hr : Directive.read rest = .read directive after)
      (hd : directive.perform progress = .ok done)
      (course : Course total after done trace stopped) :
      Course total (0x25 :: rest) progress ((directive, progress) :: trace) stopped

/-- A run takes the course of the directives that it performs. -/
theorem course_run (total : Nat) (format : Bytes) (progress : Progress) :
    Course total format progress (performed format progress) (run total format progress) := by
  fun_induction run total format progress with
  | case1 progress =>
    rw [performed]
    exact Course.ended
  | case2 progress c rest hz =>
    have hzero : c = 0 := by simpa using hz
    subst hzero
    rw [performed, if_pos hz]
    exact Course.zero
  | case3 progress c rest hz hs ih =>
    rw [performed_blank hs]
    exact Course.blank hs ih
  | case4 progress c rest hz hs hp halt hm =>
    have hz' : c ≠ 0 := by simpa using hz
    have hs' : Byte.isSpace c = false := by simpa using hs
    have hp' : c ≠ 0x25 := by simpa using hp
    rw [performed_mismatch hz' hs' hp' hm]
    exact Course.unmatched hz' hs' hp' hm
  | case5 progress c rest hz hs hp next hm ih =>
    have hz' : c ≠ 0 := by simpa using hz
    have hs' : Byte.isSpace c = false := by simpa using hs
    have hp' : c ≠ 0x25 := by simpa using hp
    rw [performed_literal hz' hs' hp' hm]
    exact Course.literal hz' hs' hp' hm ih
  | case6 progress c rest hz hs hp hr =>
    have hc : c = 0x25 := by simpa using hp
    subst hc
    rw [performed_cut hr]
    exact Course.cut hr
  | case7 progress c rest hz hs hp open_ hr =>
    have hc : c = 0x25 := by simpa using hp
    subst hc
    rw [performed_openSet hr]
    exact Course.openSet hr
  | case8 progress c rest hz hs hp directive after hr halt hf =>
    have hc : c = 0x25 := by simpa using hp
    subst hc
    rw [performed_failed hr hf]
    exact Course.failed hr hf
  | case9 progress c rest hz hs hp directive after hr done hd ih =>
    have hc : c = 0x25 := by simpa using hp
    subst hc
    rw [performed_directive hr hd]
    exact Course.directive hr hd ih

/-- There is only one course along a format, the one that a run takes. -/
theorem Course.eq_run {total : Nat} {format : Bytes} {progress : Progress}
    {trace : List (Directive × Progress)} {stopped : Stopped}
    (course : Course total format progress trace stopped) :
    performed format progress = trace ∧ run total format progress = stopped := by
  induction course with
  | ended => exact ⟨by rw [performed], run_nil⟩
  | zero => exact ⟨by rw [performed, if_pos (by decide)], run_zero⟩
  | blank hc course ih =>
    rw [performed_blank hc, run_blank hc]
    exact ih
  | literal hz hs hp hm course ih =>
    rw [performed_literal hz hs hp hm, run_literal hz hs hp, hm]
    exact ih
  | unmatched hz hs hp hm =>
    rw [performed_mismatch hz hs hp hm, run_literal hz hs hp, hm]
    exact ⟨rfl, rfl⟩
  | cut hr => exact ⟨performed_cut hr, run_cut hr⟩
  | openSet hr => exact ⟨performed_openSet hr, run_openSet hr⟩
  | failed hr hf =>
    rw [performed_failed hr hf, run_directive hr, hf]
    exact ⟨rfl, rfl⟩
  | directive hr hd course ih =>
    rw [performed_directive hr hd, run_directive hr, hd, ih.1]
    exact ⟨rfl, ih.2⟩

/-- A byte that matches is passed over. -/
theorem Progress.matchByte_ok {progress next : Progress} {c : UInt8}
    (h : progress.matchByte c = .ok next) :
    1 ≤ progress.input.length ∧ next = progress.advance 1 := by
  unfold Progress.matchByte at h
  split at h
  · cases h
  · rename_i head tail hinput
    split at h
    · cases h
      rw [hinput]
      exact ⟨Nat.succ_le_succ (Nat.zero_le _), rfl⟩
    · cases h

/-- A byte fails to match for want of input, or because another one stands there. -/
theorem Progress.matchByte_error {progress : Progress} {c : UInt8} {halt : Halt}
    (h : progress.matchByte c = .error halt) : halt = .exhausted ∨ halt = .mismatch := by
  unfold Progress.matchByte at h
  split at h
  · cases h
    exact Or.inl rfl
  · split at h
    · cases h
    · cases h
      exact Or.inr rfl

/-- Whether a byte matches is settled by the input alone. -/
theorem Progress.matchByte_of_input_eq (progress other : Progress)
    (hinput : other.input = progress.input) (c : UInt8) :
    other.matchByte c = (progress.matchByte c).map fun _ => other.advance 1 := by
  unfold Progress.matchByte
  rw [hinput]
  cases progress.input with
  | nil => rfl
  | cons head tail =>
    dsimp only
    by_cases hc : (head == c) = true
    · rw [if_pos hc, if_pos hc]
      rfl
    · rw [if_neg hc, if_neg hc]
      rfl

section Courses

variable {total : Nat} {format : Bytes} {progress : Progress}
  {trace : List (Directive × Progress)} {stopped : Stopped}

/-- What moving on in the input and carrying directives out preserve holds where
a scan stops. -/
theorem Course.preserves {P : Progress → Prop}
    (hadvance : ∀ progress count, count ≤ progress.input.length → P progress →
      P (progress.advance count))
    (hperform : ∀ directive progress done, Directive.perform directive progress = .ok done →
      P progress → P done)
    (course : Course total format progress trace stopped) (h : P progress) :
    P stopped.progress := by
  induction course with
  | ended => exact h
  | zero => exact h
  | unmatched => exact h
  | cut => exact h
  | openSet => exact h
  | failed => exact h
  | blank hc course ih =>
    exact ih (hadvance _ _ (List.takeWhile_sublist Byte.isSpace).length_le h)
  | literal hz hs hp hm course ih =>
    obtain ⟨hlen, rfl⟩ := Progress.matchByte_ok hm
    exact ih (hadvance _ _ hlen h)
  | directive hr hd course ih => exact ih (hperform _ _ _ hd h)

/-- The counters are in step with the input: what is left of it starts behind
the bytes read. -/
structure InStep (input : Bytes) (progress : Progress) : Prop where
  /-- What is left of the input. -/
  input_eq : progress.input = input.drop progress.read
  /-- No more is read than there is. -/
  read_le : progress.read ≤ input.length

/-- Passing over bytes of the input, and counting them, keeps the counters in
step. -/
theorem InStep.pass {input : Bytes} {progress done : Progress} (h : InStep input progress)
    {count : Nat} (hle : count ≤ progress.input.length)
    (hinput : done.input = progress.input.drop count) (hread : done.read = progress.read + count) :
    InStep input done := by
  have hlength : progress.input.length = input.length - progress.read := by
    rw [h.input_eq, List.length_drop]
  constructor
  · rw [hinput, hread, h.input_eq, List.drop_drop]
  · have hread_le := h.read_le
    omega

/-- A scan keeps its counters in step with the input. -/
theorem Course.inStep {input : Bytes} (course : Course total format progress trace stopped)
    (h : InStep input progress) :
    InStep input stopped.progress := by
  refine course.preserves ?_ ?_ h
  · intro progress count hle hstep
    exact hstep.pass hle rfl rfl
  · intro directive progress done hd hstep
    obtain ⟨effect, heffect, hcarry⟩ := Directive.exists_effect hd
    have hleads := effect.leads hcarry
    exact hstep.pass (Directive.effect_length_le heffect) hleads.input_eq hleads.read_eq

/-- A scan loses no target. -/
theorem Course.length_targets (course : Course total format progress trace stopped) :
    stopped.progress.targets.all.length = progress.targets.all.length := by
  refine course.preserves (P := fun other => other.targets.all.length = progress.targets.all.length)
    (fun _ _ _ h => h) ?_ rfl
  intro directive other done hd h
  obtain ⟨effect, _, hcarry⟩ := Directive.exists_effect hd
  rcases (effect.leads hcarry).targets with ⟨_, htargets⟩ |
    ⟨_, _, _, _, _, _, hpending, _, htargets⟩
  · rw [htargets]
    exact h
  · rw [← h, htargets]
    unfold Cursor.all
    rw [hpending]
    simp only [List.length_append, List.length_cons, List.length_nil]
    omega

/-- A scan never touches a target again that it has taken. -/
theorem Course.keeps_used (course : Course total format progress trace stopped) :
    progress.targets.used <+: stopped.progress.targets.used := by
  refine course.preserves (P := fun other => progress.targets.used <+: other.targets.used)
    (fun _ _ _ h => h) ?_ List.prefix_rfl
  intro directive other done hd h
  obtain ⟨effect, _, hcarry⟩ := Directive.exists_effect hd
  rcases (effect.leads hcarry).targets with ⟨_, htargets⟩ | ⟨_, _, _, _, _, _, _, _, htargets⟩
  · rw [htargets]
    exact h
  · rw [htargets]
    exact h.trans (List.prefix_append _ _)

/-- A scan assigns no more values than it converts. -/
theorem Course.assigned_le (course : Course total format progress trace stopped)
    (h : progress.assigned ≤ progress.conversions) :
    stopped.progress.assigned ≤ stopped.progress.conversions := by
  refine course.preserves (P := fun other => other.assigned ≤ other.conversions)
    (fun _ _ _ h => h) ?_ h
  intro directive other done hd h
  obtain ⟨effect, heffect, hcarry⟩ := Directive.exists_effect hd
  have hleads := effect.leads hcarry
  have hle := Directive.effect_assigned_le heffect
  rw [hleads.assigned_eq, hleads.conversions_eq]
  omega

/-- A scan counts the conversions that it carries out. -/
theorem Course.conversions_eq (course : Course total format progress trace stopped) :
    stopped.progress.conversions =
      progress.conversions + trace.countP (·.1.conversion.converts) := by
  induction course with
  | ended => rfl
  | zero => rfl
  | unmatched => rfl
  | cut => rfl
  | openSet => rfl
  | failed => rfl
  | blank hc course ih => exact ih
  | literal hz hs hp hm course ih =>
    obtain ⟨_, rfl⟩ := Progress.matchByte_ok hm
    exact ih
  | directive hr hd course ih =>
    obtain ⟨effect, heffect, hcarry⟩ := Directive.exists_effect hd
    rw [ih, (effect.leads hcarry).conversions_eq, Directive.effect_conversions heffect,
      List.countP_cons]
    dsimp only
    omega

end Courses

end FormatScan.Scan
