import FormatScan.Proofs.Scan.Walk

/-!
# Scanning behind another scan

A scan that goes on where another one stopped differs from one that starts there
in its counters alone: more bytes were read, more targets taken, more values
assigned and converted. The joined place of two scans adds these up, and every
step of the second one is the same step there.

What a count directive stores does change, by the bytes that were read in front.
It is stored in narrowed form, so it cannot be corrected in the target by adding
to it. Which targets hold counts, of how many bytes and how wide, is read off the
directives that were carried out: these are the marks of a scan.
-/

namespace FormatScan.Scan

/-- What a directive leaves in its target. -/
inductive Mark where
  /-- A value taken from the input. -/
  | value
  /-- A count of the bytes read, narrowed to a width. -/
  | count (width : OperandWidth) (read : Nat)
deriving DecidableEq, Repr

/-- A target that a directive has filled, with its count made again as if some
more bytes had been read in front. -/
def Mark.recount (offset : Nat) : Mark → ScanTarget → ScanTarget
  | value, target => target
  | count width read, target =>
    (intoCount (Int64.ofInt (width.signed (UInt64.ofNat (offset + read)))) target).getD target

/-- The targets of a scan with their counts made again. The marks belong to the
first of them. -/
def recount (offset : Nat) : List Mark → List ScanTarget → List ScanTarget
  | mark :: marks, target :: targets => mark.recount offset target :: recount offset marks targets
  | _, targets => targets

/-- What a directive leaves in a target, if it takes one. -/
def Directive.mark? (directive : Directive) (read : Nat) : Option Mark :=
  if directive.suppressed then none
  else if directive.conversion.takes then some .value
  else if directive.conversion == .count then some (.count directive.length.forTarget read)
  else none

/-- The marks that the directives of a scan leave, in the order of its targets. -/
def marksOf (trace : List (Directive × Progress)) : List Mark :=
  trace.filterMap fun step => step.1.mark? step.2.read

/-- A directive leaves its mark ahead of those behind it. -/
theorem marksOf_cons (directive : Directive) (progress : Progress)
    (trace : List (Directive × Progress)) :
    marksOf ((directive, progress) :: trace) =
      (directive.mark? progress.read).toList ++ marksOf trace := by
  unfold marksOf
  rw [List.filterMap_cons]
  dsimp only
  cases directive.mark? progress.read <;> rfl

/-- Without marks nothing is made again. -/
theorem recount_nil (offset : Nat) (targets : List ScanTarget) :
    recount offset [] targets = targets := by
  cases targets <;> rfl

/-- Marks go with their own targets. -/
theorem recount_append {marks : List Mark} {targets : List ScanTarget}
    (h : marks.length = targets.length) (offset : Nat) (marks' : List Mark)
    (targets' : List ScanTarget) :
    recount offset (marks ++ marks') (targets ++ targets') =
      recount offset marks targets ++ recount offset marks' targets' := by
  induction marks generalizing targets with
  | nil =>
    have hnil : targets = [] := List.eq_nil_of_length_eq_zero h.symm
    rw [hnil]
    rfl
  | cons mark marks ih =>
    cases targets with
    | nil => cases h
    | cons target targets =>
      rw [List.cons_append, List.cons_append, recount, recount, ih (Nat.succ.inj h)]
      rfl

/-- Making counts again keeps the targets. -/
theorem length_recount (offset : Nat) (marks : List Mark) (targets : List ScanTarget) :
    (recount offset marks targets).length = targets.length := by
  induction marks generalizing targets with
  | nil => rw [recount_nil]
  | cons mark marks ih =>
    cases targets with
    | nil => rfl
    | cons target targets => rw [recount, List.length_cons, List.length_cons, ih]

/-- The marks tell what the targets that were taken hold: each of those with a
count holds exactly that count. -/
structure Noted (marks : List Mark) (progress : Progress) : Prop where
  /-- Every target that was taken has a mark. -/
  length_eq : marks.length = progress.targets.used.length
  /-- It holds what its mark says. -/
  recount_eq : recount 0 marks progress.targets.used = progress.targets.used

/-- In front of a scan nothing is noted. -/
theorem Noted.start (input : Bytes) (targets : List ScanTarget) :
    Noted [] (.start input targets) :=
  ⟨rfl, rfl⟩

/-- Where nothing is carried out, nothing is noted. -/
theorem Noted.stop {marks : List Mark} {progress : Progress} (hn : Noted marks progress) :
    Noted (marks ++ marksOf []) progress := by
  have hnil : marks ++ marksOf [] = marks := List.append_nil marks
  rw [hnil]
  exact hn

/-- What two scans have reached together: the second one's place, counted on from
the first one, with some more targets behind those of the second. -/
def Progress.joined (first : Progress) (marks : List Mark) (second : Progress)
    (more : List ScanTarget) : Progress where
  input := second.input
  read := first.read + second.read
  targets := ⟨first.targets.used ++ recount first.read marks second.targets.used,
    second.targets.pending ++ more⟩
  assigned := first.assigned + second.assigned
  conversions := first.conversions + second.conversions

/-- An error behind a number of targets and a length of format. -/
def shiftError (index offset : Nat) : FormatError → FormatError
  | .missingArgument i => .missingArgument (index + i)
  | .argumentMismatch i expected found => .argumentMismatch (index + i) expected found
  | .unterminatedScanSet place => .unterminatedScanSet (offset + place)

/-- A stop behind a number of targets and a length of format. -/
def Halt.shift (index offset : Nat) : Halt → Halt
  | failed error => failed (shiftError index offset error)
  | halt => halt

/-- How the effect of a directive changes when more bytes were read in front of
it: only a count it stores does. -/
structure Effect.Recounted (effect effect' : Effect) (mark : Option Mark) (offset : Nat) : Prop
  where
  /-- It passes over the same bytes. -/
  length_eq : effect'.length = effect.length
  /-- It assigns as much. -/
  assigned_eq : effect'.assigned = effect.assigned
  /-- It converts as much. -/
  conversions_eq : effect'.conversions = effect.conversions
  /-- It stores nothing, or the same with its count made again. -/
  store : (mark = none ∧ effect.store = none ∧ effect'.store = none) ∨
    ∃ left expected use use', mark = some left ∧ effect.store = some (expected, use) ∧
      effect'.store = some (expected, use') ∧
      ∀ target, use' target = (use target).map (left.recount offset)

/-- The effect of a directive behind more bytes. -/
theorem Directive.exists_recounted {directive : Directive} {input : Bytes} {read : Nat}
    {effect : Effect} (h : directive.effect input read = .ok effect) (offset : Nat) :
    ∃ effect', directive.effect input (offset + read) = .ok effect' ∧
      effect.Recounted effect' (directive.mark? read) offset := by
  have heffects := Directive.effects h
  cases heffects with
  | @taken skipped taking htakes _ =>
    have hcount : directive.conversion ≠ .count := by
      intro hc
      rw [hc] at htakes
      cases htakes
    refine ⟨taking.effect skipped directive.suppressed, ?_, rfl, rfl, rfl, ?_⟩
    · rw [Directive.effect_of_not_count hcount input (offset + read) read]
      exact h
    · unfold Directive.mark? Taking.effect
      by_cases hs : directive.suppressed = true
      · rw [if_pos hs, if_pos hs]
        exact Or.inl ⟨rfl, rfl, rfl⟩
      · rw [if_neg hs, if_pos htakes, if_neg hs]
        refine Or.inr ⟨.value, taking.expected, taking.use, taking.use, rfl, rfl, rfl, ?_⟩
        intro target
        cases taking.use target <;> rfl
  | counted hcount =>
    refine ⟨directive.countEffect (offset + read), ?_, ?_⟩
    · unfold Directive.effect
      rw [hcount]
    · unfold Directive.mark? Directive.countEffect
      rw [hcount]
      by_cases hs : directive.suppressed = true
      · rw [if_pos hs, if_pos hs, if_pos hs]
        exact ⟨rfl, rfl, rfl, Or.inl ⟨rfl, rfl, rfl⟩⟩
      · rw [if_neg hs, if_neg hs, if_neg hs]
        refine ⟨rfl, rfl, rfl, Or.inr ⟨.count directive.length.forTarget read, .countSlot, _, _,
          rfl, rfl, rfl, ?_⟩⟩
        intro target
        cases target <;> rfl
  | @passed length hplain _ =>
    have hcount : directive.conversion ≠ .count := by
      intro hc
      rcases hplain with hplain | hplain <;> rw [hc] at hplain <;> cases hplain
    refine ⟨⟨length, none, 0, 0⟩, ?_, rfl, rfl, rfl, Or.inl ⟨?_, rfl, rfl⟩⟩
    · rw [Directive.effect_of_not_count hcount input (offset + read) read]
      exact h
    · unfold Directive.mark?
      rcases hplain with hc | hc
      · rw [hc]
        cases directive.suppressed <;> rfl
      · rw [hc]
        cases directive.suppressed <;> rfl

/-- The same effect behind more bytes leads to the joined place. -/
theorem Effect.carryOut_joined {effect effect' : Effect} {mark : Option Mark}
    {progress done first : Progress} {marks : List Mark}
    (hr : effect.Recounted effect' mark first.read)
    (hn : marks.length = progress.targets.used.length) (h : effect.carryOut progress = .ok done)
    (more : List ScanTarget) :
    effect'.carryOut (first.joined marks progress more) =
      .ok (first.joined (marks ++ mark.toList) done more) := by
  have hleads := effect.leads h
  obtain ⟨input, read, targets, assigned, conversions⟩ := done
  obtain ⟨hinput, hread, hassigned, hconversions, htargets⟩ := hleads
  dsimp only at hinput hread hassigned hconversions htargets
  have hread' : first.read + progress.read + effect.length = first.read + read := by omega
  have hassigned' : first.assigned + progress.assigned + effect.assigned =
      first.assigned + assigned := by omega
  have hconversions' : first.conversions + progress.conversions + effect.conversions =
      first.conversions + conversions := by omega
  unfold Effect.carryOut Progress.joined
  dsimp only
  rw [hr.length_eq, hr.assigned_eq, hr.conversions_eq, ← hinput, hread', hassigned', hconversions']
  rcases hr.store with ⟨hmark, hstore, hstore'⟩ |
    ⟨left, expected, use, use', hmark, hstore, hstore', huse⟩
  · rcases htargets with ⟨_, htargets⟩ | ⟨_, _, _, _, _, hsome, _⟩
    · rw [hstore', hmark, htargets, Option.toList_none, List.append_nil]
    · rw [hstore] at hsome
      cases hsome
  · rcases htargets with ⟨hnone, _⟩ |
      ⟨expected', use'', target, rest, after, hsome, hpending, hafter, htargets⟩
    · rw [hstore] at hnone
      cases hnone
    · rw [hstore] at hsome
      cases hsome
      have hafter' : use' target = some (left.recount first.read after) := by
        rw [huse, hafter]
        rfl
      have hpending' : progress.targets.pending ++ more = target :: (rest ++ more) := by
        rw [hpending, List.cons_append]
      rw [hstore', hmark, htargets, hpending']
      dsimp only
      rw [Progress.store_eq rfl expected hafter', Option.toList_some, recount_append hn,
        List.append_assoc]
      rfl

/-- A directive that is carried out leaves marks that are right. -/
theorem Noted.perform {directive : Directive} {progress done : Progress} {marks : List Mark}
    (hn : Noted marks progress) (h : directive.perform progress = .ok done) :
    Noted (marks ++ (directive.mark? progress.read).toList) done := by
  obtain ⟨effect, heffect, hcarry⟩ := Directive.exists_effect h
  obtain ⟨effect', heffect', hr⟩ := Directive.exists_recounted heffect 0
  -- Behind no further bytes the effect is the same, so what it stores is what its mark says.
  have hsame : effect' = effect := by
    rw [Nat.zero_add, heffect] at heffect'
    exact (Except.ok.inj heffect').symm
  subst hsame
  rcases (effect'.leads hcarry).targets with ⟨hnone, htargets⟩ |
    ⟨expected, use, target, rest, after, hsome, _, hafter, htargets⟩
  · rcases hr.store with ⟨hmark, _, _⟩ | ⟨_, _, _, _, _, hsome, _, _⟩
    · rw [hmark, Option.toList_none, List.append_nil]
      constructor
      · rw [htargets]
        exact hn.length_eq
      · rw [htargets]
        exact hn.recount_eq
    · rw [hnone] at hsome
      cases hsome
  · rcases hr.store with ⟨_, hnone, _⟩ | ⟨left, _, use', use'', hmark, hstore, hstore', huse⟩
    · rw [hsome] at hnone
      cases hnone
    · rw [hsome] at hstore hstore'
      cases hstore
      cases hstore'
      have hleft : left.recount 0 after = after := by
        have hmap := huse target
        rw [hafter, Option.map_some] at hmap
        exact (Option.some.inj hmap).symm
      rw [hmark, Option.toList_some]
      constructor
      · rw [htargets, List.length_append, List.length_append, hn.length_eq]
        rfl
      · rw [htargets, recount_append hn.length_eq, hn.recount_eq]
        dsimp only [recount]
        rw [hleft]

/-- A directive that is carried out is carried out at the joined place as well. -/
theorem Directive.perform_joined {directive : Directive} {progress done : Progress}
    {marks : List Mark} (hn : marks.length = progress.targets.used.length)
    (h : directive.perform progress = .ok done) (first : Progress) (more : List ScanTarget) :
    directive.perform (first.joined marks progress more) =
      .ok (first.joined (marks ++ (directive.mark? progress.read).toList) done more) := by
  obtain ⟨effect, heffect, hcarry⟩ := Directive.exists_effect h
  obtain ⟨effect', heffect', hr⟩ := Directive.exists_recounted heffect first.read
  have hplace : directive.effect (first.joined marks progress more).input
      (first.joined marks progress more).read = .ok effect' := heffect'
  rw [Directive.perform_eq, hplace]
  exact Effect.carryOut_joined hr hn hcarry more

/-- Storing fails for the same reason at the joined place, when that has no further
targets. -/
theorem Progress.store_joined_error {progress passed : Progress} {expected : OperandKind}
    {use use' : ScanTarget → Option ScanTarget} {index : Nat} {halt : Halt}
    (hpending : passed.targets.pending = progress.targets.pending)
    (hindex : passed.targets.used.length = index + progress.targets.used.length)
    (huse : ∀ target, use target = none → use' target = none)
    (h : progress.store expected use = .error halt) (offset : Nat) :
    passed.store expected use' = .error (halt.shift index offset) := by
  unfold Progress.store Cursor.take Cursor.index
  rcases Progress.store_error h with ⟨hnil, rfl⟩ | ⟨target, rest, hcons, hnone, rfl⟩
  · rw [hpending, hnil, hindex]
    rfl
  · rw [hpending, hcons, hindex]
    dsimp only
    rw [huse target hnone]
    rfl

/-- A directive fails for the same reason at the joined place, when that has no
further targets. -/
theorem Directive.perform_joined_error {directive : Directive} {progress : Progress} {halt : Halt}
    (h : directive.perform progress = .error halt) (marks : List Mark) (first : Progress)
    (offset : Nat) :
    directive.perform (first.joined marks progress []) =
      .error (halt.shift first.targets.used.length offset) := by
  have hplace : ∀ read, directive.effect (first.joined marks progress []).input read =
      directive.effect progress.input read := fun _ => rfl
  rw [Directive.perform_eq, hplace]
  rw [Directive.perform_eq] at h
  cases heffect : directive.effect progress.input progress.read with
  | error reason =>
    have hreason := Directive.effect_error heffect
    rw [heffect] at h
    cases h
    rw [Directive.effect_error_read heffect]
    rcases hreason with rfl | rfl <;> rfl
  | ok effect =>
    rw [heffect] at h
    obtain ⟨effect', heffect', hr⟩ := Directive.exists_recounted heffect first.read
    have hjoined : directive.effect progress.input (first.joined marks progress []).read =
        .ok effect' := heffect'
    rw [hjoined]
    dsimp only at h ⊢
    unfold Effect.carryOut at h ⊢
    dsimp only at h ⊢
    rcases hr.store with ⟨_, hstore, _⟩ | ⟨left, expected, use, use', _, hstore, hstore', huse⟩
    · rw [hstore] at h
      cases h
    · rw [hstore] at h
      rw [hstore']
      refine Progress.store_joined_error ?_ ?_ ?_ h offset
      · exact List.append_nil _
      · dsimp only [Progress.joined]
        rw [List.length_append, length_recount]
      · intro target hnone
        rw [huse, hnone]
        rfl

section Steps

variable {first progress : Progress} {marks : List Mark} {more : List ScanTarget}

/-- Moving on in the input is moving on at the joined place. -/
theorem Progress.advance_joined (count : Nat) :
    (first.joined marks progress more).advance count =
      first.joined marks (progress.advance count) more := by
  have hread : first.read + progress.read + count = first.read + (progress.read + count) :=
    Nat.add_assoc _ _ _
  dsimp only [Progress.advance, Progress.joined]
  rw [hread]

/-- Skipping blanks is skipping them at the joined place. -/
theorem Progress.skipBlanks_joined :
    (first.joined marks progress more).skipBlanks = first.joined marks progress.skipBlanks more :=
  Progress.advance_joined _

/-- A byte matches at the joined place as it does at the second one. -/
theorem Progress.matchByte_joined (c : UInt8) :
    (first.joined marks progress more).matchByte c =
      match progress.matchByte c with
      | .error halt => .error halt
      | .ok next => .ok (first.joined marks next more) := by
  rw [progress.matchByte_of_input_eq (first.joined marks progress more) rfl]
  cases hm : progress.matchByte c with
  | error halt => rfl
  | ok next =>
    obtain ⟨_, rfl⟩ := Progress.matchByte_ok hm
    exact congrArg Except.ok (Progress.advance_joined 1)

end Steps

end FormatScan.Scan
