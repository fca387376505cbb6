import FormatScan.Proofs.Scan.Walk

/-!
# Targets keep their kinds

A directive that stores changes what its target holds, and never what kind of target it
is: a way of using targets either refuses one or yields one of the same kind. So a list
of targets goes through a scan with its kinds, place by place.
-/

namespace FormatScan.Scan

/-- A way of using targets yields targets of the kind that it is given. -/
def KeepsKind (use : ScanTarget → Option ScanTarget) : Prop :=
  ∀ target after, use target = some after → after.kind = target.kind

theorem keepsKind_intoBuffer (write : Bytes → Bytes) : KeepsKind (intoBuffer write) := by
  intro target after h
  cases target <;> cases h
  rfl

theorem keepsKind_intoCount (value : Int64) : KeepsKind (intoCount value) := by
  intro target after h
  cases target <;> cases h <;> rfl

theorem keepsKind_intoPointer (bits : UInt64) : KeepsKind (intoPointer bits) := by
  intro target after h
  cases target <;> cases h <;> rfl

theorem keepsKind_intoInteger (width : OperandWidth) (bits : UInt64) :
    KeepsKind (intoInteger width bits) := by
  intro target after h
  cases target <;> cases h <;> rfl

/-- What a conversion makes of a target is of the same kind. -/
theorem Conversion.keepsKind_taking? {conversion : Conversion} {directive : Directive}
    {input : Bytes} {taking : Taking} (h : conversion.taking? directive input = some taking) :
    KeepsKind taking.use := by
  cases conversion with
  | percent | count | unknown => cases h
  | chars | word =>
    cases h
    exact keepsKind_intoBuffer _
  | set accepted =>
    dsimp only [taking?] at h
    split at h
    · cases h
    · cases h
      exact keepsKind_intoBuffer _
  | number format =>
    obtain ⟨field, _, rfl⟩ := Option.map_eq_some_iff.mp h
    dsimp only
    split
    · exact keepsKind_intoPointer _
    · exact keepsKind_intoInteger _ _

/-- What a directive stores keeps the kind of its target. -/
theorem Directive.keepsKind_effect {directive : Directive} {input : Bytes} {read : Nat}
    {effect : Effect} (h : directive.effect input read = .ok effect) {expected : OperandKind}
    {use : ScanTarget → Option ScanTarget} (hstore : effect.store = some (expected, use)) :
    KeepsKind use := by
  by_cases htakes : directive.conversion.takes = true
  · rw [Directive.effect_of_takes htakes] at h
    cases hready : ready input directive.conversion.keepsBlanks with
    | error halt =>
      rw [hready] at h
      cases h
    | ok skipped =>
      rw [hready] at h
      dsimp only at h
      cases htaking : directive.conversion.taking? directive (input.drop skipped) with
      | none =>
        rw [htaking] at h
        cases h
      | some taking =>
        rw [htaking] at h
        cases h
        unfold Taking.effect at hstore
        split at hstore
        · cases hstore
        · cases hstore
          exact Conversion.keepsKind_taking? htaking
  · cases Directive.effects h with
    | taken htakes' => exact absurd htakes' htakes
    | counted =>
      unfold Directive.countEffect at hstore
      split at hstore
      · cases hstore
      · cases hstore
        exact keepsKind_intoCount _
    | passed => cases hstore

/-- A scan keeps the kinds of its targets. -/
theorem Course.kinds {total : Nat} {format : Bytes} {progress : Progress}
    {trace : List (Directive × Progress)} {stopped : Stopped}
    (course : Course total format progress trace stopped) :
    stopped.progress.targets.all.map ScanTarget.kind =
      progress.targets.all.map ScanTarget.kind := by
  refine course.preserves
    (P := fun other => other.targets.all.map ScanTarget.kind =
      progress.targets.all.map ScanTarget.kind) (fun _ _ _ h => h) ?_ rfl
  intro directive other done hd h
  obtain ⟨effect, heffect, hcarry⟩ := Directive.exists_effect hd
  rcases (effect.leads hcarry).targets with ⟨_, htargets⟩ |
    ⟨_, use, target, rest, after, hstore, hpending, huse, htargets⟩
  · rw [htargets]
    exact h
  · have hkind : after.kind = target.kind := Directive.keepsKind_effect heffect hstore _ _ huse
    rw [← h, htargets]
    unfold Cursor.all
    rw [hpending, List.append_assoc, List.singleton_append, List.map_append, List.map_append,
      List.map_cons, List.map_cons, hkind]

theorem kinds_scan (input format : Bytes) (targets : List ScanTarget) :
    (scan input format targets).targets.map ScanTarget.kind = targets.map ScanTarget.kind :=
  (course_run format.length format (.start input targets)).kinds

end FormatScan.Scan
