import FormatScan.Proofs.Scan.Outcome

/-!
# What a scan has not come to

A directive takes the next target or none, and looks at no other. It is settled by its own
bytes, and what stands behind them does not matter. So what a scan does up to some place
says nothing of the targets that are pending there, nor of the format from there on:
either may be exchanged, and the scan comes to the same place.
-/

namespace FormatScan.Scan

/-- A place with other targets pending. -/
def Progress.withPending (progress : Progress) (pending : List ScanTarget) : Progress :=
  { progress with targets := ⟨progress.targets.used, pending⟩ }

/-- A place with some more targets behind those that are pending. -/
def Progress.extend (progress : Progress) (others : List ScanTarget) : Progress :=
  progress.withPending (progress.targets.pending ++ others)

/-- Carrying an effect out takes some targets and leaves those behind them alone. -/
theorem Effect.carryOut_withPending {effect : Effect} {progress done : Progress}
    (h : effect.carryOut progress = .ok done) :
    ∃ taken, progress.targets.pending = taken ++ done.targets.pending ∧
      done.targets.used.length = progress.targets.used.length + taken.length ∧
      ∀ pending, effect.carryOut (progress.withPending (taken ++ pending)) =
        .ok (done.withPending pending) := by
  unfold Effect.carryOut at h ⊢
  dsimp only at h ⊢
  cases hstore : effect.store with
  | none =>
    rw [hstore] at h
    cases h
    exact ⟨[], rfl, rfl, fun pending => rfl⟩
  | some stored =>
    obtain ⟨expected, use⟩ := stored
    rw [hstore] at h
    obtain ⟨target, rest, after, hpending, huse, rfl⟩ := Progress.store_ok h
    refine ⟨[target], hpending, List.length_append, fun pending => ?_⟩
    exact Progress.store_eq rfl expected huse

/-- A directive takes some targets and leaves those behind them alone. -/
theorem Directive.perform_withPending {directive : Directive} {progress done : Progress}
    (h : directive.perform progress = .ok done) :
    ∃ taken, progress.targets.pending = taken ++ done.targets.pending ∧
      done.targets.used.length = progress.targets.used.length + taken.length ∧
      ∀ pending, directive.perform (progress.withPending (taken ++ pending)) =
        .ok (done.withPending pending) := by
  obtain ⟨effect, heffect, hcarry⟩ := Directive.exists_effect h
  obtain ⟨taken, hpending, hlength, hother⟩ := Effect.carryOut_withPending hcarry
  refine ⟨taken, hpending, hlength, fun pending => ?_⟩
  have hplace : directive.effect (progress.withPending (taken ++ pending)).input
      (progress.withPending (taken ++ pending)).read = .ok effect := heffect
  rw [Directive.perform_eq, hplace]
  exact hother pending

/-- A scan comes to a place behind some of the format, with some targets taken, and comes
to it as well when other targets are pending there and the format goes on otherwise. -/
theorem Comes.exists_front {format later : Bytes} {progress reached : Progress}
    (way : Comes format progress later reached) :
    ∃ front taken, format = front ++ later ∧
      progress.targets.pending = taken ++ reached.targets.pending ∧
      reached.targets.used.length = progress.targets.used.length + taken.length ∧
      ∀ more pending, Comes (front ++ more) (progress.withPending (taken ++ pending)) more
        (reached.withPending pending) := by
  induction way with
  | start => exact ⟨[], [], rfl, rfl, rfl, fun _ _ => .start⟩
  | @blank c rest later progress reached hc way ih =>
    obtain ⟨front, taken, hformat, hpending, hlength, hother⟩ := ih
    refine ⟨c :: front, taken, ?_, hpending, hlength, fun more pending => ?_⟩
    · rw [hformat, List.cons_append]
    · exact .blank hc (hother more pending)
  | @literal c rest later progress next reached hz hs hp hm way ih =>
    obtain ⟨front, taken, hformat, hpending, hlength, hother⟩ := ih
    obtain ⟨_, rfl⟩ := Progress.matchByte_ok hm
    refine ⟨c :: front, taken, ?_, hpending, hlength, fun more pending => ?_⟩
    · rw [hformat, List.cons_append]
    · have hmatch :=
        progress.matchByte_of_input_eq (progress.withPending (taken ++ pending)) rfl c
      rw [hm] at hmatch
      exact .literal hz hs hp hmatch (hother more pending)
  | @directive rest after later progress done reached directive hr hd way ih =>
    obtain ⟨front, taken, hformat, hpending, hlength, hother⟩ := ih
    obtain ⟨own, hown, hcount, hperform⟩ := Directive.perform_withPending hd
    obtain ⟨consumed, hrest, hread⟩ := Directive.exists_consumed hr
    refine ⟨0x25 :: (consumed ++ front), own ++ taken, ?_, ?_, ?_, fun more pending => ?_⟩
    · rw [hrest, hformat, List.cons_append, List.append_assoc]
    · rw [hown, hpending, List.append_assoc]
    · rw [hlength, hcount, List.length_append, Nat.add_assoc]
    · rw [List.cons_append, List.append_assoc, List.append_assoc]
      exact .directive (hread (front ++ more)) (hperform (taken ++ pending)) (hother more pending)

/-- A scan comes to the same place with some more targets behind. -/
theorem Comes.extend {format later : Bytes} {progress reached : Progress}
    (way : Comes format progress later reached) (others : List ScanTarget) :
    Comes format (progress.extend others) later (reached.extend others) := by
  obtain ⟨front, taken, rfl, hpending, -, hother⟩ := way.exists_front
  have hextended := hother later (reached.targets.pending ++ others)
  rw [← List.append_assoc, ← hpending] at hextended
  exact hextended

/-- What a scan leaves that stopped. -/
def Stopped.scanned (stopped : Stopped) : Scanned :=
  ⟨stopped.progress.targets.all, stopped.result⟩

/-- A scan leaves what it has reached where it stops. -/
theorem scan_eq (input format : Bytes) (targets : List ScanTarget) :
    scan input format targets =
      (run format.length format (.start input targets)).scanned := rfl

end FormatScan.Scan
