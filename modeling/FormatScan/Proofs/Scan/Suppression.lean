import FormatScan.Proofs.Scan.Frame

/-!
# Suppressed directives

A star keeps a directive from storing, and from nothing else: it takes the same bytes and
counts as carried out just the same. So a directive may be given a star after the fact,
when its target is taken out of the list. The scan then goes on behind it with the same
input and the same counters, one target and at most one assigned value short, and no
later step looks at either of these.
-/

namespace FormatScan.Scan

/-- A directive with a star. -/
def Directive.starred (directive : Directive) : Directive := { directive with suppressed := true }

/-- An effect that stores nothing and assigns nothing. -/
def Effect.starred (effect : Effect) : Effect := { effect with store := none, assigned := 0 }

/-- How much a directive adds to the report of a scan. -/
def Directive.values (directive : Directive) : Nat := if directive.assigns then 1 else 0

/-- A modifier is read alike behind a star. -/
theorem Directive.adjust_starred (directive : Directive) (c : UInt8) :
    directive.starred.adjust c = (directive.adjust c).starred := by
  unfold Directive.adjust
  split
  · rfl
  split
  · rfl
  cases LengthLetter.ofByte? c <;> rfl

/-- A star among the modifiers changes nothing else of a directive. -/
theorem Directive.readFrom_starred {start directive : Directive} {text after : Bytes}
    (h : Directive.readFrom start text = .read directive after) :
    Directive.readFrom start.starred text = .read directive.starred after := by
  rw [Directive.reads_iff] at h ⊢
  induction h with
  | modifier hc _ ih =>
    rw [← Directive.adjust_starred] at ih
    exact .modifier hc ih
  | set h => exact .set h
  | conversion hc hz hset => exact .conversion hc hz hset

/-- A star right behind the percent sign suppresses the directive. -/
theorem Directive.read_star {directive : Directive} {text after : Bytes}
    (h : Directive.read text = .read directive after) :
    Directive.read (0x2A :: text) = .read directive.starred after := by
  rw [Directive.read, Directive.readFrom, if_neg (by decide), if_pos (by decide)]
  exact Directive.readFrom_starred h

/-- A suppressed directive passes over the same bytes and converts as much. -/
theorem Directive.effect_starred {directive : Directive} {input : Bytes} {read : Nat}
    {effect : Effect} (h : directive.effect input read = .ok effect) :
    directive.starred.effect input read = .ok effect.starred := by
  by_cases htakes : directive.conversion.takes = true
  · have htaking : ∀ rest, directive.conversion.taking? directive.starred rest =
        directive.conversion.taking? directive rest := by
      intro rest
      cases directive.conversion <;> rfl
    have hstarred : directive.starred.conversion.takes = true := htakes
    rw [Directive.effect_of_takes htakes] at h
    rw [Directive.effect_of_takes hstarred]
    dsimp only [Directive.starred] at htaking ⊢
    cases hready : ready input directive.conversion.keepsBlanks with
    | error halt =>
      rw [hready] at h
      cases h
    | ok skipped =>
      rw [hready] at h
      dsimp only at h ⊢
      rw [htaking]
      cases htaken : directive.conversion.taking? directive (input.drop skipped) with
      | none =>
        rw [htaken] at h
        cases h
      | some taking =>
        rw [htaken] at h
        cases h
        unfold Taking.effect
        cases directive.suppressed <;> rfl
  · unfold Directive.effect at h ⊢
    dsimp only [Directive.starred]
    cases hc : directive.conversion with
    | percent =>
      rw [hc] at h
      cases input with
      | nil => cases h
      | cons head tail =>
        dsimp only at h ⊢
        by_cases hhead : (head == 0x25) = true
        · rw [if_pos hhead] at h ⊢
          cases h
          rfl
        · rw [if_neg hhead] at h
          cases h
    | count =>
      rw [hc] at h
      cases h
      unfold Directive.countEffect
      cases directive.suppressed <;> rfl
    | unknown =>
      rw [hc] at h
      dsimp only at h ⊢
      cases hready : ready input false with
      | error halt =>
        rw [hready] at h
        cases h
      | ok skipped =>
        rw [hready] at h
        cases h
        rfl
    | _ => exact absurd (by rw [hc]; rfl) htakes

/-- A place without one of the targets that were taken, and without some of the values
that were assigned. -/
def Progress.without (progress : Progress) (index values : Nat) : Progress :=
  { progress with
    targets := ⟨progress.targets.used.eraseIdx index, progress.targets.pending⟩
    assigned := progress.assigned - values }

/-- A directive that assigns or stores a count needs a target, and converts. -/
theorem Directive.exists_store {directive : Directive} {input : Bytes} {read : Nat}
    {effect : Effect} (ht : directive.assigns = true ∨ directive.storesCount = true)
    (h : directive.effect input read = .ok effect) :
    effect.store ≠ none ∧ effect.conversions = 1 := by
  have hsuppressed : directive.suppressed = false := by
    unfold Directive.assigns Directive.storesCount at ht
    cases hs : directive.suppressed <;> simp [hs] at ht ⊢
  cases Directive.effects h with
  | taken _ _ =>
    rw [Taking.effect, hsuppressed]
    exact ⟨Option.some_ne_none _, rfl⟩
  | counted _ =>
    rw [Directive.countEffect, hsuppressed]
    exact ⟨Option.some_ne_none _, rfl⟩
  | passed hplain _ =>
    unfold Directive.assigns Directive.storesCount at ht
    rcases hplain with hc | hc <;> simp [hc, Conversion.takes] at ht

/-- A directive that takes a target does the same with a star, without the target. -/
theorem Directive.exists_perform_starred {directive : Directive} {progress done : Progress}
    (ht : directive.assigns = true ∨ directive.storesCount = true)
    (h : directive.perform progress = .ok done) :
    ∃ target behind stored, progress.targets.pending = target :: behind ∧
      done.targets = ⟨progress.targets.used ++ [stored], behind⟩ ∧
      done.assigned = progress.assigned + directive.values ∧
      done.conversions = progress.conversions + 1 ∧
      directive.starred.perform (progress.withPending behind) =
        .ok (done.without progress.targets.used.length directive.values) := by
  obtain ⟨effect, heffect, hcarry⟩ := Directive.exists_effect h
  obtain ⟨hstore, hconversions⟩ := Directive.exists_store ht heffect
  have hassigned : effect.assigned = directive.values := Directive.effect_assigned heffect
  have hleads := effect.leads hcarry
  rcases hleads.targets with ⟨hnone, _⟩ | ⟨_, _, target, behind, stored, _, hpending, _, htargets⟩
  · exact absurd hnone hstore
  refine ⟨target, behind, stored, hpending, htargets, ?_, ?_, ?_⟩
  · rw [hleads.assigned_eq, hassigned]
  · rw [hleads.conversions_eq, hconversions]
  · have hplace : directive.starred.effect (progress.withPending behind).input
        (progress.withPending behind).read = .ok effect.starred :=
      Directive.effect_starred heffect
    have herased : done.targets.used.eraseIdx progress.targets.used.length =
        progress.targets.used := by
      rw [htargets, List.eraseIdx_append_of_length_le (Nat.le_refl _), Nat.sub_self]
      exact List.append_nil _
    have hvalues : done.assigned - directive.values = progress.assigned := by
      rw [hleads.assigned_eq, hassigned]
      exact Nat.add_sub_cancel _ _
    have hbehind : done.targets.pending = behind := by rw [htargets]
    rw [Directive.perform_eq, hplace]
    unfold Progress.without
    rw [herased, hvalues, hbehind, hleads.input_eq, hleads.read_eq, hleads.conversions_eq]
    rfl

section Without

variable {index values : Nat}

/-- Carrying an effect out does not look at the targets that were taken, nor at the values
that were assigned. -/
theorem Effect.carryOut_without {effect : Effect} {progress done : Progress}
    (hindex : index < progress.targets.used.length) (hvalues : values ≤ progress.assigned)
    (h : effect.carryOut progress = .ok done) :
    effect.carryOut (progress.without index values) = .ok (done.without index values) ∧
      index < done.targets.used.length ∧ values ≤ done.assigned := by
  have hsum : progress.assigned - values + effect.assigned =
      progress.assigned + effect.assigned - values := by omega
  unfold Effect.carryOut at h ⊢
  dsimp only [Progress.without] at h ⊢
  rw [hsum]
  cases hstore : effect.store with
  | none =>
    rw [hstore] at h
    cases h
    exact ⟨rfl, hindex, Nat.le_add_right_of_le hvalues⟩
  | some stored =>
    obtain ⟨expected, use⟩ := stored
    rw [hstore] at h
    obtain ⟨target, rest, after, hpending, huse, rfl⟩ := Progress.store_ok h
    dsimp only at hpending ⊢
    rw [hpending]
    refine ⟨?_, ?_, Nat.le_add_right_of_le hvalues⟩
    · rw [Progress.store_eq rfl expected huse, List.eraseIdx_append_of_lt_length hindex]
    · rw [List.length_append]
      exact Nat.lt_add_right _ hindex

/-- A directive looks neither at the targets that were taken nor at the values that were
assigned. -/
theorem Directive.perform_without {directive : Directive} {progress done : Progress}
    (hindex : index < progress.targets.used.length) (hvalues : values ≤ progress.assigned)
    (h : directive.perform progress = .ok done) :
    directive.perform (progress.without index values) = .ok (done.without index values) ∧
      index < done.targets.used.length ∧ values ≤ done.assigned := by
  obtain ⟨effect, heffect, hcarry⟩ := Directive.exists_effect h
  have hplace : directive.effect (progress.without index values).input
      (progress.without index values).read = .ok effect := heffect
  rw [Directive.perform_eq, hplace]
  exact Effect.carryOut_without hindex hvalues hcarry

/-- A scan goes the same way without a target that was taken and values that were
assigned. -/
theorem Comes.without {format later : Bytes} {progress reached : Progress}
    (way : Comes format progress later reached) (hindex : index < progress.targets.used.length)
    (hvalues : values ≤ progress.assigned) :
    Comes format (progress.without index values) later (reached.without index values) ∧
      index < reached.targets.used.length ∧ values ≤ reached.assigned := by
  induction way with
  | start => exact ⟨.start, hindex, hvalues⟩
  | blank hc way ih =>
    obtain ⟨hway, hreached⟩ := ih hindex hvalues
    exact ⟨.blank hc hway, hreached⟩
  | @literal c rest later progress next reached hz hs hp hm way ih =>
    have hmatch := progress.matchByte_of_input_eq (progress.without index values) rfl c
    rw [hm] at hmatch
    obtain ⟨_, rfl⟩ := Progress.matchByte_ok hm
    obtain ⟨hway, hreached⟩ := ih hindex hvalues
    exact ⟨.literal hz hs hp hmatch hway, hreached⟩
  | directive hr hd way ih =>
    obtain ⟨hperform, hindex', hvalues'⟩ := Directive.perform_without hindex hvalues hd
    obtain ⟨hway, hreached⟩ := ih hindex' hvalues'
    exact ⟨.directive hr hperform hway, hreached⟩

/-- Where a scan stops without an error it stops without the target and the values, too. -/
theorem Stops.without {total : Nat} {rest : Bytes} {progress : Progress} {halt : Halt}
    (h : Stops total rest progress halt) (hok : ∀ error, halt ≠ .failed error) (total' : Nat) :
    Stops total' rest (progress.without index values) halt := by
  cases h with
  | ended => exact .ended
  | zero => exact .zero
  | @unmatched c _ _ _ hz hs hp hm =>
    have hmatch := progress.matchByte_of_input_eq (progress.without index values) rfl c
    rw [hm] at hmatch
    exact .unmatched hz hs hp hmatch
  | cut hr => exact .cut hr
  | openSet hr => exact absurd rfl (hok _)
  | @failed _ _ _ directive _ hr hf =>
    have hplace : directive.effect (progress.without index values).input
        (progress.without index values).read =
          directive.effect progress.input progress.read := rfl
    refine .failed hr ?_
    rw [Directive.perform_eq] at hf ⊢
    rw [hplace]
    cases heffect : directive.effect progress.input progress.read with
    | error reason =>
      rw [heffect] at hf
      exact hf
    | ok effect =>
      rw [heffect] at hf
      obtain ⟨error, rfl, _⟩ := Effect.carryOut_error hf
      exact absurd rfl (hok error)

/-- A scan that stops without an error does so in the same way without a target that was
taken and values that were assigned, and leaves the rest alike. -/
theorem run_without {total : Nat} {format : Bytes} {progress : Progress} (total' : Nat)
    (hindex : index < progress.targets.used.length) (hvalues : values ≤ progress.assigned)
    (hok : ∀ error, (run total format progress).halt ≠ .failed error) :
    let stopped := run total format progress
    run total' format (progress.without index values) =
        ⟨stopped.progress.without index values, stopped.halt⟩ ∧
      index < stopped.progress.targets.used.length ∧ values ≤ stopped.progress.assigned := by
  intro stopped
  obtain ⟨rest, way, hstops⟩ := (course_run total format progress).exists_stops
  obtain ⟨hway, hindex', hvalues'⟩ := way.without hindex hvalues
  refine ⟨?_, hindex', hvalues'⟩
  rw [hway.resume total', (hstops.without hok total').run_eq]

end Without

/-- A directive that stores a count assigns no value. -/
theorem Directive.values_of_storesCount {directive : Directive}
    (h : directive.storesCount = true) : directive.values = 0 := by
  have hcount : directive.conversion = .count := by
    unfold Directive.storesCount at h
    simpa using (Bool.and_eq_true_iff.mp h).2
  rw [Directive.values, Directive.assigns, hcount]
  simp [Conversion.takes]

/-- A scan that stops without an error, and has converted something, reports the number of
values assigned. -/
theorem Stopped.result_of_converted {stopped : Stopped}
    (hok : ∀ error, stopped.halt ≠ .failed error) (hsome : stopped.progress.conversions ≠ 0) :
    stopped.result = .ok (.assigned stopped.progress.assigned) := by
  unfold Stopped.result
  cases hhalt : stopped.halt with
  | finished | mismatch => rfl
  | exhausted =>
    dsimp only
    rw [if_neg (by simpa using hsome)]
  | failed error => exact absurd hhalt (hok error)

/-- A scan that reports has stopped without an error. -/
theorem Stopped.halt_ne_failed {stopped : Stopped} {outcome : Outcome}
    (h : stopped.result = .ok outcome) (error : FormatError) : stopped.halt ≠ .failed error := by
  intro hhalt
  unfold Stopped.result at h
  rw [hhalt] at h
  cases h

/-- A scan comes to a directive as well when that has a star, with the targets in front of
it and behind its own. It carries the directive out, and goes on without the target. -/
theorem Comes.run_starred {input front rest after : Bytes} {targets : List ScanTarget}
    {reached done : Progress} {directive : Directive}
    (way : Comes (front ++ 0x25 :: rest) (.start input targets) (0x25 :: rest) reached)
    (hr : Directive.read rest = .read directive after)
    (hd : directive.perform reached = .ok done)
    (ht : directive.assigns = true ∨ directive.storesCount = true) (total : Nat) :
    reached.targets.used.length < targets.length ∧
      run total (front ++ 0x25 :: 0x2A :: rest)
          (.start input (targets.eraseIdx reached.targets.used.length)) =
        run total after (done.without reached.targets.used.length directive.values) := by
  obtain ⟨target, behind, _, hpending, -, -, -, hstarred⟩ :=
    Directive.exists_perform_starred ht hd
  obtain ⟨front', taken, hfront, hlist, hlength, hother⟩ := way.exists_front
  obtain rfl : front = front' := List.append_cancel_right hfront
  have htaken : reached.targets.used.length = taken.length := hlength.trans (Nat.zero_add _)
  have hsplit : targets = taken ++ target :: behind := by
    rw [← hpending]
    exact hlist
  have herased : targets.eraseIdx taken.length = taken ++ behind := by
    rw [hsplit, List.eraseIdx_append_of_length_le (Nat.le_refl _), Nat.sub_self]
    rfl
  constructor
  · rw [hsplit, htaken, List.length_append, List.length_cons]
    omega
  · have hplace := (hother (0x25 :: 0x2A :: rest) behind).resume total
    rw [run_directive (Directive.read_star hr), hstarred] at hplace
    rw [htaken] at hplace ⊢
    rw [herased]
    exact hplace

/-- Suppressing a directive after the fact. A scan that reports has carried out a directive
that took a target: it assigned a value or stored a count. Then the same scan with a star
right behind the percent sign of that directive, and without its target, reports as well.
It leaves all other targets as they were left, fields and counts behind the directive
included. It reports one value less when the directive assigned one, and the same when
the directive stored a count. -/
theorem scan_suppressed {input front rest after : Bytes} {targets : List ScanTarget}
    {reached done : Progress} {directive : Directive} {outcome : Outcome}
    (way : Comes (front ++ 0x25 :: rest) (.start input targets) (0x25 :: rest) reached)
    (hr : Directive.read rest = .read directive after)
    (hd : directive.perform reached = .ok done)
    (ht : directive.assigns = true ∨ directive.storesCount = true)
    (hok : (scan input (front ++ 0x25 :: rest) targets).result = .ok outcome) :
    let index := reached.targets.used.length
    let stored := scan input (front ++ 0x25 :: rest) targets
    let skipped := scan input (front ++ 0x25 :: 0x2A :: rest) (targets.eraseIdx index)
    (index < targets.length ∧ done.targets.used.length = index + 1) ∧
      skipped.targets = stored.targets.eraseIdx index ∧
      (directive.assigns = true → ∃ count, stored.result = .ok (.assigned (count + 1)) ∧
        skipped.result = .ok (.assigned count)) ∧
      (directive.storesCount = true → skipped.result = stored.result) := by
  intro index stored skipped
  let stopped := run (front ++ 0x25 :: rest).length after done
  obtain ⟨_, _, _, -, htargets, hassigned, hconversions, -⟩ :=
    Directive.exists_perform_starred ht hd
  have hused : done.targets.used.length = index + 1 := by
    rw [htargets, List.length_append]
    rfl
  have hvalues : directive.values ≤ done.assigned := by
    rw [hassigned]
    exact Nat.le_add_left _ _
  have hstored : stored = stopped.scanned := by
    have hrun := way.resume (front ++ 0x25 :: rest).length
    rw [run_directive hr, hd] at hrun
    exact (scan_eq input _ targets).trans (congrArg Stopped.scanned hrun)
  have hreport : stored.result = stopped.result := congrArg Scanned.result hstored
  have hhalt := Stopped.halt_ne_failed (hreport.symm.trans hok)
  -- Behind the directive both scans go the same way, up to where they stop.
  obtain ⟨hlt, hstart⟩ := way.run_starred hr hd ht (front ++ 0x25 :: 0x2A :: rest).length
  obtain ⟨hrun, hindex, hleast⟩ := run_without (front ++ 0x25 :: 0x2A :: rest).length
    (Nat.lt_of_lt_of_eq (Nat.lt_succ_self index) hused.symm) hvalues hhalt
  have hskipped : skipped =
      Stopped.scanned ⟨stopped.progress.without index directive.values, stopped.halt⟩ :=
    (scan_eq input _ _).trans (congrArg Stopped.scanned (hstart.trans hrun))
  have hconverted : stopped.progress.conversions ≠ 0 := by
    rw [(course_run _ after done).conversions_eq, hconversions]
    omega
  have hstoredReport := hreport.trans (Stopped.result_of_converted hhalt hconverted)
  have hskippedReport := (congrArg Scanned.result hskipped).trans
    (Stopped.result_of_converted hhalt hconverted)
  refine ⟨⟨hlt, hused⟩, ?_, fun hassigns => ?_, fun hcount => ?_⟩
  · rw [hskipped, hstored]
    exact (List.eraseIdx_append_of_lt_length hindex _).symm
  · have hone : directive.values = 1 := if_pos hassigns
    rw [hone] at hleast hskippedReport
    refine ⟨_, ?_, hskippedReport⟩
    rw [hstoredReport]
    exact congrArg (fun count => Except.ok (Outcome.assigned count))
      (Nat.sub_add_cancel hleast).symm
  · rw [hskippedReport, hstoredReport]
    have hnone := Directive.values_of_storesCount hcount
    dsimp only [Progress.without]
    rw [hnone, Nat.sub_zero]

/-- Of `1 2a`, scanned by `%u%x%n`, a star leaves the second number out. The count behind it
stays 4. -/
theorem scan_suppressed_hex :
    let input : Bytes := [0x31, 0x20, 0x32, 0x61]
    let stored := scan input [0x25, 0x75, 0x25, 0x78, 0x25, 0x6E] [.uint 0, .uint 0, .count 0]
    let skipped := scan input [0x25, 0x75, 0x25, 0x2A, 0x78, 0x25, 0x6E] [.uint 0, .count 0]
    stored.result = .ok (.assigned 2) ∧ stored.targets = [.uint 1, .uint 42, .count 4] ∧
      skipped.result = .ok (.assigned 1) ∧ skipped.targets = [.uint 1, .count 4] := by
  intro input stored skipped
  have hfirst : Directive.read [0x75, 0x25, 0x78, 0x25, 0x6E] =
      .read { conversion := .number { base := 10, signed := false } } [0x25, 0x78, 0x25, 0x6E] :=
    rfl
  have hperform : Directive.perform { conversion := .number { base := 10, signed := false } }
      (.start input [.uint 0, .uint 0, .count 0]) =
        .ok ⟨[0x20, 0x32, 0x61], 1, ⟨[.uint 1], [.uint 0, .count 0]⟩, 1, 1⟩ := by
    with_unfolding_all rfl
  have hr : Directive.read [0x78, 0x25, 0x6E] =
      .read { conversion := .number { base := 16, signed := false, marked := true } }
        [0x25, 0x6E] := rfl
  have hd : Directive.perform
      { conversion := .number { base := 16, signed := false, marked := true } }
      ⟨[0x20, 0x32, 0x61], 1, ⟨[.uint 1], [.uint 0, .count 0]⟩, 1, 1⟩ =
        .ok ⟨[], 4, ⟨[.uint 1, .uint 42], [.count 0]⟩, 2, 2⟩ := by
    with_unfolding_all rfl
  have way : Comes ([0x25, 0x75] ++ 0x25 :: [0x78, 0x25, 0x6E])
      (.start input [.uint 0, .uint 0, .count 0]) (0x25 :: [0x78, 0x25, 0x6E])
      ⟨[0x20, 0x32, 0x61], 1, ⟨[.uint 1], [.uint 0, .count 0]⟩, 1, 1⟩ :=
    .directive hfirst hperform .start
  have hresult : stored.result = .ok (.assigned 2) := by with_unfolding_all rfl
  have hleft : stored.targets = [.uint 1, .uint 42, .count 4] := by decide +kernel
  obtain ⟨-, htargets, hassigns, -⟩ := scan_suppressed way hr hd (Or.inl rfl) hresult
  obtain ⟨count, hcount, hless⟩ := hassigns rfl
  have hone : count = 1 := by
    have hsame := hresult.symm.trans hcount
    cases hsame
    rfl
  subst hone
  refine ⟨hresult, hleft, hless, htargets.trans ?_⟩
  exact congrArg (List.eraseIdx · 1) hleft

end FormatScan.Scan
