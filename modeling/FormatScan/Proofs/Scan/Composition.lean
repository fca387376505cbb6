import FormatScan.Proofs.Scan.Joining

/-!
# Scanning one format behind another

A format may be cut between two directives, and the input where the first part
stopped reading. Scanning the second part there, with the targets that the first
one left, does what scanning the whole format does. Only what counts from the
front shows the cut: the numbers of bytes that `%n` stores, the number of values
assigned, whether anything was converted, and the places that errors name.

A scan in front goes on behind its format at the place that it reached, and from
there on the second scan takes the course it takes by itself.
-/

namespace FormatScan.Scan

/-- A format that ends between two directives. -/
inductive Whole : Bytes → Prop where
  /-- Nothing is left. -/
  | nil : Whole []
  /-- A byte stands in front that starts no directive. -/
  | byte {c : UInt8} {rest : Bytes} (hp : c ≠ 0x25) (h : Whole rest) : Whole (c :: rest)
  /-- A directive stands in front that is read in full. -/
  | directive {rest after : Bytes} {directive : Directive}
      (hr : Directive.read rest = .read directive after) (h : Whole after) : Whole (0x25 :: rest)

/-- A whole format is whole behind a byte that starts no directive. -/
theorem Whole.behind_byte {c : UInt8} {rest : Bytes} (h : Whole (c :: rest)) (hp : c ≠ 0x25) :
    Whole rest := by
  cases h with
  | byte _ h => exact h
  | directive _ _ => exact absurd rfl hp

/-- A whole format is whole behind a directive, which is read in full. -/
theorem Whole.behind_directive {rest : Bytes} (h : Whole (0x25 :: rest)) :
    ∃ directive after, Directive.read rest = .read directive after ∧ Whole after := by
  cases h with
  | byte hp _ => exact absurd rfl hp
  | directive hr h => exact ⟨_, _, hr, h⟩

section Courses

variable {total : Nat} {format : Bytes} {progress : Progress}
  {trace : List (Directive × Progress)} {stopped : Stopped}

/-- The marks of a scan are right where it stops. -/
theorem Course.noted (course : Course total format progress trace stopped) {marks : List Mark}
    (hn : Noted marks progress) : Noted (marks ++ marksOf trace) stopped.progress := by
  induction course generalizing marks with
  | ended => exact hn.stop
  | zero => exact hn.stop
  | unmatched => exact hn.stop
  | cut => exact hn.stop
  | openSet => exact hn.stop
  | failed => exact hn.stop
  | blank hc course ih => exact ih ⟨hn.length_eq, hn.recount_eq⟩
  | literal hz hs hp hm course ih =>
    obtain ⟨_, rfl⟩ := Progress.matchByte_ok hm
    exact ih ⟨hn.length_eq, hn.recount_eq⟩
  | directive hr hd course ih =>
    have hrest := ih (hn.perform hd)
    rw [marksOf_cons, ← List.append_assoc]
    exact hrest

/-- A scan that comes to the end of a whole format goes on behind it as the
joined place says, whatever format and targets follow. -/
theorem Course.append (course : Course total format progress trace stopped) (hw : Whole format)
    (hz : 0 ∉ format) (hfinished : stopped.halt = .finished) {marks : List Mark}
    (hn : Noted marks progress) (total' : Nat) (second : Bytes) (first : Progress)
    (more : List ScanTarget) :
    run total' (format ++ second) (first.joined marks progress more) =
      run total' second (first.joined (marks ++ marksOf trace) stopped.progress more) := by
  induction course generalizing marks with
  | ended =>
    have hnil : marks ++ marksOf [] = marks := List.append_nil marks
    rw [hnil, List.nil_append]
  | zero => exact absurd List.mem_cons_self hz
  | unmatched _ _ _ hm =>
    cases hfinished
    rcases Progress.matchByte_error hm with hhalt | hhalt <;> cases hhalt
  | cut hr =>
    obtain ⟨directive, after, hr', _⟩ := hw.behind_directive
    rw [hr] at hr'
    cases hr'
  | openSet hr => cases hfinished
  | failed hr hf =>
    cases hfinished
    exact absurd hf Directive.perform_ne_finished
  | blank hc course ih =>
    have hp : ∀ c : UInt8, Byte.isSpace c = true → c ≠ 0x25 := by
      rintro c hc rfl
      cases hc
    have hrest := ih (hw.behind_byte (hp _ hc)) (fun h => hz (List.mem_cons_of_mem _ h)) hfinished
      ⟨hn.length_eq, hn.recount_eq⟩
    rw [List.cons_append, run_blank hc, Progress.skipBlanks_joined]
    exact hrest
  | literal hc hs hp hm course ih =>
    obtain ⟨_, rfl⟩ := Progress.matchByte_ok hm
    have hrest := ih (hw.behind_byte hp) (fun h => hz (List.mem_cons_of_mem _ h)) hfinished
      ⟨hn.length_eq, hn.recount_eq⟩
    rw [List.cons_append, run_literal hc hs hp, Progress.matchByte_joined, hm]
    exact hrest
  | @directive rest after progress done directive trace stopped hr hd course ih =>
    obtain ⟨directive', after', hr', hw'⟩ := hw.behind_directive
    rw [hr] at hr'
    cases hr'
    have hafter : after <:+ rest := Directive.readFrom_suffix (Or.inl ⟨directive, hr⟩)
    have hz' : 0 ∉ after := fun h => hz (List.mem_cons_of_mem _ (hafter.subset h))
    have hrest := ih hw' hz' hfinished (hn.perform hd)
    rw [List.cons_append, run_directive (Directive.read_append hr second),
      Directive.perform_joined hn.length_eq hd, marksOf_cons, ← List.append_assoc]
    exact hrest

/-- A scan at the joined place does what it does at the second one. -/
theorem Course.joined (course : Course total format progress trace stopped)
    (hlen : format.length ≤ total) {marks : List Mark} (hn : Noted marks progress)
    (first : Progress) (offset : Nat) :
    run (offset + total) format (first.joined marks progress []) =
      ⟨first.joined (marks ++ marksOf trace) stopped.progress [],
        stopped.halt.shift first.targets.used.length offset⟩ := by
  have hstop : ∀ (marks : List Mark) (progress : Progress),
      first.joined (marks ++ marksOf []) progress [] = first.joined marks progress [] := by
    intro marks progress
    have hnil : marks ++ marksOf [] = marks := List.append_nil marks
    rw [hnil]
  induction course generalizing marks with
  | ended => rw [run_nil, hstop]; rfl
  | zero => rw [run_zero, hstop]; rfl
  | unmatched hz hs hp hm =>
    rw [run_literal hz hs hp, Progress.matchByte_joined, hm, hstop]
    rcases Progress.matchByte_error hm with rfl | rfl <;> rfl
  | cut hr => rw [run_cut hr, hstop]; rfl
  | @openSet rest after progress hr =>
    have hafter : after <:+ rest := Directive.readFrom_suffix (Or.inr hr)
    have hle := hafter.length_le
    have hplace : offset + total - after.length = offset + (total - after.length) := by
      rw [List.length_cons] at hlen
      omega
    rw [run_openSet hr, hstop, hplace]
    rfl
  | failed hr hf =>
    rw [run_directive hr, Directive.perform_joined_error hf marks first offset, hstop]
  | blank hc course ih =>
    rw [List.length_cons] at hlen
    rw [run_blank hc, Progress.skipBlanks_joined]
    exact ih (by omega) ⟨hn.length_eq, hn.recount_eq⟩
  | literal hc hs hp hm course ih =>
    rw [List.length_cons] at hlen
    rw [run_literal hc hs hp, Progress.matchByte_joined, hm]
    obtain ⟨_, rfl⟩ := Progress.matchByte_ok hm
    exact ih (by omega) ⟨hn.length_eq, hn.recount_eq⟩
  | @directive rest after progress done directive trace stopped hr hd course ih =>
    have hafter : after <:+ rest := Directive.readFrom_suffix (Or.inl ⟨directive, hr⟩)
    have hle := hafter.length_le
    rw [List.length_cons] at hlen
    have hrest := ih (by omega) (hn.perform hd)
    rw [run_directive hr, Directive.perform_joined hn.length_eq hd, marksOf_cons,
      ← List.append_assoc]
    exact hrest

end Courses

/-- The marks of a scan are right. -/
theorem noted_run (input format : Bytes) (targets : List ScanTarget) :
    Noted (marksOf (performed format (.start input targets)))
      (run format.length format (.start input targets)).progress :=
  (course_run format.length format (.start input targets)).noted (Noted.start input targets)

/-- The marks of a scan make counts again among the targets that it took. -/
theorem recount_scan (input format : Bytes) (targets : List ScanTarget) (offset : Nat) :
    let stopped := run format.length format (.start input targets)
    recount offset (marksOf (performed format (.start input targets)))
        (scan input format targets).targets =
      recount offset (marksOf (performed format (.start input targets)))
        stopped.progress.targets.used ++ stopped.progress.targets.pending := by
  intro stopped
  have hnoted := noted_run input format targets
  have hsplit := recount_append hnoted.length_eq offset [] stopped.progress.targets.pending
  rw [List.append_nil, recount_nil] at hsplit
  exact hsplit

/-- The marks of a scan tell what its targets hold. -/
theorem recount_zero_scan (input format : Bytes) (targets : List ScanTarget) :
    recount 0 (marksOf (performed format (.start input targets)))
      (scan input format targets).targets = (scan input format targets).targets := by
  rw [recount_scan, (noted_run input format targets).recount_eq]
  rfl

/-- A scan has converted something when some directive that it carried out
converts. -/
theorem conversions_eq_zero (input format : Bytes) (targets : List ScanTarget) :
    (run format.length format (.start input targets)).progress.conversions = 0 ↔
      ¬(performed format (.start input targets)).any (·.1.conversion.converts) = true := by
  have hcount := (course_run format.length format (.start input targets)).conversions_eq
  have hstart : (Progress.start input targets).conversions = 0 := rfl
  rw [hcount, hstart, Nat.zero_add, List.countP_eq_zero, List.any_eq_true]
  constructor
  · rintro hnone ⟨step, hmem, hstep⟩
    exact hnone step hmem hstep
  · intro hnone step hmem hstep
    exact hnone ⟨step, hmem, hstep⟩

/-- What the joined place reports, by what the second one reports. The end of the
input counts as such only when neither has converted anything. -/
theorem Stopped.result_joined (first second : Progress) (marks : List Mark) (halt : Halt)
    (index offset : Nat) (h : second.assigned ≤ second.conversions) :
    Stopped.result ⟨first.joined marks second [], halt.shift index offset⟩ =
      match Stopped.result ⟨second, halt⟩ with
      | .error error => .error (shiftError index offset error)
      | .ok .endOfInput =>
        .ok (if first.conversions = 0 then .endOfInput else .assigned first.assigned)
      | .ok (.assigned more) => .ok (.assigned (first.assigned + more)) := by
  cases halt with
  | finished => rfl
  | mismatch => rfl
  | failed error => rfl
  | exhausted =>
    by_cases hsecond : second.conversions = 0
    · have hzero : second.assigned = 0 := by omega
      by_cases hfirst : first.conversions = 0
      · simp [Stopped.result, Halt.shift, Progress.joined, hsecond, hfirst]
      · simp [Stopped.result, Halt.shift, Progress.joined, hsecond, hfirst, hzero]
    · simp [Stopped.result, Halt.shift, Progress.joined, hsecond]

/-- A scan of a format takes up all of its targets and some bytes of the input,
and comes to its end between two directives. -/
structure Completes (input format : Bytes) (targets : List ScanTarget) (length : Nat) : Prop where
  /-- The format has no zero byte. -/
  no_zero : 0 ∉ format
  /-- The format does not end inside a directive. -/
  whole : Whole format
  /-- The scan does not stop in front of its end. -/
  finished : (run format.length format (.start input targets)).halt = .finished
  /-- No target is left. -/
  pending_eq : (run format.length format (.start input targets)).progress.targets.pending = []
  /-- What is left of the input starts behind the bytes that were taken. -/
  input_eq : (run format.length format (.start input targets)).progress.input =
    (untilZero input).drop length
  /-- That many bytes there are. -/
  length_le : length ≤ (untilZero input).length

/-- A scan that has taken all of its targets, with some more behind them, has
reached the front of a scan of what is left. -/
theorem Progress.joined_fresh {first : Progress} {marks : List Mark} (hn : Noted marks first)
    (hp : first.targets.pending = []) {input : Bytes} (hi : first.input = untilZero input)
    (others : List ScanTarget) :
    (Progress.start [] []).joined marks first others =
      first.joined [] (.start input others) [] := by
  have hused := hn.recount_eq
  obtain ⟨left, read, ⟨used, pending⟩, assigned, conversions⟩ := first
  dsimp only at hp hi hused
  subst hp hi
  unfold Progress.joined Progress.start Cursor.start
  dsimp only
  rw [hused, recount_nil, Nat.zero_add, Nat.zero_add, Nat.zero_add, List.nil_append,
    List.append_nil, List.append_nil]
  rfl

/-- Dropping bytes of a text does not change where it ends. -/
theorem untilZero_drop {input : Bytes} {length : Nat} (h : length ≤ (untilZero input).length) :
    untilZero (input.drop length) = (untilZero input).drop length := by
  induction length generalizing input with
  | zero => rfl
  | succ length ih =>
    cases input with
    | nil => rfl
    | cons c rest =>
      by_cases hc : c = 0
      · have hnil : untilZero (c :: rest) = [] :=
          List.takeWhile_cons_of_neg (by simpa using hc)
        rw [hnil] at h
        cases h
      · have hcons : untilZero (c :: rest) = c :: untilZero rest :=
          List.takeWhile_cons_of_pos (by simpa using hc)
        rw [hcons, List.length_cons] at h
        rw [hcons, List.drop_succ_cons, List.drop_succ_cons]
        exact ih (by omega)

namespace Completes

variable {input format : Bytes} {targets : List ScanTarget} {length : Nat}

/-- The number of bytes read is the number of bytes taken from the input. -/
theorem read_eq (h : Completes input format targets length) :
    (run format.length format (.start input targets)).progress.read = length := by
  have hstart : InStep (untilZero input) (.start input targets) := ⟨rfl, Nat.zero_le _⟩
  have hstep := (course_run format.length format (.start input targets)).inStep hstart
  have hleft := congrArg List.length (hstep.input_eq.symm.trans h.input_eq)
  rw [List.length_drop, List.length_drop] at hleft
  have hread := hstep.read_le
  have hlength := h.length_le
  omega

/-- All targets are taken. -/
theorem length_used (h : Completes input format targets length) :
    (run format.length format (.start input targets)).progress.targets.used.length =
      targets.length := by
  have hall := (course_run format.length format (.start input targets)).length_targets
  unfold Cursor.all at hall
  rw [h.pending_eq, List.append_nil] at hall
  exact hall

/-- Behind a format that completes, scanning goes on from where it stopped, as the
second part of a scan. -/
theorem run_eq (h : Completes input format targets length) (total : Nat) (second : Bytes)
    (others : List ScanTarget) :
    run total (format ++ second) (.start input (targets ++ others)) =
      run total second ((run format.length format (.start input targets)).progress.joined []
        (.start (input.drop length) others) []) := by
  have hcourse := course_run format.length format (.start input targets)
  have hnoted := Noted.start input targets
  have hgo := hcourse.append h.whole h.no_zero h.finished hnoted total second (.start [] []) others
  have hmarks := hcourse.noted hnoted
  have hinput : (run format.length format (.start input targets)).progress.input =
      untilZero (input.drop length) := by
    rw [untilZero_drop h.length_le, h.input_eq]
  have hfront : (Progress.start [] []).joined [] (.start input targets) others =
      .start input (targets ++ others) := rfl
  rw [hfront] at hgo
  rw [hgo]
  exact congrArg (run total second) (Progress.joined_fresh hmarks h.pending_eq hinput others)

/-- Scanning one format behind another, as the second part of a scan. -/
theorem run_append (h : Completes input format targets length) (second : Bytes)
    (others : List ScanTarget) :
    let first := run format.length format (.start input targets)
    let rest := run second.length second (.start (input.drop length) others)
    run (format ++ second).length (format ++ second) (.start input (targets ++ others)) =
      ⟨first.progress.joined (marksOf (performed second (.start (input.drop length) others)))
        rest.progress [], rest.halt.shift targets.length format.length⟩ := by
  intro first rest
  have hcourse := course_run second.length second (.start (input.drop length) others)
  have hjoined := hcourse.joined (Nat.le_refl _) (Noted.start _ others) first.progress format.length
  rw [h.run_eq, List.length_append, hjoined, h.length_used]
  rfl

/-- What a scan of one format behind another reports, by what the second part of
it reports. -/
theorem result_eq (h : Completes input format targets length) (second : Bytes)
    (others : List ScanTarget) :
    ∃ count, (scan input format targets).result = .ok (.assigned count) ∧
      (scan input (format ++ second) (targets ++ others)).result =
        match (scan (input.drop length) second others).result with
        | .error error => .error (shiftError targets.length format.length error)
        | .ok .endOfInput =>
          .ok (if (performed format (.start input targets)).any (·.1.conversion.converts)
            then .assigned count else .endOfInput)
        | .ok (.assigned more) => .ok (.assigned (count + more)) := by
  have hassigned := (course_run second.length second
    (.start (input.drop length) others)).assigned_le (Nat.le_refl 0)
  have hjoined : (scan input (format ++ second) (targets ++ others)).result = _ :=
    congrArg Stopped.result (h.run_append second others)
  rw [Stopped.result_joined _ _ _ _ _ _ hassigned] at hjoined
  refine ⟨(run format.length format (.start input targets)).progress.assigned, ?_, ?_⟩
  · have hfirst : (scan input format targets).result =
        (run format.length format (.start input targets)).result := rfl
    rw [hfirst, Stopped.result, h.finished]
  · have hrest : (scan (input.drop length) second others).result =
        (run second.length second (.start (input.drop length) others)).result := rfl
    rw [hjoined, hrest]
    have hconverted := conversions_eq_zero input format targets
    by_cases hnone : (run format.length format (.start input targets)).progress.conversions = 0
    · rw [if_pos hnone, if_neg (hconverted.mp hnone)]
    · rw [if_neg hnone, if_pos (not_not.mp (mt hconverted.mpr hnone))]

/-- The targets of a scan of one format behind another. -/
theorem targets_eq (h : Completes input format targets length) (second : Bytes)
    (others : List ScanTarget) :
    (scan input (format ++ second) (targets ++ others)).targets =
      (scan input format targets).targets ++
        recount length (marksOf (performed second (.start (input.drop length) others)))
          (scan (input.drop length) second others).targets := by
  have hjoined : (scan input (format ++ second) (targets ++ others)).targets = _ :=
    congrArg (fun stopped => stopped.progress.targets.all) (h.run_append second others)
  have hfirst : (scan input format targets).targets =
      (run format.length format (.start input targets)).progress.targets.used := by
    have hall : (scan input format targets).targets =
        (run format.length format (.start input targets)).progress.targets.used ++
          (run format.length format (.start input targets)).progress.targets.pending := rfl
    rw [hall, h.pending_eq, List.append_nil]
  rw [hjoined, hfirst, recount_scan]
  dsimp only [Progress.joined, Cursor.all]
  rw [h.read_eq, List.append_nil, List.append_assoc]

/-- A count between two formats stores the number of bytes that the first one
took. -/
theorem getElem?_count (h : Completes input format targets length) {directive : Directive}
    {rest after : Bytes} {slot stored : ScanTarget}
    (hr : Directive.read rest = .read directive after)
    (hc : directive.conversion = .count) (hs : directive.suppressed = false)
    (hu : intoCount (directive.counted length) slot = some stored) (others : List ScanTarget) :
    (scan input (format ++ 0x25 :: rest) (targets ++ slot :: others)).targets[targets.length]? =
      some stored := by
  have hplace := h.run_eq (format ++ 0x25 :: rest).length (0x25 :: rest) (slot :: others)
  have hlength := h.length_used
  have hread := h.read_eq
  generalize (run format.length format (.start input targets)).progress = first
    at hplace hlength hread
  have htargets : (first.joined [] (.start (input.drop length) (slot :: others)) []).targets =
      ⟨first.targets.used, slot :: others⟩ := by
    dsimp only [Progress.joined, Progress.start, Cursor.start]
    rw [recount_nil, List.append_nil, List.append_nil]
  rw [← hread] at hu
  obtain ⟨done, hdone, hstored⟩ := Directive.exists_perform_count hc hs htargets hu
  rw [run_directive hr, hdone] at hplace
  dsimp only at hplace
  obtain ⟨more, hused⟩ :=
    (course_run (format ++ 0x25 :: rest).length after done).keeps_used
  rw [hstored] at hused
  have hall : (scan input (format ++ 0x25 :: rest) (targets ++ slot :: others)).targets =
      (run (format ++ 0x25 :: rest).length after done).progress.targets.all :=
    congrArg (fun stopped => stopped.progress.targets.all) hplace
  rw [hall, Cursor.all, ← hused, ← hlength]
  simp

end Completes

/-- A format behind another that completes scans what the first one has left, and
nothing but the counters shows that it is the second. The targets are those of
the first scan and those of the second, with the counts among these made again
behind the bytes of the first. The values assigned add up, and an end of the
input is one for both only if the first converted nothing. An error names its
place behind the targets or the format of the first. In particular a count in
front of the second format stores the bytes of the first. -/
theorem scan_append {input format : Bytes} {targets : List ScanTarget} {length : Nat}
    (h : Completes input format targets length) (second : Bytes) (others : List ScanTarget) :
    let first := scan input format targets
    let rest := scan (input.drop length) second others
    let joined := scan input (format ++ second) (targets ++ others)
    let marks := marksOf (performed second (.start (input.drop length) others))
    (first.targets.length = targets.length ∧ recount 0 marks rest.targets = rest.targets) ∧
      joined.targets = first.targets ++ recount length marks rest.targets ∧
      (∃ count, first.result = .ok (.assigned count) ∧
        joined.result =
          match rest.result with
          | .error error => .error (shiftError targets.length format.length error)
          | .ok .endOfInput =>
            .ok (if (performed format (.start input targets)).any (·.1.conversion.converts)
              then .assigned count else .endOfInput)
          | .ok (.assigned more) => .ok (.assigned (count + more))) ∧
      ∀ (directive : Directive) (tail after : Bytes) (slot stored : ScanTarget)
        (behind : List ScanTarget), Directive.read tail = .read directive after →
        directive.conversion = .count → directive.suppressed = false →
        intoCount (directive.counted length) slot = some stored →
        (scan input (format ++ 0x25 :: tail) (targets ++ slot :: behind)).targets[targets.length]? =
          some stored := by
  intro first rest joined marks
  refine ⟨⟨?_, ?_⟩, h.targets_eq second others, h.result_eq second others, ?_⟩
  · exact (course_run format.length format (.start input targets)).length_targets
  · exact recount_zero_scan (input.drop length) second others
  · intro directive tail after slot stored behind hr hc hs hu
    exact h.getElem?_count hr hc hs hu behind

/-- Of `ab` the format `%c` takes one byte, and a `%n` behind it stores one. -/
theorem scan_append_count :
    Completes [0x61, 0x62] [0x25, 0x63] [.buffer [0]] 1 ∧
      (scan [0x61, 0x62] ([0x25, 0x63] ++ [0x25, 0x6E, 0x62])
        ([.buffer [0]] ++ [.count 0])).targets[1]? = some (.count 1) := by
  have hread : Directive.read [0x63] = .read { conversion := .chars } [] := rfl
  have hperform : Directive.perform { conversion := .chars }
      (.start [0x61, 0x62] [.buffer [0]]) =
        .ok ⟨[0x62], 1, ⟨[.buffer [0x61]], []⟩, 1, 1⟩ := rfl
  have hrun : run 2 [0x25, 0x63] (.start [0x61, 0x62] [.buffer [0]]) =
      ⟨⟨[0x62], 1, ⟨[.buffer [0x61]], []⟩, 1, 1⟩, .finished⟩ := by
    rw [run_directive hread, hperform]
    exact run_nil
  have h : Completes [0x61, 0x62] [0x25, 0x63] [.buffer [0]] 1 := by
    refine ⟨by decide, .directive hread .nil, ?_, ?_, ?_, by decide⟩
    · exact congrArg Stopped.halt hrun
    · exact congrArg (fun stopped => stopped.progress.targets.pending) hrun
    · exact congrArg (fun stopped => stopped.progress.input) hrun
  have hcount : Directive.read [0x6E, 0x62] = .read { conversion := .count } [0x62] := rfl
  exact ⟨h, (scan_append h [0x25, 0x6E, 0x62] [.count 0]).2.2.2 _ _ _ (.count 0)
    (.count 1) [] hcount rfl rfl (by decide +kernel)⟩

end FormatScan.Scan
