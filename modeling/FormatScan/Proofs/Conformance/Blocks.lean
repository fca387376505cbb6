import FormatScan.Conformance.Report
import FormatScan.Proofs.Conformance.Differences

/-!
# The blocks of a report

The Markdown form of a report ends in a block for each case that failed: a heading with the
name of the case, and the difference of the case between two fences. The closing fence is
written right behind the difference. Where the two texts differ, the difference is made of
whole lines, which start with a mark of their own, so the block has the form that it is
meant to have. Where they agree, the case failed because it could not be carried out, and
what is shown of it is no whole line: there the fence does not start a line, and the block
stays open.
-/

namespace FormatScan

namespace Text

/-- Lines as a text, each with its end. -/
def wholeLines (lines : List String) : List Char := lines.flatMap fun line => line.toList ++ ['\n']

theorem wholeLines_append (first second : List String) :
    wholeLines (first ++ second) = wholeLines first ++ wholeLines second := List.flatMap_append

theorem exists_wholeLines_eq {lines : List String} (h : lines ≠ []) :
    ∃ front, wholeLines lines = front ++ ['\n'] := by
  rw [← List.dropLast_append_getLast h, wholeLines_append]
  exact ⟨wholeLines lines.dropLast ++ (lines.getLast h).toList, by simp [wholeLines]⟩

end Text

open Text (wholeLines)

namespace Diff

/-- The lines that a difference is shown in. -/
def Hunk.lines : Hunk → List String
  | changed line column expected actual =>
    ["@@ line " ++ toString line ++ ", col " ++ toString column ++ " @@", "-" ++ expected,
      "+" ++ actual]
  | missing line expected => ["@@ line " ++ toString line ++ " @@", "-" ++ expected]
  | extra line actual => ["@@ line " ++ toString line ++ " @@", "+" ++ actual]

theorem Hunk.wholeLines_lines (hunk : Hunk) : wholeLines hunk.lines = hunk.render.toList := by
  unfold render
  cases hunk <;> simp [wholeLines, lines, Text.toString_text, String.toList_append]

/-- A line of a difference starts with a mark, which is a minus, a plus or an at sign, and
there is no line end in it. -/
def IsDiffLine (line : String) : Prop :=
  ∃ mark ∈ ['-', '+', '@'], ∃ rest, line.toList = mark :: rest ∧ '\n' ∉ rest

theorem newline_notMem_toDigits (n : Nat) : '\n' ∉ Nat.toDigits 10 n := fun hmem =>
  absurd (Json.isDigit_toDigits n '\n' hmem) (by decide)

theorem Hunk.isDiffLine {hunk : Hunk} (h : hunk.ShowsLines) :
    ∀ line ∈ hunk.lines, IsDiffLine line := by
  have hexpected : ∀ {line : String}, '\n' ∉ line.toList → IsDiffLine ("-" ++ line) := fun hline =>
    ⟨'-', by decide, _, String.toList_append, hline⟩
  have hactual : ∀ {line : String}, '\n' ∉ line.toList → IsDiffLine ("+" ++ line) := fun hline =>
    ⟨'+', by decide, _, String.toList_append, hline⟩
  have hplace : ∀ n : Nat, IsDiffLine ("@@ line " ++ toString n ++ " @@") := by
    intro n
    refine ⟨'@', by decide, "@ line ".toList ++ (toString n).toList ++ " @@".toList, ?_, ?_⟩
    · simp only [String.toList_append]
      rfl
    · simp [newline_notMem_toDigits n]
  cases hunk with
  | changed line column expected actual =>
    refine List.forall_mem_cons.mpr ⟨?_, List.forall_mem_cons.mpr ⟨hexpected (h _ (.head _)),
      List.forall_mem_singleton.mpr (hactual (h _ (.tail _ (.head _))))⟩⟩
    refine ⟨'@', by decide, "@ line ".toList ++ (toString line).toList ++ ", col ".toList ++
      (toString column).toList ++ " @@".toList, ?_, ?_⟩
    · simp only [String.toList_append]
      rfl
    · simp [newline_notMem_toDigits line, newline_notMem_toDigits column]
  | missing line expected =>
    exact List.forall_mem_cons.mpr ⟨hplace line,
      List.forall_mem_singleton.mpr (hexpected (h _ (.head _)))⟩
  | extra line actual =>
    exact List.forall_mem_cons.mpr ⟨hplace line,
      List.forall_mem_singleton.mpr (hactual (h _ (.head _)))⟩

/-- The differences of two texts that differ are whole lines, each with its mark. -/
theorem exists_lines {expected actual : String} (h : expected ≠ actual) :
    ∃ shown, (render expected actual).toList = wholeLines shown ∧
      ∀ line ∈ shown, IsDiffLine line := by
  refine ⟨["--- expected", "+++ actual"] ++ (hunks expected actual).flatMap Hunk.lines, ?_, ?_⟩
  · have hhunks : wholeLines ((hunks expected actual).flatMap Hunk.lines) =
        (hunks expected actual).flatMap fun hunk => hunk.render.toList := by
      rw [wholeLines, List.flatMap_assoc]
      exact List.flatMap_congr fun hunk _ => hunk.wholeLines_lines
    rw [toList_render h, Text.wholeLines_append, hhunks]
    rfl
  · have hexpected : IsDiffLine "--- expected" := ⟨'-', by decide, _, rfl, by decide⟩
    have hactual : IsDiffLine "+++ actual" := ⟨'+', by decide, _, rfl, by decide⟩
    have hheader : ∀ line ∈ ["--- expected", "+++ actual"], IsDiffLine line :=
      List.forall_mem_cons.mpr ⟨hexpected, List.forall_mem_singleton.mpr hactual⟩
    refine List.forall_mem_append.mpr ⟨hheader, fun line hline => ?_⟩
    obtain ⟨hunk, hhunk, hmem⟩ := List.mem_flatMap.mp hline
    exact Hunk.isDiffLine (hunks_showLines expected actual hunk hhunk) line hmem

end Diff

namespace Fixture

/-- A case that cannot be carried out although it expects the very text that stands for its
failure. -/
def ExpectsFailure (fixture : Fixture) : Prop :=
  ∃ error, Execution.run fixture.function fixture.inputs = .error error ∧
    fixture.expected = "unsupported:" ++ error.message

/-- A case that fails has a difference between what it expects and what came out. The two
are one text only where the case expects its failure. -/
theorem verify_of_not_passed {fixture : Fixture} {family : String}
    (h : (fixture.verify family).result.passed = false) :
    (fixture.verify family).result.diff =
        some (Diff.render fixture.expected (fixture.verify family).result.actual) ∧
      (fixture.expected = (fixture.verify family).result.actual ↔ fixture.ExpectsFailure) := by
  unfold verify at h ⊢
  unfold ExpectsFailure
  cases hrun : Execution.run fixture.function fixture.inputs with
  | ok line =>
    rw [hrun] at h
    have hne : line ≠ fixture.expected := by simpa using h
    refine ⟨by simp [hne], fun heq => absurd heq.symm hne, ?_⟩
    rintro ⟨error, herror, -⟩
    cases herror
  | error error =>
    refine ⟨by simp, fun heq => ⟨error, rfl, heq⟩, ?_⟩
    rintro ⟨other, hother, heq⟩
    cases hother
    exact heq

end Fixture

namespace FixtureSet

/-- The cases of a set that fail, in their order. -/
def failing (set : FixtureSet) : List Fixture :=
  set.cases.filter fun fixture => !(fixture.verify set.family).result.passed

theorem failures_run (set : FixtureSet) :
    (Summary.ofResults set.run).failures =
      set.failing.map fun fixture => (fixture.verify set.family).result := by
  simp [Summary.failures, Summary.ofResults, run, failing, List.filter_map, Function.comp_def]

end FixtureSet

namespace Report

/-- The last line of a block is the fence that closes it. -/
def ClosesOnOwnLine (block : String) : Prop := '\n' :: (fence.toList ++ ['\n']) <:+ block.toList

/-- A block in its form: a heading with the name of a case, and a difference between two
fences, all in lines of their own. -/
structure IsBlock (name diff block : String) : Prop where
  /-- The lines of the block are the heading, the fences and the lines of the difference. -/
  exists_lines : ∃ shown, diff.toList = wholeLines shown ∧
    (∀ line ∈ shown, ¬fence.toList <+: line.toList ∧ '\n' ∉ line.toList) ∧
    block.toList = wholeLines (["", "### " ++ name, "", fence ++ "diff"] ++ shown ++ [fence])
  /-- The heading is one line. -/
  heading : '\n' ∉ name.toList

theorem toList_failureBlock (result : CaseResult) :
    (failureBlock result).toList =
      wholeLines ["", "### " ++ result.caseName, "", fence ++ "diff"] ++
        ((result.diff.getD "").toList ++ (fence.toList ++ ['\n'])) := by
  unfold failureBlock
  simp [wholeLines, Text.toString_text]

/-- A difference in whole lines makes a block in its form. -/
theorem isBlock_failureBlock {result : CaseResult} {diff : String} (hdiff : result.diff = some diff)
    (hname : '\n' ∉ result.caseName.toList) {shown : List String}
    (hshown : diff.toList = wholeLines shown) (hlines : ∀ line ∈ shown, Diff.IsDiffLine line) :
    IsBlock result.caseName diff (failureBlock result) := by
  refine ⟨⟨shown, hshown, fun line hline => ?_, ?_⟩, hname⟩
  · obtain ⟨mark, hmark, rest, htext, hrest⟩ := hlines line hline
    rw [htext]
    constructor
    · intro hfence
      have hhead : '\x60' = mark := (List.cons_prefix_cons.mp hfence).1
      exact absurd (hhead ▸ hmark) (by decide)
    · rw [List.mem_cons, not_or]
      exact ⟨fun heq => absurd (heq ▸ hmark) (by decide), hrest⟩
  · rw [toList_failureBlock, hdiff, Option.getD_some, hshown, Text.wholeLines_append,
      Text.wholeLines_append, List.append_assoc]
    rfl

/-- The fence that closes a block in its form starts its line. -/
theorem IsBlock.closesOnOwnLine {name diff block : String} (h : IsBlock name diff block) :
    ClosesOnOwnLine block := by
  obtain ⟨shown, -, -, hblock⟩ := h.exists_lines
  have hnonempty : ["", "### " ++ name, "", fence ++ "diff"] ++ shown ≠ [] := by simp
  obtain ⟨front, hfront⟩ := Text.exists_wholeLines_eq hnonempty
  rw [ClosesOnOwnLine, hblock, Text.wholeLines_append, hfront, List.append_assoc]
  exact ⟨front, by simp [wholeLines]⟩

/-- Where no difference is found, the closing fence stands behind the text that says so. -/
theorem not_closesOnOwnLine_of_identical {result : CaseResult}
    (hdiff : result.diff = some "[identical]") : ¬ClosesOnOwnLine (failureBlock result) := by
  intro hclosed
  have hend : ']' :: (fence.toList ++ ['\n']) <:+ (failureBlock result).toList := by
    rw [toList_failureBlock, hdiff, Option.getD_some]
    exact ⟨wholeLines ["", "### " ++ result.caseName, "", fence ++ "diff"] ++ "[identical".toList,
      by simp⟩
  have hsame := (List.suffix_of_suffix_length_le hclosed hend (by simp)).eq_of_length (by simp)
  exact absurd (List.cons.inj hsame).1 (by decide)

/-- The block of a case that failed. -/
theorem failureBlock_verify {fixture : Fixture} {family : String}
    (hfailed : (fixture.verify family).result.passed = false) (hname : '\n' ∉ fixture.name.toList) :
    let result := (fixture.verify family).result
    (ClosesOnOwnLine (failureBlock result) ↔ ¬fixture.ExpectsFailure) ∧
      (¬fixture.ExpectsFailure → IsBlock fixture.name (Diff.render fixture.expected result.actual)
        (failureBlock result)) := by
  intro result
  obtain ⟨hdiff, hsame⟩ := Fixture.verify_of_not_passed hfailed
  by_cases hmistaken : fixture.ExpectsFailure
  · rw [← hsame.mpr hmistaken, Diff.render_self] at hdiff
    have hopen := not_closesOnOwnLine_of_identical hdiff
    exact ⟨⟨fun hclosed => absurd hclosed hopen, fun hnot => absurd hmistaken hnot⟩,
      fun hnot => absurd hmistaken hnot⟩
  · obtain ⟨shown, hshown, hlines⟩ := Diff.exists_lines fun heq => hmistaken (hsame.mp heq)
    have hblock : IsBlock fixture.name (Diff.render fixture.expected result.actual)
        (failureBlock result) := isBlock_failureBlock hdiff hname hshown hlines
    exact ⟨⟨fun _ => hmistaken, fun _ => hblock.closesOnOwnLine⟩, fun _ => hblock⟩

/-- The Markdown form of a report on a run shows, behind its tables, a block for each case
that failed, in the order of the cases, and no such part if none failed. The fence that
closes a block starts a line of its own exactly unless the case expects the text that stands
for its failure. Else the block consists of a heading with the name of the case and, between
two fences, the lines of the difference between what was expected and what came out, none
of which could close it. -/
theorem markdown_blocks {set : FixtureSet}
    (hnames : ∀ fixture ∈ set.cases, '\n' ∉ fixture.name.toList)
    (title campaign timestamp : String) :
    let report : Report := ⟨title, campaign, timestamp, .ofResults set.run⟩
    ∃ blocks : List String,
      report.markdown = report.heading ++ tallyTable report.summary ++ caseTable report.summary ++
        (if set.failing = [] then "" else "\n## Failures\n" ++ String.join blocks) ∧
      List.Forall₂ (fun fixture block =>
        (ClosesOnOwnLine block ↔ ¬fixture.ExpectsFailure) ∧
          (¬fixture.ExpectsFailure → IsBlock fixture.name
            (Diff.render fixture.expected (fixture.verify set.family).result.actual) block))
        set.failing blocks := by
  intro report
  refine ⟨set.failing.map fun fixture => failureBlock (fixture.verify set.family).result, ?_, ?_⟩
  · have hfailures : report.summary.failures =
        set.failing.map fun fixture => (fixture.verify set.family).result :=
      set.failures_run
    have hsection : failureSection report.summary = if set.failing = [] then "" else
        "\n## Failures\n" ++ String.join
          (set.failing.map fun fixture => failureBlock (fixture.verify set.family).result) := by
      rw [failureSection, hfailures]
      cases set.failing with
      | nil => rfl
      | cons fixture rest => simp [Function.comp_def]
    rw [markdown, hsection]
  · rw [List.forall₂_map_right_iff, List.forall₂_same]
    intro fixture hfixture
    obtain ⟨hmem, hfailed⟩ := List.mem_filter.mp hfixture
    exact failureBlock_verify (by simpa using hfailed) (hnames fixture hmem)

/-- A case of a function that there is not. -/
def unknownCase (expected : String) : Fixture :=
  { name := "c", function := "nope", clause := "", inputs := .object [], expected := expected }

/-- The text that stands for its failure. -/
def unknownText : String := "unsupported:unsupported function \x60nope\x60"

theorem expectsFailure_unknownCase (expected : String) :
    (unknownCase expected).ExpectsFailure ↔ expected = unknownText :=
  ⟨fun ⟨_, herror, heq⟩ => by cases herror; exact heq, fun heq => ⟨_, rfl, heq⟩⟩

/-- Of two cases that cannot be carried out, the one that expects something else has a block
that is closed, and the one that expects its failure has one that is not. -/
theorem markdown_blocks_unknown :
    let set : FixtureSet :=
      { version := "v1", family := "f", capturedAt := "",
        cases := [unknownCase "x", unknownCase unknownText] }
    let report : Report := ⟨"t", "verify", "T", .ofResults set.run⟩
    (∀ fixture ∈ set.cases, '\n' ∉ fixture.name.toList) ∧
      ∃ first second,
        report.markdown = report.heading ++ tallyTable report.summary ++
          caseTable report.summary ++ ("\n## Failures\n" ++ (first ++ second)) ∧
        ClosesOnOwnLine first ∧ ¬ClosesOnOwnLine second := by
  intro set report
  have hnames : ∀ fixture ∈ set.cases, '\n' ∉ fixture.name.toList := by
    simp [set, unknownCase]
  have hfailing : set.failing = [unknownCase "x", unknownCase unknownText] := rfl
  have hordinary : ¬(unknownCase "x").ExpectsFailure := by
    rw [expectsFailure_unknownCase]
    decide
  obtain ⟨blocks, hmarkdown, hblocks⟩ := markdown_blocks hnames "t" "verify" "T"
  rw [hfailing] at hmarkdown hblocks
  obtain _ | @⟨_, first, _, _, hfirst, hrest⟩ := hblocks
  obtain _ | @⟨_, second, _, _, hsecond, hnil⟩ := hrest
  cases hnil
  refine ⟨hnames, first, second, ?_, hfirst.1.mpr hordinary, ?_⟩
  · rw [if_neg (List.cons_ne_nil _ _)] at hmarkdown
    simpa [String.join] using hmarkdown
  · intro hclosed
    exact hsecond.1.mp hclosed ((expectsFailure_unknownCase unknownText).mpr rfl)

/-- The difference of a case that expects its failure is no whole line, so the fence behind
it does not start one. -/
theorem markdown_open_block :
    let set : FixtureSet :=
      { version := "v1", family := "f", capturedAt := "", cases := [unknownCase unknownText] }
    let report : Report := ⟨"t", "verify", "T", .ofResults set.run⟩
    (∀ fixture ∈ set.cases, '\n' ∉ fixture.name.toList) ∧
      report.markdown = report.heading ++ tallyTable report.summary ++ caseTable report.summary ++
        "\n## Failures\n\n### c\n\n\x60\x60\x60diff\n[identical]\x60\x60\x60\n" ∧
      ¬ClosesOnOwnLine report.markdown := by
  intro set report
  have hsection : failureSection report.summary =
      "\n## Failures\n\n### c\n\n\x60\x60\x60diff\n[identical]\x60\x60\x60\n" := by
    decide +kernel
  have hmarkdown : report.markdown = report.heading ++ tallyTable report.summary ++
      caseTable report.summary ++
        "\n## Failures\n\n### c\n\n\x60\x60\x60diff\n[identical]\x60\x60\x60\n" := by
    rw [markdown, hsection]
  refine ⟨by simp [set, unknownCase], hmarkdown, fun hclosed => ?_⟩
  have hend : "]\x60\x60\x60\n".toList <:+ report.markdown.toList := by
    rw [hmarkdown, String.toList_append]
    refine List.IsSuffix.trans ?_ (List.suffix_append _ _)
    decide
  have hsame := (List.suffix_of_suffix_length_le hclosed hend (by decide)).eq_of_length (by decide)
  exact absurd (List.cons.inj hsame).1 (by decide)

end Report

end FormatScan
