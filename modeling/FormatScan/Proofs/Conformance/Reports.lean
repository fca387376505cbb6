import FormatScan.Conformance.Report
import FormatScan.Proofs.Json.Records
import FormatScan.Proofs.Text.Bytes

/-!
# Reports that are written and read back

A report is read back from its JSON text, whatever its strings are made of and however long
its list of results is. What is hashed for the results is such a text, with the time left
empty. So it is the same text for two reports exactly if they agree in everything but the
time.
-/

namespace FormatScan

open Json (Source sourceOf)

namespace CaseResult

/-- A result is read back from its tree. A difference that is absent is written as `null`,
and so it is not taken for an empty one. -/
theorem ofSource?_sourceOf (result : CaseResult) :
    ofSource? (sourceOf result.toJson) = some result := by
  have hnames : fieldNames.Nodup := by decide
  have hfields : (sourceOf result.toJson).record? fieldNames 8 =
      some (result.members.map fun member => some (sourceOf member.2)) :=
    Source.record?_memberSourcesOf result.members 8 hnames
  rw [ofSource?, hfields]
  simp [members, sourceOf, Source.string?, Source.bool?, Source.optional?_ofString?]

/-- A result has no numbers. -/
theorem exact_toJson (result : CaseResult) : result.toJson.Exact := by
  simp [toJson, members]

end CaseResult

namespace Summary

/-- A summary whose counts are words of 64 bits, as those of a run are. -/
structure Fits (summary : Summary) : Prop where
  /-- The number of results. -/
  total : summary.total ≤ Word.largest
  /-- The number of those that passed. -/
  passed : summary.passed ≤ Word.largest
  /-- The number of those that did not. -/
  failed : summary.failed ≤ Word.largest

/-- A summary is read back from its tree, with its results in their order. -/
theorem Fits.ofSource?_sourceOf {summary : Summary} (h : summary.Fits) :
    ofSource? (sourceOf summary.toJson) = some summary := by
  have hnames : ["total", "passed", "failed", "results"].Nodup := by decide
  have hfields : (sourceOf summary.toJson).record? ["total", "passed", "failed", "results"] 4 =
      some (summary.members.map fun member => some (sourceOf member.2)) :=
    Source.record?_memberSourcesOf summary.members 4 hnames
  have hresults : (Json.sourcesOf (summary.results.map CaseResult.toJson)).mapM
      CaseResult.ofSource? = some summary.results :=
    Json.mapM_sourcesOf fun result _ => result.ofSource?_sourceOf
  have htotal := Source.nat?_ofNat h.total
  have hpassed := Source.nat?_ofNat h.passed
  have hfailed := Source.nat?_ofNat h.failed
  rw [ofSource?, hfields]
  simp [members, htotal, hpassed, hfailed, sourceOf, Source.items?, hresults]

/-- The only numbers of a summary are its counts. -/
theorem exact_toJson (summary : Summary) : summary.toJson.Exact := by
  simp [toJson, members, CaseResult.exact_toJson]

end Summary

namespace Report

/-- A report is read back from its tree. -/
theorem ofSource?_sourceOf {report : Report} (h : report.summary.Fits) :
    ofSource? (sourceOf report.toJson) = some report := by
  have hnames : ["title", "campaign", "timestamp", "summary"].Nodup := by decide
  have hfields : (sourceOf report.toJson).record?
      ["title", "campaign", "timestamp", "summary"] 4 =
      some (report.members.map fun member => some (sourceOf member.2)) :=
    Source.record?_memberSourcesOf report.members 4 hnames
  rw [ofSource?, hfields]
  simp [members, sourceOf, Source.string?, h.ofSource?_sourceOf]

/-- A report is read back from its JSON text. -/
theorem ofText?_of_fits {report : Report} (h : report.summary.Fits) :
    ofText? report.text = some report := by
  have hexact : report.toJson.Exact := by
    simp [toJson, members, Summary.exact_toJson]
  have htree : Source.parse? report.text = some (sourceOf report.toJson) :=
    hexact.parse?_print Json.Layout.spaced_indented
  rw [ofText?, htree]
  exact ofSource?_sourceOf h

/-- Reports with the same text are the same. -/
theorem eq_of_text_eq {first second : Report} (hfirst : first.summary.Fits)
    (hsecond : second.summary.Fits) (h : first.text = second.text) : first = second := by
  have hread : some first = some second := by
    rw [← ofText?_of_fits hfirst, h, ofText?_of_fits hsecond]
  exact Option.some.inj hread

/-- Reports that agree in everything but the time. -/
structure SameResults (first second : Report) : Prop where
  /-- They have one title. -/
  title : first.title = second.title
  /-- They belong to one campaign. -/
  campaign : first.campaign = second.campaign
  /-- They have the same number of results. -/
  total : first.summary.total = second.summary.total
  /-- They have the same number of results that passed. -/
  passed : first.summary.passed = second.summary.passed
  /-- They have the same number of results that did not pass. -/
  failed : first.summary.failed = second.summary.failed
  /-- They have the same results in the same order. -/
  results : first.summary.results = second.summary.results

/-- Reports that agree in everything but the time are one report when the time is left
empty. -/
theorem sameResults_iff {first second : Report} :
    first.SameResults second ↔
      { first with timestamp := "" } = { second with timestamp := "" } := by
  obtain ⟨title, campaign, timestamp, total, passed, failed, results⟩ := first
  obtain ⟨title', campaign', timestamp', total', passed', failed', results'⟩ := second
  constructor
  · rintro ⟨rfl, rfl, rfl, rfl, rfl, rfl⟩
    rfl
  · intro h
    cases h
    exact ⟨rfl, rfl, rfl, rfl, rfl, rfl⟩

/-- What is hashed for the results covers everything but the time: two reports have the same
bytes hashed exactly if they agree in their titles, their campaigns, their three counts and
their lists of results. If these two texts, being different, are not hashed to the same
digest, then the digests are the same exactly in this case too. And a report, with its time,
is read back from its JSON text. -/
theorem bytesOf_stableText_eq_iff {first second : Report} (hfirst : first.summary.Fits)
    (hsecond : second.summary.Fits) :
    (bytesOf first.stableText = bytesOf second.stableText ↔ first.SameResults second) ∧
      ((Sha256.hexDigest (bytesOf first.stableText) = Sha256.hexDigest (bytesOf second.stableText) →
          bytesOf first.stableText = bytesOf second.stableText) →
        (first.resultsDigest = second.resultsDigest ↔ first.SameResults second)) ∧
      ofText? first.text = some first := by
  have hsame : bytesOf first.stableText = bytesOf second.stableText ↔ first.SameResults second := by
    -- what is hashed is the text of a report, that of the same results without a time
    rw [bytesOf_inj, sameResults_iff]
    constructor
    · intro h
      exact eq_of_text_eq hfirst hsecond h
    · intro h
      exact congrArg text h
  refine ⟨hsame, fun hapart => ?_, ofText?_of_fits hfirst⟩
  rw [← hsame]
  exact ⟨hapart, congrArg Sha256.hexDigest⟩

/-- A report at some time on one case that failed. Its strings hold quotes and line ends,
and its difference may be absent. -/
def failing (timestamp : String) (diff : Option String) : Report :=
  let result : CaseResult :=
    { family := "\"", symbol := "sscanf", caseName := "a\nb", clause := "\\\"", passed := false,
      expected := "", actual := "\",", diff := diff }
  { title := "Conformance", campaign := "verify", timestamp := timestamp,
    summary := .ofResults [result] }

/-- The time of such a report makes no difference to what is hashed, but an absent
difference is not an empty one. -/
theorem bytesOf_stableText_failing :
    bytesOf (failing "one" none).stableText = bytesOf (failing "two" none).stableText ∧
      bytesOf (failing "one" none).stableText ≠ bytesOf (failing "one" (some "")).stableText := by
  have hfits (timestamp : String) (diff : Option String) :
      (failing timestamp diff).summary.Fits := by
    constructor <;> simp [failing, Summary.ofResults, Word.largest]
  refine ⟨?_, fun heq => ?_⟩
  · refine (bytesOf_stableText_eq_iff (hfits "one" none) (hfits "two" none)).1.mpr ?_
    exact ⟨rfl, rfl, rfl, rfl, rfl, rfl⟩
  · have hsame := (bytesOf_stableText_eq_iff (hfits "one" none) (hfits "one" (some ""))).1.mp heq
    have hresults := hsame.results
    cases hresults

end Report

end FormatScan
