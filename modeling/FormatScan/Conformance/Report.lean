import FormatScan.Conformance.Result
import FormatScan.Sha256
import FormatScan.Text.Hex

/-!
# Reports

A report presents the results of a run. Its Markdown form has a table of
functions, a table of cases and the differences of the cases that failed. Its
JSON form can be read back, and the digest of that form without the time tells
whether two runs had the same results.
-/

namespace FormatScan

/-- A report on a run. -/
structure Report where
  /-- The title. -/
  title : String
  /-- The campaign that the run belongs to. -/
  campaign : String
  /-- The time of the run. -/
  timestamp : String
  /-- The results. -/
  summary : Summary
deriving DecidableEq, Repr

/-- The digest of a text, in hexadecimal digits. -/
def Sha256.hexDigest (message : Bytes) : String :=
  String.ofList ((digest message).flatMap Text.hexPair)

namespace Report

/-- The heading and the counts. -/
def heading (report : Report) : String :=
  s!"# {report.title}\n\n- Campaign: {report.campaign}\n- Timestamp: {report.timestamp}\n" ++
    s!"- Total: {report.summary.total}\n- Passed: {report.summary.passed}\n" ++
    s!"- Failed: {report.summary.failed}\n\n"

/-- The row of a function. -/
def tallyRow (tally : Tally) : String :=
  s!"| {tally.symbol} | {tally.passed} | {tally.total} |\n"

/-- The table of the functions. -/
def tallyTable (summary : Summary) : String :=
  "| Function | Passed | Total |\n|----------|--------|-------|\n" ++
    String.join (summary.bySymbol.map tallyRow) ++ "\n"

/-- The row of a case. -/
def caseRow (result : CaseResult) : String :=
  let status := if result.passed then "PASS" else "FAIL"
  s!"| {result.caseName} | {result.symbol} | {result.clause} | {status} |\n"

/-- The table of the cases. -/
def caseTable (summary : Summary) : String :=
  "| Case | Function | Clause | Status |\n|------|----------|--------|--------|\n" ++
    String.join (summary.results.map caseRow)

/-- The line that opens or closes a block. -/
def fence : String := "\x60\x60\x60"

/-- The block of a case that failed. -/
def failureBlock (result : CaseResult) : String :=
  s!"\n### {result.caseName}\n\n" ++ fence ++ "diff\n" ++ result.diff.getD "" ++ fence ++ "\n"

/-- The blocks of the cases that failed, if there are any. -/
def failureSection (summary : Summary) : String :=
  match summary.failures with
  | [] => ""
  | failures => "\n## Failures\n" ++ String.join (failures.map failureBlock)

/-- The Markdown form. -/
def markdown (report : Report) : String :=
  report.heading ++ tallyTable report.summary ++ caseTable report.summary ++
    failureSection report.summary

/-- The members of the JSON form. -/
def members (report : Report) : List (String × Json) :=
  [("title", .string report.title), ("campaign", .string report.campaign),
    ("timestamp", .string report.timestamp), ("summary", report.summary.toJson)]

/-- The JSON form. -/
def toJson (report : Report) : Json := .object report.members

/-- The JSON text. -/
def text (report : Report) : String := report.toJson.indented

/-- Read the JSON form as it stands in a text. -/
def ofSource? (source : Json.Source) : Option Report := do
  match ← source.record? ["title", "campaign", "timestamp", "summary"] 4 with
  | [some title, some campaign, some timestamp, some summary] =>
    return { title := ← title.string?, campaign := ← campaign.string?,
             timestamp := ← timestamp.string?, summary := ← Summary.ofSource? summary }
  | _ => none

/-- Read the JSON text. -/
def ofText? (text : String) : Option Report := (Json.Source.parse? text).bind ofSource?

/-- The text whose digest stands for the results. -/
def stableText (report : Report) : String := { report with timestamp := "" }.text

/-- The digest of the results. -/
def resultsDigest (report : Report) : String := Sha256.hexDigest (bytesOf report.stableText)

end Report

end FormatScan
