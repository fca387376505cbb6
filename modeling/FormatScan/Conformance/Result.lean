import FormatScan.Conformance.Diff
import FormatScan.Conformance.Execution
import FormatScan.Conformance.Fixture

/-!
# Results of cases

A case passes when its call has a result and the result is the expected line. A
case that could not be carried out fails, and its failure takes the place of the
result. A summary counts results; a tally counts them for each function.
-/

namespace FormatScan

/-- The result of one case. -/
structure CaseResult where
  /-- The family of the case. -/
  family : String
  /-- The function that was called. -/
  symbol : String
  /-- The name of the case. -/
  caseName : String
  /-- The clause of the standard. -/
  clause : String
  /-- Whether the case passed. -/
  passed : Bool
  /-- The expected line. -/
  expected : String
  /-- The line that came out. -/
  actual : String
  /-- The difference between the two. -/
  diff : Option String
deriving DecidableEq, Repr

namespace CaseResult

/-- The members of the JSON form. -/
def members (result : CaseResult) : List (String × Json) :=
  [("family", .string result.family), ("symbol", .string result.symbol),
    ("case_name", .string result.caseName), ("clause", .string result.clause),
    ("passed", .bool result.passed), ("expected", .string result.expected),
    ("actual", .string result.actual), ("diff", .ofString? result.diff)]

/-- The JSON form. -/
def toJson (result : CaseResult) : Json := .object result.members

/-- The names of the fields. -/
def fieldNames : List String :=
  ["family", "symbol", "case_name", "clause", "passed", "expected", "actual", "diff"]

/-- Read the JSON form. -/
def ofJson (value : Json) : Json.Decoded CaseResult := do
  let fields ← value.asRecord fieldNames 8
  let actual ← Json.present fields 6 Json.asString
  let caseName ← Json.present fields 2 Json.asString
  let clause ← Json.present fields 3 Json.asString
  let diff ← Json.present fields 7 (Json.asOption Json.asString)
  let expected ← Json.present fields 5 Json.asString
  let family ← Json.present fields 0 Json.asString
  let passed ← Json.present fields 4 Json.asBool
  let symbol ← Json.present fields 1 Json.asString
  return { family := ← Json.required "family" family, symbol := ← Json.required "symbol" symbol,
           caseName := ← Json.required "case_name" caseName,
           clause := ← Json.required "clause" clause, passed := ← Json.required "passed" passed,
           expected := ← Json.required "expected" expected,
           actual := ← Json.required "actual" actual, diff := diff.join }

/-- Read the JSON form as it stands in a text. The difference may be absent from an
object. -/
def ofSource? (source : Json.Source) : Option CaseResult := do
  match ← source.record? fieldNames 8 with
  | [some family, some symbol, some caseName, some clause, some passed, some expected,
      some actual, diff] =>
    let diff ← match diff with
      | some text => text.optional? Json.Source.string?
      | none => some none
    return { family := ← family.string?, symbol := ← symbol.string?,
             caseName := ← caseName.string?, clause := ← clause.string?,
             passed := ← passed.bool?, expected := ← expected.string?,
             actual := ← actual.string?, diff := diff }
  | _ => none

/-- The order of results in a report: by family, then function, then case. -/
def le (a b : CaseResult) : Bool :=
  if a.family != b.family then decide (a.family ≤ b.family)
  else if a.symbol != b.symbol then decide (a.symbol ≤ b.symbol)
  else decide (a.caseName ≤ b.caseName)

end CaseResult

/-- A case after it was run. -/
structure Verdict where
  /-- The result. -/
  result : CaseResult
  /-- Why the case could not be carried out, if so. -/
  error : Option ConformanceError

namespace Fixture

/-- Run a case of a family. -/
def verify (fixture : Fixture) (family : String) : Verdict :=
  let outcome := Execution.run fixture.function fixture.inputs
  let (actual, error) :=
    match outcome with
    | .ok line => (line, none)
    | .error e => ("unsupported:" ++ e.message, some e)
  let passed := error.isNone && actual == fixture.expected
  let diff := if passed then none else some (Diff.render fixture.expected actual)
  ⟨{ family := family, symbol := fixture.function, caseName := fixture.name,
     clause := fixture.clause, passed := passed, expected := fixture.expected, actual := actual,
     diff := diff }, error⟩

end Fixture

/-- The results of the cases of a set, in their order. -/
def FixtureSet.run (set : FixtureSet) : List CaseResult :=
  set.cases.map fun fixture => (fixture.verify set.family).result

/-- The results of a run, with their counts. -/
structure Summary where
  /-- The number of results. -/
  total : Nat
  /-- The number of those that passed. -/
  passed : Nat
  /-- The number of those that did not. -/
  failed : Nat
  /-- The results. -/
  results : List CaseResult
deriving DecidableEq, Repr

/-- How many results there are for a function, and how many of them passed. -/
structure Tally where
  /-- The function. -/
  symbol : String
  /-- The number of results that passed. -/
  passed : Nat
  /-- The number of results. -/
  total : Nat
deriving DecidableEq, Repr

namespace Tally

/-- Count one more result in a list of tallies ordered by function. -/
def add (result : CaseResult) : List Tally → List Tally
  | [] => [⟨result.symbol, result.passed.toNat, 1⟩]
  | tally :: rest =>
    if result.symbol < tally.symbol then
      ⟨result.symbol, result.passed.toNat, 1⟩ :: tally :: rest
    else if result.symbol == tally.symbol then
      ⟨tally.symbol, tally.passed + result.passed.toNat, tally.total + 1⟩ :: rest
    else tally :: add result rest

end Tally

namespace Summary

/-- Count some results. -/
def ofResults (results : List CaseResult) : Summary :=
  let passed := (results.filter (·.passed)).length
  ⟨results.length, passed, results.length - passed, results⟩

/-- Whether every case passed. -/
def allPassed (summary : Summary) : Bool := summary.failed == 0

/-- The results that did not pass. -/
def failures (summary : Summary) : List CaseResult :=
  summary.results.filter fun result => !result.passed

/-- The tallies of the functions, in the order of their names. -/
def bySymbol (summary : Summary) : List Tally :=
  summary.results.foldl (fun tallies result => Tally.add result tallies) []

/-- The members of the JSON form. -/
def members (summary : Summary) : List (String × Json) :=
  [("total", .ofNat summary.total), ("passed", .ofNat summary.passed),
    ("failed", .ofNat summary.failed), ("results", .array (summary.results.map CaseResult.toJson))]

/-- The JSON form. -/
def toJson (summary : Summary) : Json := .object summary.members

/-- Read the JSON form as it stands in a text. -/
def ofSource? (source : Json.Source) : Option Summary := do
  match ← source.record? ["total", "passed", "failed", "results"] 4 with
  | [some total, some passed, some failed, some results] =>
    return { total := ← total.nat?, passed := ← passed.nat?, failed := ← failed.nat?,
             results := ← (← results.items?).mapM CaseResult.ofSource? }
  | _ => none

end Summary

end FormatScan
