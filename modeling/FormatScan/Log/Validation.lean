import FormatScan.Log.Entry
import FormatScan.Text.Lines

/-!
# Checking a log

A line of a log is a JSON object with the four required fields as strings, a
known level, a known outcome if it has one, a case whenever it has an outcome,
and a trace identifier of three parts. All faults of a line are reported, in the
order of these rules; only a line without any is read as an entry, which may
still fail on the form of its optional fields.
-/

namespace FormatScan

/-- What is wrong with a line of a log. -/
inductive LogFault where
  /-- The line is no JSON. -/
  | malformed
  /-- The line is no object. -/
  | notObject
  /-- A required field is absent. -/
  | missing (field : String)
  /-- A required field is no string. -/
  | notString (field : String)
  /-- There is no such level. -/
  | unknownLevel (level : String)
  /-- There is no such outcome. -/
  | unknownOutcome (outcome : String)
  /-- An outcome has no case. -/
  | outcomeWithoutCase
  /-- A trace identifier has another number of parts. -/
  | unusualTraceId (traceId : String)
  /-- A field has another form. -/
  | unreadable (error : Json.DecodeError)
deriving DecidableEq, Repr

namespace LogFault

/-- The field that a fault is about. -/
def field : LogFault → String
  | malformed => "<json>"
  | notObject => "<root>"
  | missing field | notString field => field
  | unknownLevel _ => "level"
  | unknownOutcome _ => "outcome"
  | outcomeWithoutCase => "case"
  | unusualTraceId _ => "trace_id"
  | unreadable _ => "<deserialization>"

/-- The message for a fault. -/
def message : LogFault → String
  | malformed => "invalid JSON: " ++ Json.DecodeError.malformed.message
  | notObject => "expected JSON object"
  | missing _ => "required field missing"
  | notString _ => "expected string"
  | unknownLevel level => s!"invalid level: '{level}'"
  | unknownOutcome outcome => s!"invalid outcome: '{outcome}'"
  | outcomeWithoutCase => "outcome events must name their case"
  | unusualTraceId traceId =>
    s!"trace_id should follow <run_id>::<campaign>::<seq> format, got: '{traceId}'"
  | unreadable error => "failed to deserialize: " ++ error.message

end LogFault

/-- A fault with the number of its line. -/
structure LogProblem where
  /-- The number of the line, from 1. -/
  line : Nat
  /-- The fault. -/
  fault : LogFault
deriving DecidableEq, Repr

/-- A fault as a line of text. -/
def LogProblem.render (problem : LogProblem) : String :=
  s!"line {problem.line}: field '{problem.fault.field}': {problem.fault.message}"

namespace LogValidation

/-- The number of parts between pairs of colons. Pairs are taken from the left
and do not overlap. -/
def partCount : List Char → Nat
  | [] => 1
  | ':' :: ':' :: rest => partCount rest + 1
  | _ :: rest => partCount rest

/-- The faults of a required field. -/
def requiredFaults (members : List (String × Json)) (name : String) : List LogFault :=
  match Json.lookup name members with
  | none => [.missing name]
  | some (.string _) => []
  | some _ => [.notString name]

/-- The string in a field, if there is one. -/
def text? (members : List (String × Json)) (name : String) : Option String :=
  (Json.lookup name members).bind Json.string?

/-- The fault of a level. -/
def levelFaults (members : List (String × Json)) : List LogFault :=
  match text? members "level" with
  | some level => if (LogLevel.ofName? level).isSome then [] else [.unknownLevel level]
  | none => []

/-- The faults of an outcome. -/
def outcomeFaults (members : List (String × Json)) : List LogFault :=
  (match text? members "outcome" with
    | some outcome =>
      if (CaseOutcome.ofName? outcome).isSome then [] else [LogFault.unknownOutcome outcome]
    | none => []) ++
  if (Json.lookup "outcome" members).isSome && (text? members "case").isNone then
    [LogFault.outcomeWithoutCase]
  else []

/-- The fault of a trace identifier. -/
def traceFaults (members : List (String × Json)) : List LogFault :=
  match text? members "trace_id" with
  | some traceId => if partCount traceId.toList == 3 then [] else [.unusualTraceId traceId]
  | none => []

/-- The faults of an object. -/
def faults (members : List (String × Json)) : List LogFault :=
  ["timestamp", "trace_id", "level", "event"].flatMap (requiredFaults members) ++
    levelFaults members ++ outcomeFaults members ++ traceFaults members

/-- Check a line and read its entry. -/
def checkLine (line : String) : Except (List LogFault) LogEntry :=
  match Json.parse? line with
  | none => .error [.malformed]
  | some value =>
    match value.members? with
    | none => .error [.notObject]
    | some members =>
      match faults members with
      | [] =>
        match LogEntry.ofJson value with
        | .ok entry => .ok entry
        | .error e => .error [.unreadable e]
      | found => .error found

/-- The outcome of checking a log. -/
structure Report where
  /-- The number of lines that are not blank. -/
  lines : Nat
  /-- The faults, line by line. -/
  problems : List LogProblem
deriving DecidableEq, Repr

/-- Check some lines of a log, the first of which has a number. Blank lines are
passed over but count for the numbers of the others. -/
def checkLines (number : Nat) : List String → Report
  | [] => ⟨0, []⟩
  | line :: rest =>
    let others := checkLines (number + 1) rest
    let trimmed := Text.trim line
    if trimmed.isEmpty then others
    else
      match checkLine trimmed with
      | .ok _ => { others with lines := others.lines + 1 }
      | .error found =>
        ⟨others.lines + 1, found.map (fun fault => ⟨number, fault⟩) ++ others.problems⟩

/-- Check a log. -/
def check (text : String) : Report := checkLines 1 (Text.linesOf text)

end LogValidation

end FormatScan
