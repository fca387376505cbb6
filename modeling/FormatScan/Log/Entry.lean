import FormatScan.Json.Decode
import FormatScan.Json.Printer
import FormatScan.Text.Blank

/-!
# Log entries

A log is a text of one JSON object a line. Every entry has a time, a trace
identifier, a level and an event; what else it has depends on the event, and a
field that is not set is not written.
-/

namespace FormatScan

/-- How severe an entry is. -/
inductive LogLevel where
  | trace | debug | info | warn | error
deriving DecidableEq, Repr

namespace LogLevel

/-- The place of a level among the others, from the least severe on. -/
def rank : LogLevel → Nat
  | trace => 0
  | debug => 1
  | info => 2
  | warn => 3
  | error => 4

/-- The written form. -/
def name : LogLevel → String
  | trace => "trace"
  | debug => "debug"
  | info => "info"
  | warn => "warn"
  | error => "error"

/-- The levels, from the least severe on. -/
def all : List LogLevel := [trace, debug, info, warn, error]

/-- The level of a written form. -/
def ofName? (text : String) : Option LogLevel := all.find? fun level => level.name == text

/-- The level that a setting asks for. Blanks around it and the case of its
letters do not matter, and whatever is unknown stands for `info`. -/
def ofSetting (text : String) : LogLevel :=
  match (Text.trim text).toLower with
  | "trace" | "all" => trace
  | "debug" | "verbose" => debug
  | "warn" | "warning" => warn
  | "error" | "err" | "quiet" => error
  | _ => info

/-- Read the JSON form. -/
def ofJson (value : Json) : Json.Decoded LogLevel := do
  let (text, written) ← value.asChoice
  match ofName? text with
  | some level => Json.bare level written
  | none => throw (.unsuitable "a level")

end LogLevel

/-- What became of a case. -/
inductive CaseOutcome where
  | pass | fail | skip | error
deriving DecidableEq, Repr

namespace CaseOutcome

/-- The written form. -/
def name : CaseOutcome → String
  | pass => "pass"
  | fail => "fail"
  | skip => "skip"
  | error => "error"

/-- The outcomes. -/
def all : List CaseOutcome := [pass, fail, skip, error]

/-- The outcome of a written form. -/
def ofName? (text : String) : Option CaseOutcome := all.find? fun outcome => outcome.name == text

/-- Read the JSON form. -/
def ofJson (value : Json) : Json.Decoded CaseOutcome := do
  let (text, written) ← value.asChoice
  match ofName? text with
  | some outcome => Json.bare outcome written
  | none => throw (.unsuitable "an outcome")

end CaseOutcome

/-- An entry of a log. -/
structure LogEntry where
  /-- The time of the entry. -/
  timestamp : String
  /-- The run, the campaign and the number of the entry, with two colons
  between them; empty as long as it is not known. -/
  traceId : String
  /-- The level. -/
  level : LogLevel
  /-- The event. -/
  event : String
  /-- The run. -/
  runId : Option String := none
  /-- The family of a case. -/
  family : Option String := none
  /-- The function of a case. -/
  symbol : Option String := none
  /-- The name of a case. -/
  caseName : Option String := none
  /-- What became of a case. -/
  outcome : Option CaseOutcome := none
  /-- How long a case took, in nanoseconds. -/
  latency : Option UInt64 := none
  /-- The files that belong to the event. -/
  artifacts : Option (List String) := none
  /-- Anything else. -/
  details : Option Json := none

namespace LogEntry

/-- The names of the fields, in the order in which they are written. -/
def fieldNames : List String :=
  ["timestamp", "trace_id", "level", "event", "run_id", "family", "symbol", "case", "outcome",
    "latency_ns", "artifact_refs", "details"]

/-- A field that is written when it is set. -/
def optional {α : Type} (name : String) (value : Option α) (write : α → Json) :
    List (String × Json) :=
  match value with
  | some x => [(name, write x)]
  | none => []

/-- The JSON form. -/
def toJson (entry : LogEntry) : Json :=
  .object ([("timestamp", .string entry.timestamp), ("trace_id", .string entry.traceId),
      ("level", .string entry.level.name), ("event", .string entry.event)] ++
    optional "run_id" entry.runId .string ++ optional "family" entry.family .string ++
    optional "symbol" entry.symbol .string ++ optional "case" entry.caseName .string ++
    optional "outcome" entry.outcome (fun outcome => .string outcome.name) ++
    optional "latency_ns" entry.latency .ofWord ++
    optional "artifact_refs" entry.artifacts .ofStrings ++
    optional "details" entry.details id)

/-- The line of an entry, without its end. -/
def line (entry : LogEntry) : String := entry.toJson.compact

/-- Read the JSON form. -/
def ofJson (value : Json) : Json.Decoded LogEntry := do
  let fields ← value.asRecord fieldNames 12
  let text := Json.asOption Json.asString
  let artifacts ← Json.present fields 10 (Json.asOption (Json.asList Json.asString))
  let caseName ← Json.present fields 7 text
  let details ← Json.present fields 11 (Json.asOption .ok)
  let event ← Json.present fields 3 Json.asString
  let family ← Json.present fields 5 text
  let latency ← Json.present fields 9 (Json.asOption (Json.asNat 64))
  let level ← Json.present fields 2 LogLevel.ofJson
  let outcome ← Json.present fields 8 (Json.asOption CaseOutcome.ofJson)
  let runId ← Json.present fields 4 text
  let symbol ← Json.present fields 6 text
  let timestamp ← Json.present fields 0 Json.asString
  let traceId ← Json.present fields 1 Json.asString
  return { timestamp := ← Json.required "timestamp" timestamp,
           traceId := ← Json.required "trace_id" traceId,
           level := ← Json.required "level" level, event := ← Json.required "event" event,
           runId := runId.join, family := family.join, symbol := symbol.join,
           caseName := caseName.join, outcome := outcome.join,
           latency := latency.join.map UInt64.ofNat, artifacts := artifacts.join,
           details := details.join }

end LogEntry

end FormatScan
