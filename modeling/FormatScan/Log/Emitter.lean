import FormatScan.Conformance.Result
import FormatScan.Log.Entry
import FormatScan.Text.Padded

/-!
# Emitting a log

An emitter writes the entries of one run. An entry below its least level is
dropped and takes no number; any other entry is written, and one that has no
trace identifier yet is given the next number of the run.
-/

namespace FormatScan

/-- What an emitter has written, and what it writes next. -/
structure LogEmitter where
  /-- The run. -/
  runId : String
  /-- The campaign. -/
  campaign : String
  /-- The least level that is written. -/
  least : LogLevel := .trace
  /-- The last number that was given to an entry. -/
  sequence : Nat := 0
  /-- The lines written so far. -/
  lines : Array String := #[]

namespace LogEmitter

/-- The trace identifier of a number. -/
def traceId (emitter : LogEmitter) (number : Nat) : String :=
  emitter.runId ++ "::" ++ emitter.campaign ++ "::" ++ Text.padded 3 number

/-- An entry that has neither a trace identifier nor anything else yet. -/
def entry (emitter : LogEmitter) (timestamp : String) (level : LogLevel) (event : String) :
    LogEntry :=
  { timestamp := timestamp, traceId := "", level := level, event := event,
    runId := some emitter.runId }

/-- Write an entry. -/
def emit (emitter : LogEmitter) (entry : LogEntry) : LogEmitter :=
  if entry.level.rank < emitter.least.rank then emitter
  else
    let run := entry.runId.getD emitter.runId
    if entry.traceId.isEmpty then
      let number := emitter.sequence + 1
      let complete := { entry with traceId := emitter.traceId number, runId := some run }
      { emitter with sequence := number, lines := emitter.lines.push complete.line }
    else { emitter with lines := emitter.lines.push { entry with runId := some run }.line }

/-- Write an entry that has nothing but its event. -/
def emitEvent (emitter : LogEmitter) (timestamp : String) (level : LogLevel) (event : String) :
    LogEmitter :=
  emitter.emit (emitter.entry timestamp level event)

/-- The number of entries that were given a number. -/
def emitted (emitter : LogEmitter) : Nat := emitter.sequence

/-- The text of the log. -/
def text (emitter : LogEmitter) : String :=
  String.join (emitter.lines.toList.map fun line => line ++ "\n")

end LogEmitter

/-- The time of an event, and how long a case took. -/
structure Clock where
  /-- The time of the event. -/
  timestamp : String
  /-- How long the case took, in nanoseconds. -/
  latency : UInt64

/-- What the clock shows at the events of a run, one after the other. -/
structure Readings where
  /-- What it shows at the event of a number, from 0 on. -/
  clock : Nat → Clock

namespace Readings

/-- A clock that stands still. -/
def still (clock : Clock) : Readings := ⟨fun _ => clock⟩

/-- What the clock shows behind some events. -/
def behind (readings : Readings) (events : Nat) : Readings :=
  ⟨fun i => readings.clock (events + i)⟩

end Readings

namespace FixtureSet

/-- The entry in front of the cases of a set. -/
def startEntry (set : FixtureSet) (emitter : LogEmitter) (clock : Clock) : LogEntry :=
  { emitter.entry clock.timestamp .debug "set_start" with
    details := some (.object [("cases", .ofNat set.cases.length), ("family", .string set.family),
      ("version", .string set.version)]) }

/-- The level and the outcome of a case. -/
def severity (verdict : Verdict) : LogLevel × CaseOutcome :=
  if verdict.error.isSome then (.error, .error)
  else if verdict.result.passed then (.info, .pass)
  else (.warn, .fail)

/-- What the entry of a case tells beyond its outcome. -/
def caseDetails (verdict : Verdict) : Option Json :=
  match verdict.error with
  | some error => some (.object [("error", .string error.message)])
  | none =>
    if verdict.result.passed then none
    else some (.object [("actual", .string verdict.result.actual),
      ("expected", .string verdict.result.expected)])

/-- The entry of a case. -/
def caseEntry (verdict : Verdict) (emitter : LogEmitter) (clock : Clock) : LogEntry :=
  { emitter.entry clock.timestamp (severity verdict).1 "case_result" with
    family := some verdict.result.family
    symbol := some verdict.result.symbol
    caseName := some verdict.result.caseName
    outcome := some (severity verdict).2
    latency := some clock.latency
    details := caseDetails verdict }

/-- Write the entries of some cases. -/
def logCases (readings : Readings) (emitter : LogEmitter) : List Verdict → LogEmitter
  | [] => emitter
  | verdict :: rest =>
    logCases (readings.behind 1) (emitter.emit (caseEntry verdict emitter (readings.clock 0))) rest

/-- Run the cases of a set and write an entry for each. -/
def runTimed (set : FixtureSet) (readings : Readings) (emitter : LogEmitter) :
    List CaseResult × LogEmitter :=
  let verdicts := set.cases.map fun fixture => fixture.verify set.family
  let started := emitter.emit (set.startEntry emitter (readings.clock 0))
  (verdicts.map (·.result), logCases (readings.behind 1) started verdicts)

/-- Run a set by a clock that stands still. -/
def runLogged (set : FixtureSet) (clock : Clock) (emitter : LogEmitter) :
    List CaseResult × LogEmitter :=
  set.runTimed (.still clock) emitter

end FixtureSet

end FormatScan
