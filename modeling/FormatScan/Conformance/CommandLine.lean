import FormatScan.Conformance.Artifact
import FormatScan.Conformance.Config
import FormatScan.Conformance.Sweep
import FormatScan.Log.Emitter
import FormatScan.Log.Validation

/-!
# The command line

The program has five commands: verify the sets of a directory and report on
them, render one format, scan one input, sweep the formatting cases of a
directory over all buffer sizes, and validate a log; in place of a command it
may be asked for its version. Options are written as `--name value` or
`--name=value`. What a command does to files it does through a
disk, and what it says is returned as text.
-/

namespace FormatScan.CommandLine

/-- A command with its options. -/
inductive Command where
  /-- Verify the sets of a directory. -/
  | verify (fixture report log timestamp : Option String)
  /-- Render one format. -/
  | render (format : String) (args : List ArgSpec) (capacity : Option Nat)
  /-- Scan one input. -/
  | scan (input format : String) (targets : List TargetSpec)
  /-- Sweep the formatting cases of a directory. -/
  | sweep (fixture : Option String)
  /-- Validate a log. -/
  | validate (input : String)
  /-- Tell the version of the program. -/
  | version
deriving DecidableEq, Repr

/-- An option of a command. -/
structure OptionRule where
  /-- The name, without the dashes. -/
  name : String
  /-- The option may be given more than once. -/
  repeated : Bool := false
  /-- The value may not be empty. -/
  nonempty : Bool := false

/-- Split the name of a written option from the value that is joined to it by an
equals sign. -/
def splitOption (text : List Char) : List Char × Option (List Char) :=
  let name := text.takeWhile (· != '=')
  (name, if name.length < text.length then some (text.drop (name.length + 1)) else none)

/-- Whether a word can be the value of the option in front of it: it is no
option itself. -/
def isValue (word : String) : Bool :=
  match word.toList with
  | '-' :: _ :: _ => false
  | _ => true

/-- The values of the options in some words, or nothing when they do not follow
the rules. Two bare dashes may end the words. -/
def readOptions (rules : List OptionRule) : List String → Option (List (String × String))
  | [] => some []
  | ["--"] => some []
  | word :: rest =>
    match word.toList with
    | '-' :: '-' :: text =>
      let (name, joined) := splitOption text
      match rules.find? fun rule => rule.name.toList == name with
      | none => none
      | some rule =>
        match joined, rest with
        | some value, rest =>
          (readOptions rules rest).map ((rule.name, String.ofList value) :: ·)
        | none, value :: rest =>
          if isValue value then (readOptions rules rest).map ((rule.name, value) :: ·) else none
        | none, [] => none
    | _ => none

/-- Whether the values of a rule are as many, and such, as it allows. -/
def OptionRule.allows (rule : OptionRule) (options : List (String × String)) : Bool :=
  let values := (options.filter fun option => option.1 == rule.name).map (·.2)
  (rule.repeated || values.length ≤ 1) && !(rule.nonempty && values.contains "")

/-- The options in some words. -/
def options? (rules : List OptionRule) (words : List String) : Option (List (String × String)) :=
  (readOptions rules words).filter fun options => rules.all (·.allows options)

/-- The value of an option. -/
def value? (name : String) (options : List (String × String)) : Option String :=
  (options.find? fun option => option.1 == name).map (·.2)

/-- The values of an option. -/
def values (name : String) (options : List (String × String)) : List String :=
  (options.filter fun option => option.1 == name).map (·.2)

/-- The rules of an option that names a file. -/
def fileRule (name : String) : OptionRule := { name := name, nonempty := true }

/-- Read the command in the words of a command line. There is none when the
words do not follow its rules. -/
def parse? (words : List String) : Option Command := do
  match words with
  | "verify" :: rest =>
    let options ← options?
      [fileRule "fixture", fileRule "report", fileRule "log", { name := "timestamp" }] rest
    return .verify (value? "fixture" options) (value? "report" options) (value? "log" options)
      (value? "timestamp" options)
  | "render" :: rest =>
    let options ← options?
      [{ name := "format" }, { name := "arg", repeated := true }, { name := "capacity" }] rest
    let args ← (values "arg" options).mapM fun text => (ArgSpec.parse text).toOption
    let capacity ← match value? "capacity" options with
      | none => some none
      | some text => (Text.decimal? .word text.toList).map fun n => some n.toNat
    return .render (← value? "format" options) args capacity
  | "scan" :: rest =>
    let options ← options?
      [{ name := "input" }, { name := "format" }, { name := "target", repeated := true }] rest
    let targets ← (values "target" options).mapM fun text => (TargetSpec.parse text).toOption
    return .scan (← value? "input" options) (← value? "format" options) targets
  | "bounds-sweep" :: rest =>
    let options ← options? [fileRule "fixture"] rest
    return .sweep (value? "fixture" options)
  | "validate-log" :: rest =>
    let options ← options? [fileRule "input"] rest
    return .validate (← value? "input" options)
  | "--version" :: _ => some .version
  | "-V" :: _ => some .version
  | _ => none

/-- What a command finds around it. -/
structure Surroundings where
  /-- The variables of the environment. -/
  environment : String → Option String
  /-- The number of the process. -/
  process : String
  /-- The time, and how long a case takes. -/
  clock : Clock

/-- Why a command fails. -/
inductive Failure where
  /-- A verdict of the command itself. -/
  | verdict (text : String)
  /-- A failure that leaves no result. -/
  | conformance (error : ConformanceError)
  /-- A file that cannot be read or written. -/
  | file (error : FileError)
deriving DecidableEq, Repr

/-- The last line of a command that fails. -/
def Failure.line : Failure → String
  | verdict text => "Error: " ++ Text.quoted text ++ "\n"
  | conformance error => "Error: " ++ error.diagnostic ++ "\n"
  | file error => "Error: " ++ error.diagnostic ++ "\n"

/-- What a command leaves behind. -/
structure Run where
  /-- The exit code. -/
  exit : Nat
  /-- The results. -/
  stdout : String
  /-- The messages. -/
  stderr : String
deriving DecidableEq, Repr

/-- A command that succeeds. -/
def Run.success (stdout stderr : String) : Run := ⟨0, stdout, stderr⟩

/-- A command that fails behind some messages. -/
def Run.failure (stdout stderr : String) (failure : Failure) : Run :=
  ⟨1, stdout, stderr ++ failure.line⟩

/-- The messages about files that were set aside. -/
def skippedLines (skipped : List (String × ConformanceError)) : String :=
  String.join (skipped.map fun (path, error) => s!"Skipping {path}: {error.message}\n")

/-- The results of some sets, and the log of running them. -/
structure Verified where
  /-- The results, in the order in which the cases were run. -/
  results : List CaseResult
  /-- The log. -/
  log : LogEmitter

/-- Run some sets and log them. -/
def runSets (readings : Readings) (emitter : LogEmitter) : List FixtureSet → Verified
  | [] => ⟨[], emitter⟩
  | set :: rest =>
    let (results, log) := set.runTimed readings emitter
    let others := runSets (readings.behind (set.cases.length + 1)) log rest
    ⟨results ++ others.results, others.log⟩

/-- The number of events of some sets: one for every set and one for every case. -/
def eventCount : List FixtureSet → Nat
  | [] => 0
  | set :: rest => set.cases.length + 1 + eventCount rest

/-- Run some sets between an entry for the start and one for the end. -/
def verifySets (readings : Readings) (emitter : LogEmitter) (sets : List FixtureSet) : Verified :=
  let started := emitter.emitEvent (readings.clock 0).timestamp .info "run_start"
  let verified := runSets (readings.behind 1) started sets
  let ended := (readings.clock (eventCount sets + 1)).timestamp
  { verified with log := verified.log.emitEvent ended .info "run_end" }

/-- The campaign of a verification. -/
def campaign : String := "verify"

/-- The report on some results, in the order of families, functions and
cases. -/
def reportOf (timestamp : String) (results : List CaseResult) : Report :=
  { title := "minifmt Conformance Report"
    campaign := campaign
    timestamp := timestamp
    summary := .ofResults (results.mergeSort CaseResult.le) }

/-- The messages about the results. -/
def summaryLines (summary : Summary) : String :=
  s!"Verification complete: total={summary.total}, passed={summary.passed}, " ++
    s!"failed={summary.failed}\n" ++
    String.join (summary.failures.map fun result =>
      s!"FAIL {result.caseName} ({result.symbol})\n" ++ result.diff.getD "")

/-- Write a text to a file. -/
def writeText {m : Type → Type} (disk : Disk m) (path text : String) :
    m (Except FileError Unit) :=
  disk.write path (bytesOf text)

/-- Where the parts of a report go. -/
structure ReportPaths where
  /-- The file of the Markdown form. -/
  markdown : String
  /-- The file of the JSON form. -/
  json : String
  /-- The file of the index. -/
  index : String
deriving DecidableEq, Repr

/-- The files of a report: the JSON form and the index stand beside the Markdown
form, with extensions of their own. -/
def ReportPaths.of (path : String) : ReportPaths :=
  ⟨path, Path.withExtension path "json", Path.withExtension path "artifacts.json"⟩

/-- List the log in an index, if there is one. -/
def indexLog {m : Type → Type} [Monad m] (disk : Disk m) (logPath : Option String)
    (index : ArtifactIndex) : m (Except FileError ArtifactIndex) :=
  match logPath with
  | some path => index.addFile disk path "log_jsonl"
  | none => pure (.ok index)

/-- Write the two forms of a report and then an index of what was written. -/
def writeReport {m : Type → Type} [Monad m] (disk : Disk m) (report : Report)
    (paths : ReportPaths) (logPath : Option String) (runId generated : String) :
    m (Except FileError ArtifactIndex) := do
  match ← writeText disk paths.markdown report.markdown with
  | .error e => pure (.error e)
  | .ok _ =>
    match ← writeText disk paths.json report.text with
    | .error e => pure (.error e)
    | .ok _ =>
      let empty : ArtifactIndex := { runId := runId, generated := generated }
      let written := (empty.add paths.markdown "report_markdown" (bytesOf report.markdown)).add
        paths.json "report_json" (bytesOf report.text)
      match ← indexLog disk logPath written with
      | .error e => pure (.error e)
      | .ok index =>
        match ← writeText disk paths.index index.text with
        | .error e => pure (.error e)
        | .ok _ => pure (.ok index)

/-- Write the log, if there is to be one. The result is the message about it. -/
def writeLog {m : Type → Type} [Monad m] (disk : Disk m) (logPath : Option String)
    (log : LogEmitter) : m (Except FileError String) :=
  match logPath with
  | none => pure (.ok "")
  | some path => do
    match ← writeText disk path log.text with
    | .ok _ => pure (.ok s!"Wrote {log.emitted} log entries to {path}\n")
    | .error e => pure (.error e)

/-- The end of a verification. -/
def conclude (summary : Summary) (messages : String) : Run :=
  if summary.allPassed then .success "" messages
  else .failure "" messages (.verdict "Conformance verification failed")

/-- Verify some sets: run them, write the log, and write the report. -/
def verifyLoaded {m : Type → Type} [Monad m] (disk : Disk m) (around : Surroundings)
    (config : Config) (reportPath timestamp : Option String) (messages : String)
    (sets : List FixtureSet) : m Run := do
  let runId := "verify-" ++ around.process
  let emitter : LogEmitter := { runId := runId, campaign := campaign, least := config.logLevel }
  let verified := verifySets (.still around.clock) emitter sets
  match ← writeLog disk config.logPath verified.log with
  | .error e => pure (.failure "" messages (.file e))
  | .ok logLine =>
    let report := reportOf (timestamp.getD around.clock.timestamp) verified.results
    let messages := messages ++ logLine ++ summaryLines report.summary
    match reportPath with
    | none => pure (conclude report.summary messages)
    | some path =>
      let paths := ReportPaths.of path
      let messages := messages ++ s!"Writing report to {path}\n"
      match ← writeReport disk report paths config.logPath runId around.clock.timestamp with
      | .error e => pure (.failure "" messages (.file e))
      | .ok _ =>
        pure (conclude report.summary
          (messages ++ s!"Results digest {report.resultsDigest} (index: {paths.index})\n"))

/-- Verify the sets of a directory. -/
def verify {m : Type → Type} [Monad m] (disk : Disk m) (around : Surroundings) (config : Config)
    (reportPath timestamp : Option String) : m Run := do
  let opening := s!"Verifying against fixtures in {config.directory}\n"
  match ← LoadedSets.load disk config.directory with
  | .error e => pure (.failure "" opening (.conformance e))
  | .ok loaded =>
    verifyLoaded disk around config reportPath timestamp (opening ++ skippedLines loaded.skipped)
      loaded.sets

/-- The messages and the report of sweeping some sets, up to the first one that
cannot be swept. -/
def sweepSets (report : BoundsReport) (messages : String) :
    List FixtureSet → String × Except ConformanceError BoundsReport
  | [] => (messages, .ok report)
  | set :: rest =>
    match Sweep.set set with
    | .error e => (messages, .error e)
    | .ok swept =>
      let line := s!"{set.family}: {swept.cases} cases, {swept.calls} calls, " ++
        s!"{swept.violations.length} violations\n"
      sweepSets (report.absorb swept) (messages ++ line) rest

/-- The message about a fault. -/
def violationLine (violation : BoundsViolation) : String :=
  s!"VIOLATION {violation.caseName} at capacity {violation.capacity}: " ++
    violation.fault.message ++ "\n"

/-- Sweep the sets of a directory. -/
def sweep {m : Type → Type} [Monad m] (disk : Disk m) (config : Config) : m Run := do
  let opening := s!"Sweeping capacities for fixtures in {config.directory}\n"
  match ← LoadedSets.load disk config.directory with
  | .error e => pure (.failure "" opening (.conformance e))
  | .ok loaded =>
    match sweepSets {} (opening ++ skippedLines loaded.skipped) loaded.sets with
    | (messages, .error e) => pure (.failure "" messages (.conformance e))
    | (messages, .ok report) =>
      let messages := messages ++ String.join (report.violations.map violationLine)
      let stdout := report.text ++ "\n"
      if report.isClean then pure (.success stdout messages)
      else
        pure (.failure stdout messages
          (.verdict s!"{report.violations.length} bounded-write violations"))

/-- Validate a log. -/
def validate {m : Type → Type} [Monad m] (disk : Disk m) (path : String) : m Run := do
  match ← disk.readText path with
  | .error e => pure (.failure "" "" (.file e))
  | .ok text =>
    let report := LogValidation.check text
    let messages := String.join (report.problems.map fun problem => problem.render ++ "\n") ++
      s!"Validated {report.lines} lines in {path}: {report.problems.length} errors\n"
    if report.problems.isEmpty then pure (.success "" messages)
    else pure (.failure "" messages (.verdict "Log validation failed"))

/-- The name and the version of the program. -/
def versionLine : String := "harness 0.1.0\n"

/-- Carry out a command. -/
def Command.run {m : Type → Type} [Monad m] (disk : Disk m) (around : Surroundings) :
    Command → m Run
  | .verify fixture report log timestamp =>
    FormatScan.CommandLine.verify disk around
      ((Config.ofEnvironment around.environment).override fixture log) report timestamp
  | .render format args capacity =>
    pure (.success (Rendering.formatLine (bytesOf format) args capacity ++ "\n") "")
  | .scan input format targets =>
    pure (.success (Rendering.scanLine (bytesOf input) (bytesOf format) targets ++ "\n") "")
  | .sweep fixture =>
    FormatScan.CommandLine.sweep disk
      ((Config.ofEnvironment around.environment).override fixture none)
  | .validate input => FormatScan.CommandLine.validate disk input
  | .version => pure (.success versionLine "")

/-- The exit code for words that are no command. -/
def usageExit : Nat := 2

/-- Carry out the command in the words of a command line. -/
def execute {m : Type → Type} [Monad m] (disk : Disk m) (around : Surroundings)
    (words : List String) : m Run :=
  match parse? words with
  | some command => command.run disk around
  | none =>
    pure ⟨usageExit, "",
      "Usage: formatscan <verify|render|scan|bounds-sweep|validate-log> [options]\n"⟩

end FormatScan.CommandLine
