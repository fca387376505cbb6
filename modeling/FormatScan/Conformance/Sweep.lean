import FormatScan.Conformance.Execution
import FormatScan.Conformance.Fixture

/-!
# Sweeps over buffer sizes

A formatting case is repeated with every size of buffer from nothing to two
bytes more than its whole output. At each size the call has to report the same
length, or the same failure, as without a bound, to stay inside the buffer, to
keep the beginning of the output and a zero byte behind it, and to store the
same counts.
-/

namespace FormatScan

/-- What a call with a bound did wrong. -/
inductive BoundsFault where
  /-- It reported something else. -/
  | otherResult (bounded unbounded : Except FormatError Nat)
  /-- It wrote behind the buffer. -/
  | overrun
  /-- It kept other bytes. -/
  | otherBeginning
  /-- It wrote no zero byte at an offset. -/
  | unterminated (offset : Nat)
  /-- It stored other counts. -/
  | otherCounts (bounded unbounded : List Int64)

namespace BoundsFault

/-- A failure as a diagnostic value. -/
def errorText : FormatError → String
  | .missingArgument index => "MissingArgument \x7b index: " ++ toString index ++ " \x7d"
  | .argumentMismatch index expected found =>
    "ArgumentMismatch \x7b index: " ++ toString index ++ ", expected: " ++
      Text.quoted expected.name ++ ", found: " ++ Text.quoted found.name ++ " \x7d"
  | .unterminatedScanSet offset =>
    "UnterminatedScanSet \x7b offset: " ++ toString offset ++ " \x7d"

/-- A report as a diagnostic value. -/
def resultText : Except FormatError Nat → String
  | .ok length => s!"Ok({length})"
  | .error error => "Err(" ++ errorText error ++ ")"

/-- Counts as a diagnostic value. -/
def countsText (counts : List Int64) : String :=
  Rendering.bracketed (counts.map fun n => toString n.toInt)

/-- The message for a fault. -/
def message : BoundsFault → String
  | otherResult bounded unbounded =>
    "returned " ++ resultText bounded ++ ", unbounded call returned " ++ resultText unbounded
  | overrun => "wrote past the capacity"
  | otherBeginning => "kept prefix differs from unbounded output"
  | unterminated offset => s!"no NUL terminator at offset {offset}"
  | otherCounts bounded unbounded =>
    "%n stored " ++ countsText bounded ++ ", unbounded stored " ++ countsText unbounded

end BoundsFault

/-- A fault of one case at one size. -/
structure BoundsViolation where
  /-- The case. -/
  caseName : String
  /-- The size of the buffer. -/
  capacity : Nat
  /-- The fault. -/
  fault : BoundsFault

/-- The outcome of a sweep. -/
structure BoundsReport where
  /-- The number of cases. -/
  cases : Nat := 0
  /-- The number of calls with a bound. -/
  calls : Nat := 0
  /-- The faults that were found. -/
  violations : List BoundsViolation := []

/-- The JSON form of a fault. -/
def BoundsViolation.toJson (violation : BoundsViolation) : Json :=
  .object [("case_name", .string violation.caseName), ("capacity", .ofNat violation.capacity),
    ("message", .string violation.fault.message)]

namespace BoundsReport

/-- Whether no fault was found. -/
def isClean (report : BoundsReport) : Bool := report.violations.isEmpty

/-- Two sweeps as one. -/
def absorb (report other : BoundsReport) : BoundsReport :=
  ⟨report.cases + other.cases, report.calls + other.calls, report.violations ++ other.violations⟩

/-- The JSON form. -/
def toJson (report : BoundsReport) : Json :=
  .object [("cases", .ofNat report.cases), ("calls", .ofNat report.calls),
    ("violations", .array (report.violations.map BoundsViolation.toJson))]

/-- The JSON text. -/
def text (report : BoundsReport) : String := report.toJson.indented

end BoundsReport

namespace Sweep

/-- The byte that fills a buffer before a call. -/
def guardByte : UInt8 := 0xEE

/-- The number of bytes that are watched behind a buffer. -/
def guardSize : Nat := 8

/-- Whether two reports are the same. -/
def sameResult (a b : Except FormatError Nat) : Bool :=
  match a, b with
  | .ok m, .ok n => m == n
  | .error e, .error f => e == f
  | _, _ => false

/-- The faults of a call into a buffer of some size, beside the call without a
bound. -/
def faultsAt (format : Bytes) (specs : List ArgSpec) (full : Format.Printed) (capacity : Nat) :
    List BoundsFault :=
  let bounded := Format.printBounded (List.replicate capacity guardByte) format
    (specs.map ArgSpec.arg)
  let storage := bounded.sink.bytes ++ List.replicate guardSize guardByte
  let text := full.sink.bytes
  let kept := min text.length (capacity - 1)
  if !sameResult bounded.result full.result then [.otherResult bounded.result full.result]
  else
    let overruns :=
      if (storage.drop capacity).any (· != guardByte) then [BoundsFault.overrun] else []
    match full.result with
    | .error _ => overruns
    | .ok _ =>
      let keptFaults :=
        if capacity == 0 then []
        else
          (if storage.take kept != text.take kept then [BoundsFault.otherBeginning] else []) ++
            (if storage[kept]? != some 0 then [BoundsFault.unterminated kept] else [])
      let counts := Operands.counts bounded.args
      let fullCounts := Operands.counts full.args
      overruns ++ keptFaults ++
        (if counts != fullCounts then [BoundsFault.otherCounts counts fullCounts] else [])

/-- Sweep one format with its operands. -/
def format (caseName : String) (format : Bytes) (specs : List ArgSpec) : BoundsReport :=
  let full := Format.printAll format (specs.map ArgSpec.arg)
  let sizes := full.sink.bytes.length + 3
  { cases := 1
    calls := sizes
    violations := (List.range sizes).flatMap fun capacity =>
      (faultsAt format specs full capacity).map fun fault => ⟨caseName, capacity, fault⟩ }

/-- Whether a case calls the formatter. -/
def isFormatCase (fixture : Fixture) : Bool :=
  fixture.function == "snprintf" || fixture.function == "sprintf"

/-- Sweep one case that calls the formatter. -/
def fixture (fixture : Fixture) : Except ConformanceError BoundsReport :=
  match FormatInputs.ofJson fixture.inputs with
  | .ok inputs => .ok (format fixture.name (bytesOf inputs.format) inputs.args)
  | .error e => .error (.json e)

/-- Sweep some cases behind an earlier sweep. -/
def fixtures (report : BoundsReport) : List Fixture → Except ConformanceError BoundsReport
  | [] => .ok report
  | next :: rest =>
    if isFormatCase next then
      match fixture next with
      | .ok swept => fixtures (report.absorb swept) rest
      | .error e => .error e
    else fixtures report rest

/-- Sweep the cases of a set that call the formatter. -/
def set (cases : FixtureSet) : Except ConformanceError BoundsReport := fixtures {} cases.cases

end Sweep

end FormatScan
