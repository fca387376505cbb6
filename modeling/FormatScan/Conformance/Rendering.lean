import FormatScan.Conformance.Spec
import FormatScan.Format.Render
import FormatScan.Scan.Run
import FormatScan.Text.Quoted

/-!
# Results as lines

The result of a call is compared as one line of text: the returned number, the
output or the targets, and the counts that were stored. A disagreement between a
format and its operands makes a line of its own.
-/

namespace FormatScan.Rendering

/-- The line for a failure. -/
def errorLine (error : FormatError) : String := "error: " ++ error.message

/-- Bytes between double quotes. -/
def quotedBytes (bytes : Bytes) : String :=
  "\"" ++ String.ofList (Text.escapeBytes bytes) ++ "\""

/-- A list between brackets. -/
def bracketed (items : List String) : String := "[" ++ ", ".intercalate items ++ "]"

/-- The line for an outcome of formatting: how long the output is, what was kept
of it, and what the slots hold. -/
def outputLine (result : Except FormatError Nat) (kept : Bytes) (counts : List Int64) : String :=
  match result with
  | .error error => errorLine error
  | .ok length =>
    let line := "ret=" ++ toString length ++ " out=" ++ quotedBytes kept
    if counts.isEmpty then line
    else line ++ " counts=" ++ bracketed (counts.map fun n => toString n.toInt)

/-- Format described operands, into a buffer when its capacity is given. What
was kept in a buffer is read up to its first zero byte. A capacity that cannot be
allocated is outside the model (see `Bytes`). -/
def formatLine (format : Bytes) (specs : List ArgSpec) (capacity : Option Nat) : String :=
  let args := specs.map ArgSpec.arg
  match capacity with
  | some size =>
    let printed := Format.printBounded (List.replicate size 0) format args
    outputLine printed.result (untilZero printed.sink.bytes) (Operands.counts printed.args)
  | none =>
    let printed := Format.printAll format args
    outputLine printed.result printed.sink.bytes (Operands.counts printed.args)

/-- What a target holds. -/
def targetText : ScanTarget → String
  | .int value | .count value => toString value.toInt
  | .uint value => toString value.toNat
  | .pointer value => "0x" ++ String.ofList (Text.hexText value.toNat)
  | .buffer bytes => quotedBytes (untilZero bytes)

/-- The line for an outcome of scanning. -/
def targetsLine (result : Except FormatError Scan.Outcome) (targets : List ScanTarget) : String :=
  match result with
  | .error error => errorLine error
  | .ok outcome =>
    "ret=" ++ toString outcome.toInt ++ " values=" ++ bracketed (targets.map targetText)

/-- Scan an input into described targets. -/
def scanLine (input format : Bytes) (specs : List TargetSpec) : String :=
  let scanned := Scan.scan input format (specs.map TargetSpec.target)
  targetsLine scanned.result scanned.targets

/-- The line for a decoded number. -/
def decodedLine (value : String) (finish : Nat) : String :=
  "value=" ++ value ++ " end=" ++ toString finish

/-- The line for an encoded number. -/
def encodedLine (scratch : Numeral.Scratch) : String :=
  "digits=" ++ String.ofList (scratch.forward.map Byte.char) ++ " len=" ++ toString scratch.length

end FormatScan.Rendering
