import FormatScan.Conformance.Rendering

/-!
# Carrying out a case

A case names a function and gives its inputs as a JSON record. The result is the
line for the outcome of the call.
-/

namespace FormatScan

/-- A function that cases can call. -/
inductive Callable where
  /-- Format into a buffer. -/
  | formatBounded
  /-- Format without a bound. -/
  | format
  /-- Scan. -/
  | scan
  /-- Decode a machine word. -/
  | decodeWord
  /-- Decode a signed number. -/
  | decodeSigned
  /-- Decode an unsigned number. -/
  | decodeUnsigned
  /-- Encode a number. -/
  | encode
deriving DecidableEq, Repr

/-- The function of a name. -/
def Callable.ofName? (name : String) : Option Callable :=
  match name with
  | "snprintf" => some formatBounded
  | "sprintf" => some format
  | "sscanf" => some scan
  | "strtoul" => some decodeWord
  | "strtoq" => some decodeSigned
  | "strtouq" => some decodeUnsigned
  | "ksprintn" => some encode
  | _ => none

/-- The inputs of a formatting call. -/
structure FormatInputs where
  /-- The format. -/
  format : String
  /-- The operands. -/
  args : List ArgSpec
  /-- The size of the buffer. -/
  capacity : Option Nat
deriving DecidableEq, Repr

/-- Read the inputs of a formatting call. -/
def FormatInputs.ofJson (inputs : Json) : Json.Decoded FormatInputs := do
  let fields ← inputs.asRecord ["format", "args", "capacity"] 1
  let args ← Json.present fields 1 (Json.asList ArgSpec.ofJson)
  let capacity ← Json.present fields 2 (Json.asOption (Json.asNat 64))
  let format ← Json.present fields 0 Json.asString
  return { format := ← Json.required "format" format, args := args.getD [],
           capacity := capacity.join }

/-- The inputs of a scanning call. -/
structure ScanInputs where
  /-- The input. -/
  input : String
  /-- The format. -/
  format : String
  /-- The targets. -/
  targets : List TargetSpec
deriving DecidableEq, Repr

/-- Read the inputs of a scanning call. -/
def ScanInputs.ofJson (inputs : Json) : Json.Decoded ScanInputs := do
  let fields ← inputs.asRecord ["input", "format", "targets"] 2
  let format ← Json.present fields 1 Json.asString
  let input ← Json.present fields 0 Json.asString
  let targets ← Json.present fields 2 (Json.asList TargetSpec.ofJson)
  return { input := ← Json.required "input" input, format := ← Json.required "format" format,
           targets := targets.getD [] }

/-- The inputs of a decoding call. -/
structure DecodeInputs where
  /-- The text. -/
  text : String
  /-- The base. -/
  base : Nat
deriving DecidableEq, Repr

/-- Read the inputs of a decoding call. -/
def DecodeInputs.ofJson (inputs : Json) : Json.Decoded DecodeInputs := do
  let fields ← inputs.asRecord ["text", "base"] 2
  let base ← Json.present fields 1 (Json.asNat 32)
  let text ← Json.present fields 0 Json.asString
  return { text := ← Json.required "text" text, base := ← Json.required "base" base }

/-- The inputs of an encoding call. -/
structure EncodeInputs where
  /-- The number. -/
  value : UInt64
  /-- The base. -/
  base : Nat
  /-- Whether letters are in upper case. -/
  upper : Bool
deriving DecidableEq, Repr

/-- Read the inputs of an encoding call. -/
def EncodeInputs.ofJson (inputs : Json) : Json.Decoded EncodeInputs := do
  let fields ← inputs.asRecord ["value", "base", "upper"] 2
  let base ← Json.present fields 1 (Json.asNat 32)
  let upper ← Json.present fields 2 Json.asBool
  let value ← Json.present fields 0 (Json.asNat 64)
  return { value := UInt64.ofNat (← Json.required "value" value),
           base := ← Json.required "base" base, upper := upper.getD false }

namespace Execution

/-- Read some inputs. -/
def decode {α : Type} (read : Json → Json.Decoded α) (inputs : Json) : Except ConformanceError α :=
  (read inputs).mapError .json

/-- Carry out a decoding call. -/
def decodeLine (call : DecodeInputs) (read : Bytes → Nat → String × Nat) : String :=
  let (value, finish) := read (bytesOf call.text) call.base
  Rendering.decodedLine value finish

/-- Call a function. -/
def call (function : Callable) (inputs : Json) : Except ConformanceError String := do
  match function with
  | .formatBounded =>
    let call ← decode FormatInputs.ofJson inputs
    match call.capacity with
    | none => throw (.badInput "capacity" .noCapacity)
    | some size => return Rendering.formatLine (bytesOf call.format) call.args (some size)
  | .format =>
    let call ← decode FormatInputs.ofJson inputs
    return Rendering.formatLine (bytesOf call.format) call.args none
  | .scan =>
    let call ← decode ScanInputs.ofJson inputs
    return Rendering.scanLine (bytesOf call.input) (bytesOf call.format) call.targets
  | .decodeWord =>
    return decodeLine (← decode DecodeInputs.ofJson inputs) fun text base =>
      let decoded := Numeral.decodeMachineWord text base
      (toString decoded.value.toNat, decoded.finish)
  | .decodeSigned =>
    return decodeLine (← decode DecodeInputs.ofJson inputs) fun text base =>
      let decoded := Numeral.decodeSigned text base
      (toString decoded.value.toInt, decoded.finish)
  | .decodeUnsigned =>
    return decodeLine (← decode DecodeInputs.ofJson inputs) fun text base =>
      let decoded := Numeral.decodeUnsigned text base
      (toString decoded.value.toNat, decoded.finish)
  | .encode =>
    let call ← decode EncodeInputs.ofJson inputs
    if 2 ≤ call.base && call.base ≤ 36 then
      return Rendering.encodedLine
        (Numeral.writeScratch (List.replicate Numeral.scratchSize 0) call.base call.upper call.value)
    else throw (.badInput "base" (.baseOutOfRange call.base))

/-- Carry out a case, given by the name of a function and its inputs. -/
def run (name : String) (inputs : Json) : Except ConformanceError String :=
  match Callable.ofName? name with
  | some function => call function inputs
  | none => .error (.unsupportedFunction name)

end Execution

end FormatScan
