import FormatScan.Conformance.Error
import FormatScan.Files.Path
import FormatScan.Json.Printer

/-!
# Sets of cases

A case names a function, gives its inputs and says what line is expected. A set
holds the cases of one family and is kept as a JSON text. A directory of sets is
loaded in the order of the file names; what does not load is set aside with the
reason.
-/

namespace FormatScan

/-- One case. -/
structure Fixture where
  /-- The name of the case. -/
  name : String
  /-- The name of the function to call. -/
  function : String
  /-- The clause of the standard that the case is about, if it says so. -/
  clause : String
  /-- The inputs of the call. -/
  inputs : Json
  /-- The expected line. -/
  expected : String

/-- The cases of one family. -/
structure FixtureSet where
  /-- The version of the form. -/
  version : String
  /-- The family. -/
  family : String
  /-- When the expectations were recorded. -/
  capturedAt : String
  /-- The cases. -/
  cases : List Fixture

namespace Fixture

/-- The members of the JSON form. -/
def members (fixture : Fixture) : List (String × Json) :=
  [("name", .string fixture.name), ("function", .string fixture.function),
    ("clause", .string fixture.clause), ("inputs", fixture.inputs),
    ("expected_output", .string fixture.expected)]

/-- The JSON form. -/
def toJson (fixture : Fixture) : Json := .object fixture.members

/-- Read the JSON form, whose containers may be nested `depth` deep. The clause
may be absent from an object. -/
def ofSource? (depth : Nat) (source : Json.Source) : Option Fixture := do
  let fields ← source.record? ["name", "function", "clause", "inputs", "expected_output"] 5
  match fields with
  | [some name, some function, clause, some inputs, some expected] =>
    let clause ← match clause with
      | some text => text.string?
      | none => some ""
    return { name := ← name.string?, function := ← function.string?, clause := clause,
             inputs := ← inputs.value? (depth - 1), expected := ← expected.string? }
  | _ => none

end Fixture

namespace FixtureSet

/-- The members of the JSON form. -/
def members (set : FixtureSet) : List (String × Json) :=
  [("version", .string set.version), ("family", .string set.family),
    ("captured_at", .string set.capturedAt), ("cases", .array (set.cases.map Fixture.toJson))]

/-- The JSON form. -/
def toJson (set : FixtureSet) : Json := .object set.members

/-- The JSON text. -/
def text (set : FixtureSet) : String := set.toJson.indented

/-- Read the JSON form, whose containers may be nested `depth` deep. -/
def ofSource? (depth : Nat) (source : Json.Source) : Option FixtureSet := do
  let fields ← source.record? ["version", "family", "captured_at", "cases"] 4
  match fields with
  | [some version, some family, some capturedAt, some cases] =>
    return { version := ← version.string?, family := ← family.string?,
             capturedAt := ← capturedAt.string?,
             cases := ← (← cases.items?).mapM (Fixture.ofSource? (depth - 2)) }
  | _ => none

/-- Read the JSON text. -/
def ofText? (text : String) : Option FixtureSet :=
  (Json.Source.parse? text).bind (ofSource? Json.Source.nestingLimit)

end FixtureSet

/-- The sets of a directory. -/
structure LoadedSets where
  /-- The sets, in the order of their file names. -/
  sets : List FixtureSet
  /-- The files that were set aside, in the order of their names. -/
  skipped : List (String × ConformanceError)

namespace LoadedSets

/-- The extension of the files that hold sets. -/
def fileExtension : String := "json"

/-- Load the set in a file. -/
def loadFile {m : Type → Type} [Monad m] (disk : Disk m) (path : String) :
    m (Except ConformanceError FixtureSet) := do
  match ← disk.readText path with
  | .error e => pure (.error (.file path e))
  | .ok text =>
    match FixtureSet.ofText? text with
    | some set => pure (.ok set)
    | none => pure (.error (.json .malformed))

/-- Load the sets in a list of files. -/
def loadFiles {m : Type → Type} [Monad m] (disk : Disk m) : List String → m LoadedSets
  | [] => pure ⟨[], []⟩
  | path :: rest => do
    let outcome ← loadFile disk path
    let others ← loadFiles disk rest
    match outcome with
    | .ok set => pure { others with sets := set :: others.sets }
    | .error e => pure { others with skipped := (path, e) :: others.skipped }

/-- The files of a directory that hold sets, in the order of their names. -/
def filesOf (directory : String) (names : List String) : List String :=
  ((names.filter fun name => Path.hasExtension name fileExtension).mergeSort
    (fun a b => decide (a ≤ b))).map (Path.join directory)

/-- Load the sets of a directory, which has to hold at least one. -/
def load {m : Type → Type} [Monad m] (disk : Disk m) (directory : String) :
    m (Except ConformanceError LoadedSets) := do
  match ← disk.list directory with
  | .error e => pure (.error (.file directory e))
  | .ok names =>
    let loaded ← loadFiles disk (filesOf directory names)
    if loaded.sets.isEmpty then pure (.error (.noFixtures directory)) else pure (.ok loaded)

end LoadedSets

end FormatScan
