import FormatScan.Calendar
import FormatScan.Conformance.CommandLine
import Std.Time.DateTime.Timestamp

/-!
# The program

The command line runs on the files, the environment and the clock of the system.
All that it decides is decided elsewhere: here its questions are put to the
system, and its answers are written out.
-/

namespace FormatScan

/-- The reason behind a failure of the system. -/
def FileError.ofSystem (error : IO.Error) : FileError :=
  match error with
  | .noFileOrDirectory .. => .notFound
  | .noSuchThing .. => .notFound
  | .inappropriateType .. => .isDirectory
  | unknown => .other (toString unknown)

/-- Carry out an action of the system and keep its failure as a value. -/
def attempt {α : Type} (action : IO α) : IO (Except FileError α) := do
  try
    return .ok (← action)
  catch error =>
    return .error (FileError.ofSystem error)

/-- The files of the system. -/
def systemDisk : Disk IO where
  read path := attempt do return (← IO.FS.readBinFile path).toList
  write path contents := attempt (IO.FS.writeBinFile path (ByteArray.mk contents.toArray))
  list path := attempt do
    let top : IO.FS.DirEntry := { root := path, fileName := "" }
    return (← top.root.readDir).toList.map (·.fileName)

/-- The variables of the environment that hold settings. -/
def settings : IO (List (String × String)) := do
  let names := [Config.fixtureDirVariable, Config.logPathVariable, Config.logLevelVariable]
  names.filterMapM fun name => do return (← IO.getEnv name).map fun value => (name, value)

/-- The number of the running process, as the system shows it. -/
def processNumber : IO String := do
  match ← attempt (IO.FS.readFile "/proc/self/stat") with
  | .ok text => return String.ofList (text.toList.takeWhile (· != ' '))
  | .error _ => return "0"

/-- The time of the system as text. -/
def systemTime : IO String := do
  let now := (← Std.Time.Timestamp.now).toMillisecondsSinceUnixEpoch.val.toNat
  return (DateTime.ofSeconds (now / 1000)).render (now % 1000)

/-- What a command finds around it in the system. -/
def systemSurroundings : IO CommandLine.Surroundings := do
  let found ← settings
  return { environment := fun name => (found.find? fun entry => entry.1 == name).map (·.2)
           process := ← processNumber
           clock := ⟨← systemTime, 0⟩ }

end FormatScan

/-- Carry out the command in the arguments of the program. -/
def main (arguments : List String) : IO UInt32 := do
  let around ← FormatScan.systemSurroundings
  let outcome ← FormatScan.CommandLine.execute FormatScan.systemDisk around arguments
  IO.eprint outcome.stderr
  IO.print outcome.stdout
  return UInt32.ofNat outcome.exit
