import FormatScan.Byte
import FormatScan.Text.Quoted

/-!
# Files

What the program asks of a file system: read a file, write one, and list a
directory. Whoever offers these three operations can run it, a real disk as well
as a tree of files in memory.
-/

namespace FormatScan

/-- Why a file operation fails. -/
inductive FileError where
  /-- There is no such file or directory. -/
  | notFound
  /-- A directory stands where a file is needed. -/
  | isDirectory
  /-- A file stands where a directory is needed. -/
  | notDirectory
  /-- The file is not UTF-8 text. -/
  | notText
  /-- A path, or a name in it, is too long. -/
  | nameTooLong
  /-- A path has a zero character in it. -/
  | zeroInName
  /-- Any other reason, as the system puts it. -/
  | other (reason : String)
deriving DecidableEq, Repr

namespace FileError

/-- The name of a reason. -/
def kind : FileError → String
  | notFound => "NotFound"
  | isDirectory => "IsADirectory"
  | notDirectory => "NotADirectory"
  | notText => "InvalidData"
  | nameTooLong => "InvalidFilename"
  | zeroInName => "InvalidInput"
  | other _ => "Other"

/-- The number that the system gives to a reason. -/
def code? : FileError → Option Nat
  | notFound => some 2
  | isDirectory => some 21
  | notDirectory => some 20
  | nameTooLong => some 36
  | notText | zeroInName | other _ => none

/-- A reason in words. -/
def description : FileError → String
  | notFound => "No such file or directory"
  | isDirectory => "Is a directory"
  | notDirectory => "Not a directory"
  | notText => "stream did not contain valid UTF-8"
  | nameTooLong => "File name too long"
  | zeroInName => "file name contained an unexpected NUL byte"
  | other reason => reason

/-- The message for a reason. -/
def message (error : FileError) : String :=
  match error.code? with
  | some code => s!"{error.description} (os error {code})"
  | none => error.description

/-- A reason as a diagnostic value. -/
def diagnostic (error : FileError) : String :=
  let shared := "kind: " ++ error.kind ++ ", message: " ++ Text.quoted error.description
  match error.code? with
  | some code => "Os \x7b code: " ++ toString code ++ ", " ++ shared ++ " \x7d"
  | none => "Error \x7b " ++ shared ++ " \x7d"

end FileError

/-- The operations of a file system whose actions are run by `m`. -/
structure Disk (m : Type → Type) where
  /-- The contents of a file. -/
  read : String → m (Except FileError Bytes)
  /-- Replace the contents of a file, creating it if need be. -/
  write : String → Bytes → m (Except FileError Unit)
  /-- The names in a directory, in no particular order. -/
  list : String → m (Except FileError (List String))

/-- The text of a file. -/
def Disk.readText {m : Type → Type} [Monad m] (disk : Disk m) (path : String) :
    m (Except FileError String) := do
  match ← disk.read path with
  | .error e => pure (.error e)
  | .ok bytes =>
    match String.fromUTF8? (ByteArray.mk bytes.toArray) with
    | some text => pure (.ok text)
    | none => pure (.error .notText)

end FormatScan
