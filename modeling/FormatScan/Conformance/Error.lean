import FormatScan.Files.Disk
import FormatScan.Json.Decode

/-!
# What keeps a case from being carried out

A case whose result differs from the expectation is no failure in this sense: a
failure means that there is no result to compare.
-/

namespace FormatScan

/-- What is wrong with a setting of a case or of the command line. -/
inductive InputFault where
  /-- A number is expected in place of a text. -/
  | notANumber (text : String)
  /-- There is no kind of this name. -/
  | unknownKind (name : String)
  /-- A buffer needs a size. -/
  | noCapacity
  /-- There are no digits in this base. -/
  | baseOutOfRange (base : Nat)
deriving DecidableEq, Repr

/-- A name between backquotes. -/
def backquoted (name : String) : String := "\x60" ++ name ++ "\x60"

/-- The message for a fault. -/
def InputFault.message : InputFault → String
  | notANumber text => "not a number: " ++ backquoted text
  | unknownKind name => "unknown kind " ++ backquoted name
  | noCapacity => "snprintf needs a capacity"
  | baseOutOfRange base => toString base ++ " is outside 2..=36"

/-- Why there is no result. -/
inductive ConformanceError where
  /-- A file or directory cannot be read. -/
  | file (path : String) (error : FileError)
  /-- A text or a value is not of the wanted form. -/
  | json (error : Json.DecodeError)
  /-- There is no function of this name. -/
  | unsupportedFunction (name : String)
  /-- A setting is unusable. -/
  | badInput (field : String) (fault : InputFault)
  /-- A directory holds no set of cases. -/
  | noFixtures (directory : String)
deriving DecidableEq, Repr

namespace ConformanceError

/-- The message for a failure. -/
def message : ConformanceError → String
  | file path error => "I/O error on " ++ path ++ ": " ++ error.message
  | json error => "invalid JSON: " ++ error.message
  | unsupportedFunction name => "unsupported function " ++ backquoted name
  | badInput field fault => "bad input " ++ backquoted field ++ ": " ++ fault.message
  | noFixtures directory => "no fixture JSON files found in " ++ directory

/-- A failure as a diagnostic value. -/
def diagnostic : ConformanceError → String
  | file path error =>
    "Io \x7b path: " ++ Text.quoted path ++ ", source: " ++ error.diagnostic ++ " \x7d"
  | json error => "Json(Error(" ++ Text.quoted error.message ++ ", line: 0, column: 0))"
  | unsupportedFunction name => "UnsupportedFunction(" ++ Text.quoted name ++ ")"
  | badInput field fault =>
    "BadInput \x7b field: " ++ Text.quoted field ++ ", message: " ++
      Text.quoted fault.message ++ " \x7d"
  | noFixtures directory => "NoFixtures(" ++ Text.quoted directory ++ ")"

end ConformanceError

end FormatScan
