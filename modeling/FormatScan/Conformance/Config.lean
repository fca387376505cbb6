import FormatScan.Log.Entry

/-!
# Settings

Where the sets of cases are and where the log goes is taken from variables of
the environment, unless the command line says otherwise. A variable that is
blank counts as absent.
-/

namespace FormatScan

/-- The settings of a run. -/
structure Config where
  /-- The directory of the sets, or nothing for the one that comes with the
  program. -/
  fixtureDir : Option String := none
  /-- The file that the log goes to, if there is to be one. -/
  logPath : Option String := none
  /-- The least level that is written to the log. -/
  logLevel : LogLevel := .info
deriving DecidableEq, Repr

namespace Config

/-- The variable for the directory of the sets. -/
def fixtureDirVariable : String := "MINIFMT_FIXTURE_DIR"

/-- The variable for the file of the log. -/
def logPathVariable : String := "MINIFMT_LOG"

/-- The variable for the least level of the log. -/
def logLevelVariable : String := "MINIFMT_LOG_LEVEL"

/-- The directory of the sets that come with the program. -/
def builtInFixtureDir : String := "fixtures"

/-- The settings in an environment. -/
def ofEnvironment (lookup : String → Option String) : Config :=
  let get (name : String) := (lookup name).filter fun value => !Text.isBlankText value
  { fixtureDir := get fixtureDirVariable
    logPath := get logPathVariable
    logLevel := ((get logLevelVariable).map LogLevel.ofSetting).getD .info }

/-- Replace settings by those of the command line. -/
def override (config : Config) (fixtureDir logPath : Option String) : Config :=
  { config with
    fixtureDir := fixtureDir.or config.fixtureDir
    logPath := logPath.or config.logPath }

/-- The directory of the sets. -/
def directory (config : Config) : String := config.fixtureDir.getD builtInFixtureDir

end Config

end FormatScan
