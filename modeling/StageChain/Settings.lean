import StageChain.Double.Text
import StageChain.Entries
import StageChain.Source.Paging
import StageChain.Text.LetterCase
import StageChain.Text.Quoted

/-!
# Settings

Settings come from the variables of an environment. Before they are looked up, the environment is
completed by a file of defaults. What reads that file belongs to another package and is a parameter
here, `complete` of `Settings.loadWith`: it gives the environment in which the variables are looked
up. Numbers that are blank take their default.
-/

namespace StageChain

/-- The settings of the program. -/
structure Settings where
  uri : String
  database : String
  collection : String
  pageSize : Int
  timeout : Double
  logLevel : String
deriving DecidableEq

/-- Why settings cannot be loaded. -/
inductive SettingsFault where
  /-- A variable is no integer. -/
  | notInteger (name raw : String)
  /-- A variable is no number. -/
  | notNumber (name raw : String)
  /-- A variable is a number that is not positive. -/
  | notPositive (name : String) (value : Double)
deriving DecidableEq

/-- What a fault says. -/
def SettingsFault.message : SettingsFault → String
  | notInteger name raw => name ++ " must be an integer, got " ++ Text.quote raw
  | notNumber name raw => name ++ " must be a number, got " ++ Text.quote raw
  | notPositive name value => name ++ " must be positive, got " ++ value.text

namespace Settings

/-- The name of the variable for the time that a stage may take. -/
def timeoutName : String := "AGG_GRAPH_STAGE_TIMEOUT_SECONDS"

/-- The name of the variable for the page size of previews. -/
def pageSizeName : String := "AGG_GRAPH_PREVIEW_PAGE_SIZE"

/-- A variable, or a default if it is not set. -/
def textOf (environment : Entries String) (name default : String) : String :=
  (Entries.get? name environment).getD default

/-- A variable that is set and not blank. -/
def filled? (environment : Entries String) (name : String) : Option String :=
  (Entries.get? name environment).filter fun raw => !(Text.trim raw).isEmpty

/-- An integer variable. -/
def intOf (environment : Entries String) (name : String) (default : Int) :
    Except SettingsFault Int :=
  match filled? environment name with
  | none => .ok default
  | some raw =>
    match Text.liberalInt? (Text.trim raw) with
    | some n => .ok n
    | none => .error (.notInteger name raw)

/-- A variable that is a double. -/
def doubleOf (environment : Entries String) (name : String) (default : Double) :
    Except SettingsFault Double :=
  match filled? environment name with
  | none => .ok default
  | some raw =>
    match Double.ofText? (Text.trim raw) with
    | some x => .ok x
    | none => .error (.notNumber name raw)

/-- Loads the settings. The time limit is checked before the page size. -/
def load (environment : Entries String) : Except SettingsFault Settings := do
  let timeout ← doubleOf environment timeoutName (.ofInt 30)
  if timeout.isAtMostZero then .error (.notPositive timeoutName timeout)
  else
    let pageSize ← intOf environment pageSizeName 20
    .ok {
      uri := textOf environment "MONGODB_URI" "mongodb://localhost:27017"
      database := textOf environment "MONGODB_DATABASE" ""
      collection := textOf environment "MONGODB_COLLECTION" ""
      pageSize := Paging.clampPageSize pageSize
      timeout := timeout
      logLevel := Text.upper (textOf environment "AGG_GRAPH_LOG_LEVEL" "INFO") }

/-- Loads the settings of an environment after it is completed. -/
def loadWith (complete : Entries String → Entries String) (environment : Entries String) :
    Except SettingsFault Settings :=
  load (complete environment)

/-- The log levels that are known. -/
def logLevels : List String :=
  ["NOTSET", "DEBUG", "INFO", "WARN", "WARNING", "ERROR", "CRITICAL", "FATAL"]

end Settings

end StageChain
