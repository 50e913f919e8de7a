import StageChain.Command.Arguments
import StageChain.Graph.Editor
import StageChain.Json.Reader
import StageChain.Preview.Once
import StageChain.Settings
import StageChain.Source.Database

/-!
# The program

`Program.execute` carries out a request in a `World`: it compiles a graph file and prints the
report, prints a snippet, or runs every prefix and prints the results. What a request prints, and
the code with which it ends, is an `Output`.
-/

namespace StageChain

/-- What the program sees of the outside. -/
structure World where
  /-- The variables that settings are loaded from. -/
  environment : Entries String
  /-- Completes the variables by a file of defaults. -/
  complete : Entries String → Entries String
  /-- The text of a file, if it is there. -/
  file? : String → Option String
  /-- The data source behind a connection. -/
  connect : Connection → Source

/-- What ends the program without an output. -/
inductive ProgramFault where
  | settings (fault : SettingsFault)
  | unknownLogLevel (level : String)
  | fileNotFound (path : String)
  /-- A path holds a null character, which no path can. -/
  | nullInPath
  | notJson
  /-- The graph holds an integer with more digits than are read. -/
  | overlong (numeral : Text.OverlongNumeral)
  | load (fault : LoadFault)
  | run (fault : RunFault)
  /-- A number of what is printed has no text. -/
  | unwritable (fault : WriteFault)
  /-- An option that has to have a value was given none. -/
  | noValue (option : String)
  | crashed (crash : Crash)
  | noResult
deriving DecidableEq

/-- What a fault says. -/
def ProgramFault.message : ProgramFault → String
  | settings fault => fault.message
  | unknownLogLevel level => "Unknown level: " ++ Text.quote level
  | fileNotFound path => "No such file: " ++ path
  | nullInPath => "embedded null byte"
  | notJson => "The graph file is not JSON"
  | overlong numeral => numeral.message
  | load fault => fault.message
  | run fault => fault.message
  | unwritable fault => fault.message
  | noValue option => "No value for " ++ option
  | crashed crash => crash.message
  | noResult => "The run was given up"

/-- What a request prints and how it ends. -/
structure Output where
  exitCode : Nat
  stdout : String
  stderr : String
  /-- The connection that was used, if any. -/
  connection : Option Connection
  /-- The reads that were started. -/
  reads : List Read

namespace Program

/-- One line of text. -/
def line (text : String) : String := text ++ "\n"

/-- A text, or another one if it is empty. -/
def firstFilled (text default : String) : String := if text.isEmpty then default else text

/-- Loads the settings and checks the log level. -/
def settings (world : World) : Except ProgramFault Settings := do
  let settings ← (Settings.loadWith world.complete world.environment).mapError .settings
  if Settings.logLevels.contains settings.logLevel then .ok settings
  else .error (.unknownLogLevel settings.logLevel)

/-- Loads the graph of a file. -/
def graphOf (world : World) (path : String) : Except ProgramFault Graph :=
  if path.toList.contains '\x00' then .error .nullInPath
  else
    match world.file? path with
    | none => .error (.fileNotFound path)
    | some text =>
      match Json.read .lenient text with
      | .error .malformed => .error .notJson
      | .error (.overlong numeral) => .error (.overlong numeral)
      | .ok saved => (Graph.ofValue saved).mapError .load

/-- Compiles the graph of a file. -/
def reportOf (world : World) (path : String) : Except ProgramFault Report := do
  (← graphOf world path).compile.mapError .overlong

/-- Prints the report of a graph. -/
def compile (world : World) (request : Request) : Except ProgramFault Output := do
  let report ← reportOf world request.graph
  let text ← (Json.writeWithin false Json.indented report.toValue).mapError .unwritable
  .ok {
    exitCode := if report.isOk then 0 else 1
    stdout := line text
    stderr := ""
    connection := none
    reads := [] }

/-- Prints the snippet of a graph. -/
def snippet (world : World) (settings : Settings) (request : Request) :
    Except ProgramFault Output := do
  let report ← reportOf world request.graph
  match report.outcome with
  | .error failure =>
    .ok ⟨1, "", line ("Cannot export: " ++ failure.text), none, []⟩
  | .ok pipeline =>
    let collection := firstFilled request.collection settings.collection
    match request.format with
    | some format =>
      let text ← (Snippet.render format pipeline collection).mapError .unwritable
      .ok ⟨0, line text, "", none, []⟩
    | none => .error (.noValue "--format")

/-- The connection that a request and the settings name. -/
def connectionOf (settings : Settings) (request : Request) : Except ConnectionFault Connection :=
  Connection.ofParts (firstFilled request.uri settings.uri)
    (firstFilled request.database settings.database)
    (firstFilled request.collection settings.collection)

/-- The page of a request. Where it was given as no value, a graph that is not valid can still be
refused. -/
def pageOf (graph : Graph) (request : Request) : Except ProgramFault Int :=
  match request.page, graph.compile with
  | some page, _ => .ok page
  | none, .ok report => if report.isOk then .error (.noValue "--page") else .ok 1
  | none, .error numeral => .error (.overlong numeral)

/-- Runs a graph over a connection and prints the results. -/
def runOver (world : World) (settings : Settings) (request : Request) (connection : Connection) :
    Except ProgramFault Output := do
  let graph ← graphOf world request.graph
  let pageSize := if request.pageSize = 0 then settings.pageSize else request.pageSize
  let timeout := if request.timeout.isZero then settings.timeout else request.timeout
  let orchestrator ← (Orchestrator.create connection.collection pageSize timeout
    (world.connect connection)).mapError .run
  let page ← pageOf graph request
  let (done, ending) ← (graph.preview orchestrator page).mapError .run
  match ending with
  | some (.finished run) =>
    let results := Json.extended (run.toValue (some 0))
    let text ← (Json.writeWithin false Json.indentedAscii results).mapError .unwritable
    .ok {
      exitCode := if run.isOk then 0 else 1
      stdout := line text
      stderr := ""
      connection := some connection
      reads := done.log }
  | some (.crashed crash) => .error (.crashed crash)
  | _ => .error .noResult

/-- Carries out a run, if its connection is complete. -/
def run (world : World) (settings : Settings) (request : Request) : Except ProgramFault Output :=
  match connectionOf settings request with
  | .error fault => .ok ⟨2, "", line ("Cannot run: " ++ fault.message), none, []⟩
  | .ok connection => runOver world settings request connection

/-- Carries out a request. -/
def execute (world : World) (request : Request) : Except ProgramFault Output := do
  let settings ← settings world
  match request.command with
  | .compile => compile world request
  | .snippet => snippet world settings request
  | .run => run world settings request

end Program

end StageChain
