import StageChain.Command.Program

/-!
# The command line

Reads the environment and the graph file, carries out the request and prints its output. No reader
of a file of defaults is linked in, so the environment is taken as it is, and no database driver, so
every read of a run is refused.
-/

open StageChain

/-- The variables that settings are loaded from. -/
def settingNames : List String :=
  ["MONGODB_URI", "MONGODB_DATABASE", "MONGODB_COLLECTION", Settings.pageSizeName,
    Settings.timeoutName, "AGG_GRAPH_LOG_LEVEL"]

/-- The variables that are set. -/
def readEnvironment : IO (Entries String) := do
  let entries ← settingNames.mapM fun name => do
    let value ← IO.getEnv name
    pure (value.map fun text => (name, text))
  pure (entries.filterMap id)

/-- The text of a file, if it can be read. -/
def readText? (path : String) : IO (Option String) := do
  try
    let text ← IO.FS.readFile path
    pure (some text)
  catch _ => pure none

/-- The source that refuses every read. -/
def unreachable (connection : Connection) : Source :=
  let refused : ReadFault := .refused ("Cannot reach " ++ connection.database)
  ⟨fun _ => .error refused, fun _ => .error refused, fun _ => .open⟩

/-- Carries out a request and gives the exit code. -/
def serve (request : Request) : IO UInt32 := do
  let environment ← readEnvironment
  let graph ← readText? request.graph
  let world : World := {
    environment := environment
    complete := id
    file? := fun _ => graph
    connect := unreachable }
  match Program.execute world request with
  | .ok output =>
    IO.print output.stdout
    IO.eprint output.stderr
    pure output.exitCode.toUInt32
  | .error fault =>
    IO.eprintln fault.message
    pure 1

/-- The entry point. -/
def main (arguments : List String) : IO UInt32 :=
  match Request.ofWords arguments with
  | .ok request => serve request
  | .error stop => pure stop.exitCode.toUInt32
