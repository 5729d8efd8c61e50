import Std.Time.DateTime.Timestamp
import Strips.Pddl.Shortest
import Strips.Session

/-!
# Command line

The program: one session on the files, the clock and the output of the machine it runs on. Settings
come from the environment and from a settings file in the working directory.
-/

namespace Strips

/-- The fault that an operation of the machine reports. -/
def FileFault.ofError : IO.Error → FileFault
  | .alreadyExists .. => .exists
  | .inappropriateType _ code _ => if code = 21 then .isDirectory else .notDirectory
  | .invalidArgument _ code _ => if code = 36 then .nameTooLong else .notFound
  | _ => .notFound

/-- Do something with a file, and name the path when it fails. -/
def onFile {α : Type} (path : String) (action : IO α) : IO (Except FileError α) := do
  if let some fault := pathFault? path then return .error ⟨fault, path⟩
  try return .ok (← action)
  catch e => return .error ⟨.ofError e, path⟩

/-- Microseconds since the beginning of 1970. -/
def instantNow : IO Instant :=
  return (← Std.Time.Timestamp.now).toNanosecondsSinceUnixEpoch.val.fdiv 1000

/-- The machine; `last` holds the last reading of the stopwatch, in nanoseconds. Whatever search is
asked for, the plan is a shortest one. -/
def Host.machine (last : IO.Ref Nat) : Host IO where
  read path := onFile path (IO.FS.readBinFile path)
  makeDirectories path := onFile path.toString (IO.FS.createDirAll path.toString)
  write path text := onFile path.toString (IO.FS.writeFile path.toString text)
  now := instantNow
  stopwatch := do
    let now ← IO.monoNanosNow
    return .ofRatio (now - (← last.modifyGet fun before => (before, now)) : Nat) 1000000000
  plan _ task := return .ok task.shortestPlan
  print := IO.println

/-- The name of the settings file. -/
def settingsFile : String := ".env"

/-- The variables of the environment that are settings. -/
def readEnvironment : IO Environment :=
  ["GRAPHPLAN_VERBOSE", "GRAPHPLAN_STRICT_MUTEXES", "GRAPHPLAN_LOG_DIR",
    "GRAPHPLAN_MAX_LAYERS"].filterMapM fun name => do
    return (← IO.getEnv name).map fun value => (name, value)

/-- The settings: those of the environment, then those of the settings file, if there is one. -/
def readSettings : IO (Except SettingsError Environment) := do
  let env ← readEnvironment
  match (← onFile settingsFile (IO.FS.readFile settingsFile)) with
  | .ok text => return env.loadFile text
  | .error _ => return .ok env

/-- How the program is called. -/
def usageLine : String :=
  "usage: [-h] [-v] [--max-layers MAX_LAYERS] [--strict-mutexes] [--log-dir LOG_DIR] " ++
    "[--no-log] [--cross-check] problem"

/-- The whole program: its exit code. -/
def runProgram (args : List String) : IO UInt32 := do
  let fail := fun (message : String) => do
    IO.eprintln message
    return 1
  match CommandLine.parse args with
  | .error .help =>
    IO.println usageLine
    return 0
  | .error .wrong =>
    IO.eprintln usageLine
    return 2
  | .ok options =>
    match (← readSettings) with
    | .error e => fail e.message
    | .ok env =>
      let host := Host.machine (← IO.mkRef 0)
      match (← Session.run host options env) with
      | .ok ending => return ending.exitCode.toUInt32
      | .error e => fail e.message

end Strips

/-- The program. -/
def main (args : List String) : IO UInt32 := Strips.runProgram args
