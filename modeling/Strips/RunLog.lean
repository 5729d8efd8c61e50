import Strips.Host
import Strips.RunLog.Record

/-!
# Run logs

A log keeps one directory per run, named after the time at which the run started and its mode. What
happens in the run goes into the record of the run, and both forms of the record are written anew
after each event that is worth it. Before the first run there is no record, and events are ignored.

## Main definitions

* `RunLog.open`, `RunLog.start`, `RunLog.finish` – the frame of a run.
* `Event`, `RunLog.note` – what happens in between.
-/

namespace Strips

/-- A log, with the record of the present run. -/
structure RunLog where
  /-- The directory of all runs. -/
  directory : Path
  record : Option RunRecord := none
  /-- When the present run started. -/
  startTime : Option Instant := none
  /-- The directory of the present run. -/
  runDirectory : Option Path := none
  deriving Repr

/-- Why a log operation fails. -/
inductive LogError where
  | file (cause : FileError)
  /-- A run is to be finished that was not started. -/
  | noRun
  deriving DecidableEq, Repr

/-- The message about a failed log operation. -/
def LogError.message : LogError → String
  | file cause => cause.message
  | noRun => "No active planning record to end"

/-- What can happen in a run. -/
inductive Event where
  | problemRead (schemas initial goals : Int)
  | parseFailed (error : String)
  | settings (strictMutexes : Bool) (maxLayers : Int)
  | layer (size : LayerSize)
  | planned (status : String) (plan : Option (List String)) (layersBuilt : Int)
      (fixedPoint : Option Int) (attempts noGoods : Int)
  | planningFailed (error : String)
  | crossChecked (status : String) (plan : Option (List String)) (error : Option String)
  deriving DecidableEq, Repr

/-- Whether the record is written after an event. Settings and sizes wait for the next event. -/
def Event.isWritten : Event → Bool
  | settings _ _ | layer _ => false
  | _ => true

/-- The record after an event. -/
def RunRecord.note (r : RunRecord) : Event → RunRecord
  | .problemRead schemas initial goals =>
    { r with
      parseStatus := "success"
      schemaCount := schemas
      initialCount := initial
      goalCount := goals }
  | .parseFailed error => { r with parseStatus := "failed", parseError := some error }
  | .settings strictMutexes maxLayers =>
    { r with strictMutexes := strictMutexes, maxLayers := maxLayers }
  | .layer size => { r with layers := r.layers ++ [size] }
  | .planned status plan layersBuilt fixedPoint attempts noGoods =>
    let planLength : Nat := (plan.map List.length).getD 0
    { r with
      planningStatus := status
      plan := plan
      planLength := planLength
      layersBuilt := layersBuilt
      fixedPoint := fixedPoint
      attempts := attempts
      noGoods := noGoods }
  | .planningFailed error => { r with planningStatus := "failed", planningError := some error }
  | .crossChecked status plan error =>
    { r with crossCheckStatus := status, referencePlan := plan, crossCheckError := error }

namespace RunLog

/-- The answer of a log operation, and the log after it. -/
abbrev Logged (α : Type) : Type := Except LogError α × RunLog

variable {m : Type → Type} [Monad m] (host : Host m)

/-- Open a log; its directory is made. -/
def «open» (directory : String) : m (Except LogError RunLog) := do
  let directory := Path.ofString directory
  match (← host.makeDirectories directory) with
  | .ok _ => return .ok { directory }
  | .error e => return .error (.file e)

/-- Start a run. Its directory may exist already. If it cannot be made, the time and the directory
are those of the new run, and the record that of the one before. -/
def start (log : RunLog) (problemFile : String) (mode : String := "graphplan")
    (timestamp : Option String := none) : m (Logged Unit) := do
  let time ← host.now
  let timestamp := timestamp.getD (Calendar.stamp time)
  let runDirectory := log.directory.join (timestamp ++ "_" ++ mode)
  let log := { log with startTime := some time, runDirectory := some runDirectory }
  match (← host.makeDirectories runDirectory) with
  | .error e => return (.error (.file e), log)
  | .ok _ =>
    let record : RunRecord := { timestamp, problemFile, mode, logDir := log.directory.toString }
    return (.ok (), { log with record := some record })

/-- The file of the record as JSON. -/
def jsonPath (directory : Path) : Path := directory.join "execution.json"

/-- The file of the record as a text. -/
def reportPath (directory : Path) : Path := directory.join "execution.txt"

/-- Write both forms of the record, with the time since the start of the run. -/
def save (log : RunLog) : m (Logged Unit) := do
  match log.record, log.runDirectory with
  | some record, some directory =>
    let record : RunRecord ← match log.startTime with
      | some time => do
        let now ← host.now
        pure { record with duration := now - time }
      | none => pure record
    let log := { log with record := some record }
    match (← host.write (jsonPath directory) record.json.text) with
    | .error e => return (.error (.file e), log)
    | .ok _ =>
      match (← host.write (reportPath directory) record.report) with
      | .error e => return (.error (.file e), log)
      | .ok _ => return (.ok (), log)
  | _, _ => return (.ok (), log)

/-- Take note of an event. -/
def note (log : RunLog) (event : Event) : m (Logged Unit) := do
  match log.record with
  | none => return (.ok (), log)
  | some record =>
    let log := { log with record := some (record.note event) }
    if event.isWritten then log.save host else return (.ok (), log)

/-- Finish the run: the file of its record. -/
def finish (log : RunLog) (success : Bool) : m (Logged Path) := do
  match log.record, log.startTime, log.runDirectory with
  | some record, some _, some directory =>
    match (← { log with record := some { record with success } }.save host) with
    | (.ok _, log) => return (.ok (jsonPath directory), log)
    | (.error e, log) => return (.error e, log)
  | _, _, _ => return (.error .noRun, log)

end RunLog

end Strips
