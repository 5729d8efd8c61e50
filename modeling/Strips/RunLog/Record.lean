import Strips.Decimal.Shortest
import Strips.Text.Json
import Strips.Text.LetterCase

/-!
# Records of runs

A record says what a run was given and what came of it. It is written as JSON, in a fixed order of
fields, and as a text for readers.

## Main definitions

* `RunRecord` and `LayerSize` – the record.
* `RunRecord.json`, `RunRecord.report` – its two forms.
-/

namespace Strips

open Text (JsonValue)

/-- The size of one level of a planning graph. -/
structure LayerSize where
  index : Int
  actions : Int
  actionMutexes : Int
  facts : Int
  factMutexes : Int
  deriving DecidableEq, Repr

/-- What a run was given and what came of it. -/
structure RunRecord where
  timestamp : String
  problemFile : String
  success : Bool := false
  mode : String
  parseStatus : String := "pending"
  schemaCount : Int := 0
  initialCount : Int := 0
  goalCount : Int := 0
  parseError : Option String := none
  planningStatus : String := "pending"
  strictMutexes : Bool := false
  maxLayers : Int := 0
  layers : List LayerSize := []
  layersBuilt : Int := 0
  fixedPoint : Option Int := none
  attempts : Int := 0
  noGoods : Int := 0
  plan : Option (List String) := none
  planLength : Int := 0
  planningError : Option String := none
  crossCheckStatus : String := "skipped"
  referencePlan : Option (List String) := none
  crossCheckError : Option String := none
  logDir : String
  /-- Duration in microseconds. -/
  duration : Int := 0
  deriving DecidableEq, Repr

/-- Durations are written with the digits before the point in full up to the sixteenth, and with up
to four zeros after it. -/
def durationStyle : Decimal.Style := ⟨4, 16⟩

namespace LayerSize

/-- The size as JSON. -/
def json (l : LayerSize) : JsonValue :=
  .object [("index", .int l.index), ("actions", .int l.actions),
    ("action_mutexes", .int l.actionMutexes), ("facts", .int l.facts),
    ("fact_mutexes", .int l.factMutexes)]

/-- The size as a line. -/
def line (l : LayerSize) : String :=
  s!"  #{l.index}: {l.actions} actions ({l.actionMutexes} mutexes), " ++
    s!"{l.facts} facts ({l.factMutexes} mutexes)"

end LayerSize

namespace RunRecord

/-- The duration in seconds. -/
def seconds (r : RunRecord) : Binary64 := .ofRatio r.duration 1000000

/-- The record as JSON. -/
def json (r : RunRecord) : JsonValue :=
  let maybe : Option String → JsonValue := .optional .string
  .object [
    ("timestamp", .string r.timestamp),
    ("problem_file", .string r.problemFile),
    ("success", .bool r.success),
    ("mode", .string r.mode),
    ("parse_status", .string r.parseStatus),
    ("num_action_schemas", .int r.schemaCount),
    ("num_initial_facts", .int r.initialCount),
    ("num_goals", .int r.goalCount),
    ("parse_error", maybe r.parseError),
    ("planning_status", .string r.planningStatus),
    ("strict_mutexes", .bool r.strictMutexes),
    ("max_layers", .int r.maxLayers),
    ("layers", .array (r.layers.map LayerSize.json)),
    ("layers_built", .int r.layersBuilt),
    ("fixed_point_layer", .optional .int r.fixedPoint),
    ("extraction_attempts", .int r.attempts),
    ("no_goods", .int r.noGoods),
    ("plan", .optional .strings r.plan),
    ("plan_length", .int r.planLength),
    ("planning_error", maybe r.planningError),
    ("cross_check_status", .string r.crossCheckStatus),
    ("reference_plan", .optional .strings r.referencePlan),
    ("reference_plan_length", .optional (fun plan => .int plan.length) r.referencePlan),
    ("cross_check_error", maybe r.crossCheckError),
    ("log_dir", .string r.logDir),
    ("execution_time_seconds", .number (Decimal.shortest durationStyle r.seconds))]

/-- A line of one character. -/
def rule (c : Char) (width : Nat) : String := String.ofList (List.replicate width c)

/-- A title between two rules. -/
def heading (c : Char) (width : Nat) (title : String) : List String :=
  [rule c width, title, rule c width]

/-- An error on lines of its own, unless it is missing or empty. -/
def errorLines : Option String → List String
  | some e => if e = "" then [] else ["", s!"Error: {e}"]
  | none => []

/-- The part about the problem text. -/
def problemLines (r : RunRecord) : List String :=
  heading '-' 80 "PROBLEM" ++ [s!"Status: {Text.upper r.parseStatus}"] ++
    (if r.parseStatus = "success" then
      [s!"Action schemas: {r.schemaCount}", s!"Initial facts: {r.initialCount}",
        s!"Goals: {r.goalCount}"]
    else errorLines r.parseError) ++ [""]

/-- The numbered lines of a plan. -/
def planLines (plan : List String) : List String :=
  plan.zipIdx.map fun (action, i) => s!"  {i + 1}. {action}"

/-- The part about the planning graph. -/
def graphLines (r : RunRecord) : List String :=
  heading '-' 80 "PLANNING GRAPH" ++
    [s!"Status: {Text.upper r.planningStatus}",
      "Strict mutexes: " ++ (if r.strictMutexes then "True" else "False"),
      "Layer budget: " ++ (if r.maxLayers = 0 then "unlimited" else toString r.maxLayers)] ++
    (if r.layers.isEmpty then []
      else "" :: heading '~' 40 "LAYERS" ++ r.layers.map LayerSize.line) ++
    ["", s!"Layers built: {r.layersBuilt}",
      "Fixed point: " ++ (match r.fixedPoint with
        | some index => s!"layer #{index}"
        | none => "not reached"),
      s!"Extraction attempts: {r.attempts}", s!"No-goods: {r.noGoods}"] ++
    (match r.plan with
      | some plan => "" :: heading '~' 40 s!"PLAN ({r.planLength} actions)" ++ planLines plan
      | none => errorLines r.planningError) ++ [""]

/-- The part about the cross-check, if there was one. -/
def crossCheckLines (r : RunRecord) : List String :=
  if r.crossCheckStatus = "skipped" then []
  else
    heading '-' 80 "CROSS-CHECK (pyperplan)" ++ [s!"Status: {Text.upper r.crossCheckStatus}"] ++
      (match r.referencePlan with
        | some plan => [s!"Reference plan length: {plan.length}"]
        | none => []) ++
      (match r.crossCheckError with
        | some e => if e = "" then [] else [s!"Error: {e}"]
        | none => []) ++ [""]

/-- The record as a text for readers. -/
def report (r : RunRecord) : String :=
  let lines := heading '=' 80 "GRAPHPLAN EXECUTION RECORD" ++
    ["", s!"Timestamp: {r.timestamp}",
      s!"Execution Time: {Decimal.fixed 3 r.seconds} seconds",
      "Overall Status: " ++ (if r.success then "SUCCESS" else "FAILED"),
      s!"Problem: {r.problemFile}", ""] ++
    r.problemLines ++ r.graphLines ++ r.crossCheckLines ++ heading '=' 80 "END OF RECORD"
  String.join (lines.map (· ++ "\n"))

end RunRecord

end Strips
