import Strips.CommandLine
import Strips.Graph.Solve
import Strips.Pddl.Reference
import Strips.RunLog
import Strips.Settings

/-!
# Sessions

A session follows one command line: it reads a problem file, solves the problem, prints the plan and
keeps a log of the run. Options come before settings, and wrong settings end the session before
anything is read.

What a session decides is computed by functions without effects. `Session.run` is the order in which
their results are printed and logged, for the surroundings that a `Host` stands for.

## Main definitions

* `Preferences.of` – options and settings put together.
* `Verdict.of` – the comparison of a result with a reference plan.
* `Session.run` – the whole session.
-/

namespace Strips

/-! ### Preferences -/

/-- What a session goes by. -/
structure Preferences where
  verbose : Bool
  strictMutexes : Bool
  maxLayers : Nat
  /-- The directory of run logs; an option without a value leaves none. -/
  logDir : Option String
  deriving DecidableEq, Repr

/-- Why a session does not start. -/
inductive PreferencesError where
  /-- A setting is wrong. -/
  | settings
  /-- The number of expansions that the command line gives is negative. -/
  | negativeBudget (budget : Int)
  /-- The command line asks for a number of expansions, but gives none. -/
  | blankBudget
  deriving DecidableEq, Repr

/-- The lines printed about a session that does not start. -/
def PreferencesError.lines : PreferencesError → List String
  | settings =>
    let rule := String.ofList (List.replicate 80 '=')
    [rule, "ERROR: Invalid configuration", rule,
      "\nGRAPHPLAN_MAX_LAYERS must be a non-negative integer.", "\n" ++ rule]
  | negativeBudget budget => [s!"ERROR: --max-layers must be >= 0, got {budget}"]
  | blankBudget => []

namespace Preferences

/-- Put options and settings together. The settings are checked first, also where an option takes
the place of the wrong one. -/
def of (options : Options) (env : Environment) : Except PreferencesError Preferences :=
  match env.maxLayers with
  | .error _ => .error .settings
  | .ok setting =>
    if setting < 0 then .error .settings
    else match options.maxLayers.getD setting with
      | none => .error .blankBudget
      | some budget =>
        if budget < 0 then .error (.negativeBudget budget)
        else .ok {
          verbose := options.verbose || env.verbose
          strictMutexes := options.strictMutexes || env.strictMutexes
          maxLayers := budget.toNat
          logDir := options.logDir.getD env.logDir }

end Preferences

/-! ### Reading and solving -/

/-- Why there is no problem. -/
inductive ReadError where
  | file (cause : FileError)
  | grammar (cause : SyntaxError)
  deriving DecidableEq, Repr

namespace ReadError

/-- The message about a problem file. -/
def message : ReadError → String
  | file cause => cause.message
  | grammar cause => cause.message

/-- The line printed about a problem file. -/
def line : ReadError → String
  | e@(file _) => s!"ERROR: Input/output error: {e.message}"
  | e@(grammar _) => s!"ERROR: File format error: {e.message}"

end ReadError

/-- What breaks a session off before its end. -/
inductive Breakdown where
  /-- The log cannot be written. -/
  | log (cause : LogError)
  /-- The problem file is no text in UTF-8. -/
  | notText
  /-- The problem file cannot have this path. -/
  | path (cause : FileError)
  /-- The number of expansions was left blank. -/
  | blankBudget
  /-- The directory of run logs was left blank. -/
  | blankLogDir
  /-- An action layer cannot be built. -/
  | layer (cause : LayerError)
  deriving DecidableEq, Repr

/-- The message about a session that breaks off. -/
def Breakdown.message : Breakdown → String
  | log cause => cause.message
  | notText => "the problem file is no text in UTF-8"
  | path cause => cause.message
  | blankBudget => "'<' not supported between instances of 'list' and 'int'"
  | blankLogDir => "expected str, bytes or os.PathLike object, not list"
  | layer cause => cause.message

/-- The problem in the bytes of a file. A text that is no path, and a file that is no text, break
the session off. -/
def readSource (source : Except FileError ByteArray) :
    Except Breakdown (Except ReadError Problem) :=
  match source with
  | .error e => if e.fault = .nullCharacter then .error (.path e) else .ok (.error (.file e))
  | .ok bytes =>
    match Problem.ofBytes bytes with
    | .ok p => .ok (.ok p)
    | .error (.grammar e) => .ok (.error (.grammar e))
    | .error .notText => .error .notText

/-- A solved problem: what was found, what was reported on the way, and the graph. -/
structure Solution where
  round : Graph.Round
  report : List Progress
  graph : Graph
  deriving Repr

/-- Solve a problem. -/
def Problem.solve (p : Problem) (strict : Bool) (budget : Nat) : Solution :=
  match p.graph strict budget with
  | .error e => ⟨.failed e, [], {}⟩
  | .ok g =>
    let (round, report, g) := g.solve
    ⟨round, report, g⟩

/-- The size of a level, for the log. -/
def Level.size (level : Level) (index : Nat) : LayerSize :=
  ⟨index, level.actionCount, level.actionMutexCount, level.facts.facts.length,
    level.facts.mutexes.size⟩

/-- The sizes of all levels, the initial one first. -/
def Graph.sizes (g : Graph) : List LayerSize :=
  g.levels.reverse.zipIdx.map fun (level, index) => level.size index

/-- The result as an event. -/
def PlanResult.event (r : PlanResult) : Event :=
  .planned r.status.text (r.plan.map fun plan => plan.map Step.text) r.layersBuilt
    (r.fixedPoint.map Int.ofNat) r.attempts r.noGoods

/-- The lines printed about a result. -/
def PlanResult.lines (r : PlanResult) (budget : Nat) : List String :=
  match r.status with
  | .solved => (r.plan.getD []).map Step.text
  | .budgetExhausted => [s!"Layer budget of {budget} exhausted. Planning stopped."]
  | .unsolvable => ["Serial plan does not exist. Planning failed."]

/-- The line about the time that solving took, in seconds. -/
def elapsedLine (time : Binary64) : String :=
  s!"Solved in {Decimal.fixed 0 (time.scale 1000)} milliseconds."

/-! ### Cross-checks -/

/-- The outcome of a comparison with a reference plan. -/
inductive Verdict where
  /-- There is no reference for problems with inequality constraints. -/
  | unsupported
  /-- The reference search failed. -/
  | failed (error : String)
  /-- Whether the result agrees with the reference plan. -/
  | compared (agree : Bool) (reference : Option (List String))
  deriving DecidableEq, Repr

namespace Verdict

/-- Whether a result agrees with a shortest plan: both have a plan, and that of the result is not
the shorter one, or neither has. -/
def agrees (r : PlanResult) (reference : Option (List String)) : Bool :=
  match r.status, reference with
  | .solved, some shortest => shortest.length ≤ (r.plan.getD []).length
  | .solved, none => false
  | _, reference => reference.isNone

/-- Compare a result with the answer of a reference search. -/
def of (schemas : List Schema) (r : PlanResult)
    (reference : Except Pddl.ReferenceError (Option (List String))) : Verdict :=
  if !Pddl.supports schemas then .unsupported
  else match reference with
    | .error e => .failed e.message
    | .ok plan => .compared (agrees r plan) plan

/-- Whether nothing speaks against the result. -/
def isAgreement : Verdict → Bool
  | unsupported => true
  | failed _ => false
  | compared agree _ => agree

/-- The line printed about a comparison. -/
def line (v : Verdict) : String :=
  let mark := if v.isAgreement then "agree" else "DISAGREE"
  "[Cross-check] " ++ match v with
  | unsupported => "Skipped: pyperplan does not support distinct constraints"
  | failed error => s!"pyperplan failed: {error}"
  | compared _ none => s!"pyperplan: no plan ({mark})"
  | compared _ (some plan) => s!"pyperplan: {plan.length} actions ({mark})"

/-- The comparison as an event. -/
def event : Verdict → Event
  | unsupported => .crossChecked "unsupported" none none
  | failed error => .crossChecked "failed" none (some error)
  | compared agree plan => .crossChecked (if agree then "agree" else "disagree") plan none

end Verdict

/-! ### The session -/

/-- How a session ends. -/
inductive Ending where
  | planFound
  | noPlan
  | failure
  deriving DecidableEq, Repr

/-- The exit code of an ending. -/
def Ending.exitCode : Ending → Nat
  | planFound => 0
  | noPlan => 1
  | failure => 2

/-- The ending after a result. -/
def PlanStatus.ending : PlanStatus → Ending
  | solved => .planFound
  | unsolvable | budgetExhausted => .noPlan

namespace Session

variable {m : Type → Type} [Monad m] (host : Host m)

/-- A session in progress: its log, if it keeps one. -/
abbrev Running (m : Type → Type) : Type → Type := StateT (Option RunLog) (ExceptT Breakdown m)

/-- Do something with the log, if there is one. -/
def withLog {α : Type} (operation : RunLog → m (RunLog.Logged α)) : Running m (Option α) := do
  match (← get) with
  | none => return none
  | some log =>
    match (← (operation log : m (RunLog.Logged α))) with
    | (.ok answer, log) =>
      set (some log)
      return some answer
    | (.error e, _) => throw (.log e)

/-- Take note of an event. -/
def note (event : Event) : Running m Unit := do
  let _ ← withLog fun log => log.note host event

/-- Print lines. -/
def print (lines : List String) : Running m Unit :=
  lines.forM fun line => (host.print line : m Unit)

/-- Open the log and start the run. -/
def openLog (directory : Option String) (problemFile : String) : Running m Unit := do
  let some directory := directory | throw .blankLogDir
  match (← (RunLog.open host directory : m (Except LogError RunLog))) with
  | .error e => throw (.log e)
  | .ok log =>
    set (some log)
    let _ ← withLog fun log => log.start host problemFile

/-- End the session without a result. -/
def fail (line : String) (event : Event) : Running m Ending := do
  print host [line]
  note host event
  let _ ← withLog fun log => log.finish host false
  return .failure

/-- The operators of a plan, printed. -/
def callTexts (plan : Pddl.ReferencePlan) : List String :=
  plan.map fun (name, arguments) => callText name arguments

/-- Ask for a reference plan of a problem, by breadth-first search. Nothing is asked about a problem
that has inequality constraints or cannot be exported. -/
def askReference (p : Problem) :
    Running m (Except Pddl.ReferenceError (Option (List String))) := do
  match Pddl.referenceTask p.schemas p.initial p.goals with
  | .error e => return .error e
  | .ok task =>
    let answer ← (host.plan .bfs task : m (Except String (Option Pddl.ReferencePlan)))
    return (answer.map (·.map callTexts)).mapError .searchFailed

/-- Report a result and end the session. -/
def conclude (options : Options) (preferences : Preferences) (p : Problem) (graph : Graph)
    (r : PlanResult) (time : Binary64) : Running m Ending := do
  graph.sizes.forM fun size => note host (.layer size)
  note host r.event
  print host (elapsedLine time :: r.lines preferences.maxLayers)
  if options.crossCheck then
    let verdict := Verdict.of p.schemas r (← askReference host p)
    print host [verdict.line]
    note host verdict.event
  let saved ← withLog fun log => log.finish host (r.status == .solved)
  match saved with
  | some path =>
    if preferences.verbose then print host [s!"[Logger] Run saved to {path.parent.toString}"]
  | none => pure ()
  return r.status.ending

/-- Read the problem, solve it and report. -/
def work (options : Options) (preferences : Preferences) : Running m Ending := do
  let source ← (host.read options.problem : m (Except FileError ByteArray))
  match readSource source with
  | .error e => throw e
  | .ok (.error e) => fail host e.line (.parseFailed e.message)
  | .ok (.ok p) =>
    note host (.problemRead p.schemas.length p.initial.length p.goals.length)
    if preferences.verbose then print host [s!"[Problem] {p.summary}"]
    let _ ← (host.stopwatch : m Binary64)
    let solution := p.solve preferences.strictMutexes preferences.maxLayers
    if preferences.verbose then print host (solution.report.map Progress.message)
    match solution.round with
    | .done r =>
      let time ← (host.stopwatch : m Binary64)
      conclude host options preferences p solution.graph r time
    | .failed (.layer e) => throw (.layer e)
    | .failed e => fail host s!"ERROR: Planning failed: {e.message}" (.planningFailed e.message)
    | .again => return .failure

/-- The whole session. -/
def run (options : Options) (env : Environment) : m (Except Breakdown Ending) := do
  match Preferences.of options env with
  | .error .blankBudget => return .error .blankBudget
  | .error e =>
    e.lines.forM host.print
    return .ok .failure
  | .ok preferences =>
    let session : Running m Ending := do
      if !options.noLog then
        openLog host preferences.logDir options.problem
        note host (.settings preferences.strictMutexes preferences.maxLayers)
      work host options preferences
    return (← (session.run none).run).map Prod.fst

end Session

end Strips
