import Strips.Workbench.Actions

/-!
# Layers on a workbench

A layer holds literals or actions that may change after they were added. What is derived from a
layer – the next layer, the pairs that exclude each other – holds the same objects, and is read off
what they say at that moment.

## Main definitions

* `Bench.insertFact`, `Bench.insertAction`, `Bench.addMutex` – changes of a layer.
* `Bench.supports`, `Bench.isMutex`, `Bench.holds` – questions to a layer.
* `Bench.buildActions`, `Bench.findMutexes`, `Bench.buildFacts` – what is derived from a layer.
* `Bench.members`, `Bench.same` – what objects hold, and which of them are the same.
-/

namespace Strips

namespace Workbench

/-- Whether all goals are among those that a layer holds, and no two of them exclude each other. -/
def supports (b : Workbench) (held : List Saying) (mutexes : Exclusions) (goals : List Saying) :
    Bool :=
  goals.all held.contains &&
    !(pairsWithin goals).any fun (x, y) =>
      mutexes.contains b (.literal x.literal) (.literal y.literal)

/-- The pairs of actions that exclude each other because of one fact: those that delete it with
those that add it, and with those that need it. -/
def interferences (b : Workbench) (consumers : Index Saying Actor) (f : Filing) :
    List (Actor × Actor) :=
  let affected := b.actors f.actions
  let deleters := affected.filter (·.action.negative.contains b.arena f.literal)
  if deleters.isEmpty then []
  else
    let producers := affected.filter (·.action.positive.contains b.arena f.literal)
    let others := producers ++ consumers.lookup (b.saying f.literal)
    deleters.flatMap fun x => others.map fun y => (x, y)

/-- The pairs of actions that need facts that exclude each other. -/
def competitions (b : Workbench) (consumers : Index Saying Actor) (pair : Exclusion) :
    List (Actor × Actor) :=
  let needing := fun (x : Noted) =>
    match x.member with
    | .literal l => consumers.lookup (b.saying l)
    | .object _ => []
  match pair with
  | [] => []
  | [x] => (needing x).flatMap fun y => (needing x).map fun z => (y, z)
  | x :: y :: _ => (needing x).flatMap fun z => (needing y).map fun w => (z, w)

/-- The actions under what they need. -/
def consumers (b : Workbench) (actions : List Actor) : Index Saying Actor :=
  actions.foldl (fun index x => index.fileUnder (b.sayings x.action.preconditions) x) []

/-- Whether some action of one list does not exclude some action of another. -/
def compatible (b : Workbench) (mutexes : Exclusions) (xs ys : List Actor) : Bool :=
  xs.any fun x => ys.any fun y => !mutexes.containsActions b x y

end Workbench

namespace Bench

/-! ### Changes and questions -/

/-- The actions and the exclusions of an action layer. -/
def actionLayer (handle : Handle) : Bench (List Handle × Exclusions) := do
  match (← item handle) with
  | .actionLayer actions mutexes => return (actions, mutexes)
  | _ => throw .wrongKind

/-- Add a literal to a fact layer: whether it was new. -/
def insertFact (handle : Handle) (l : Literal) : Bench Bool := do
  let arena ← arena
  let (facts, mutexes) ← factLayer handle
  if !l.isGround arena then throw (.openFact (l.text arena))
  put handle (.factLayer (facts.insert arena l) mutexes)
  return !facts.contains arena l

/-- Add an action at the end of an action layer. -/
def insertAction (handle a : Handle) : Bench Unit := do
  let (actions, mutexes) ← actionLayer handle
  if !(← action a).isInstance then throw (.schemaInLayer (← action a).name)
  put handle (.actionLayer (actions ++ [a]) mutexes)

/-- A new fact layer with literals. -/
def factLayerOf (ls : List Literal) : Bench Handle := do
  let handle ← add (.factLayer {} {})
  ls.forM fun l => do let _ ← insertFact handle l
  return handle

/-- A new action layer with actions. -/
def actionLayerOf (actions : List Handle) : Bench Handle := do
  let handle ← add (.actionLayer [] {})
  actions.forM (insertAction handle)
  return handle

/-- Make two members of a layer exclude each other. Actions that are the same do not, but a fact may
exclude itself. -/
def addMutex (handle : Handle) (m n : Member) : Bench Unit := do
  let b ← get
  match (← item handle) with
  | .factLayer facts mutexes => put handle (.factLayer facts (mutexes.insert b m n))
  | .actionLayer actions mutexes =>
    if !b.same m n then put handle (.actionLayer actions (mutexes.insert b m n))
  | _ => throw .wrongKind

/-- Whether two members of a layer exclude each other. -/
def isMutex (handle : Handle) (m n : Member) : Bench Bool := do
  match (← item handle) with
  | .factLayer _ mutexes | .actionLayer _ mutexes => return mutexes.contains (← get) m n
  | _ => throw .wrongKind

/-- Whether a fact layer supports goals. -/
def supports (handle : Handle) (goals : List Literal) : Bench Bool := do
  let b ← get
  let (facts, mutexes) ← factLayer handle
  return b.supports (b.sayings facts) mutexes (goals.map b.saying)

/-- Whether an object holds a literal or an action. -/
def holds (handle : Handle) (m : Member) : Bench Bool := do
  let b ← get
  match (← item handle), m with
  | .set s, .literal l => return s.contains b.arena l
  | .factLayer s _, .literal l => return s.contains b.arena l
  | .file f, .literal l => return (b.filing? f.filings l).isSome
  | .actionList actions, .object _ | .actionLayer actions _, .object _ =>
    return actions.any fun h => b.same (.object h) m
  | _, _ => return false

/-! ### What is derived from a layer -/

/-- Find the pairs of an action layer that exclude each other, with the fact layer `source` also
those that need facts of it that do. `dependencies` files actions under what they delete or add;
without it the actions of the layer are filed. -/
def findMutexes (handle : Handle) (source dependencies : Option Handle) : Bench Unit := do
  let (actions, mutexes) ← actionLayer handle
  let into ← fileOr dependencies
  if dependencies.isNone then actions.forM fun h => register h into
  let b ← get
  let consumers := b.consumers (b.actors actions)
  let interfering := (← file into).filings.flatMap (b.interferences consumers)
  let competing ← match source with
    | some source => pure ((← factLayer source).2.pairs.flatMap (b.competitions consumers))
    | none => pure []
  put handle (.actionLayer actions
    ((interfering ++ competing).foldl (fun r (x, y) => r.insertActions b x y) mutexes))

/-- The action layer over a fact layer: an action that keeps it for each literal, then the instances
of the schemas. The actions are filed in `dependencies` under what they delete or add. -/
def buildActions (layer : Handle) (schemas : List Handle) (dependencies : Option Handle)
    (strict : Bool) : Bench Handle := do
  let into ← fileOr dependencies
  let noops ← (← factLayer layer).1.members.mapM fun l => do
    let h ← noop l
    register h into
    return h
  let found ← add (.file {})
  schemas.forM fun schema => do let _ ← find schema layer found (some into) strict
  let handle ← actionLayerOf (noops ++ (← file found).instances.map Prod.snd)
  findMutexes handle (if strict then some layer else none) (some into)
  return handle

/-- The fact layer that follows an action layer: what its actions add, in order, two literals
excluding each other when no two compatible actions support them. The actions are filed in `support`
under what they add. -/
def buildFacts (handle : Handle) (support : Option Handle) : Bench Handle := do
  let into ← fileOr support
  let (actions, mutexes) ← actionLayer handle
  actions.forM fun h => do fileIn into h (← action h).positive.members
  let b ← get
  let filings := (← file into).filings
  let facts := (filings.map Filing.literal).mergeSort fun l m => l.compare b.arena m != .gt
  let layer ← factLayerOf facts
  let supported ← facts.mapM fun l =>
    match b.filing? filings l with
    | some f => return (l, b.actors f.actions)
    | none => throw (.absent (l.text b.arena))
  (pairsWithin supported).forM fun ((l, xs), (m, ys)) => do
    if !b.compatible mutexes xs ys then addMutex layer (.literal l) (.literal m)
  return layer

/-! ### Objects as collections -/

/-- What an object holds, in order. -/
def members (handle : Handle) : Bench (List Member) := do
  match (← item handle) with
  | .actionList actions | .actionLayer actions _ => return actions.map .object
  | .set s => return s.items.map .literal
  | .factLayer s _ => return s.members.map .literal
  | .file f => return f.filings.map fun filing => .literal filing.literal
  | _ => throw .wrongKind

/-- Whether two fact layers have the same facts and the same exclusions. -/
def sameFactLayers (b : Workbench) (x y : LiteralSet × Exclusions) : Bool :=
  x.1.sameMembers b.arena y.1 && x.2.same b y.2

/-- Whether two fact layers have the same facts and the same exclusions now. -/
def sameFacts (x y : Handle) : Bench Bool := do
  return sameFactLayers (← get) (← factLayer x) (← factLayer y)

/-- Whether two literals, two actions or two objects are the same. Lists, files, fact layers and
relations are compared by what they hold. -/
def same (m n : Member) : Bench Bool := do
  let b ← get
  match m, n with
  | .object h, .object i =>
    match (← item h), (← item i) with
    | .actionList x, .actionList y => return b.actors x == b.actors y
    | .factLayer s r, .factLayer t q => return sameFactLayers b (s, r) (t, q)
    | .relation r, .relation q => return r.same q
    | .file f, .file g => return b.sameFile f g
    | _, _ => return b.same m n
  | _, _ => return b.same m n

/-! ### Reports -/

/-- The report on a fact layer. -/
def factReport (handle : Handle) : Bench LayerReport := do
  let b ← get
  let (facts, mutexes) ← factLayer handle
  return ⟨facts.members.map (·.text b.arena), mutexes.texts b⟩

/-- The report on an action layer. -/
def actionReport (handle : Handle) : Bench LayerReport := do
  let (actions, mutexes) ← actionLayer handle
  return ⟨← texts actions, mutexes.texts (← get)⟩

end Bench

end Strips
