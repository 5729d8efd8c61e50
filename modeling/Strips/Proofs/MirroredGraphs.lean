import Strips.Proofs.Loading
import Strips.Proofs.MirroredLevels

/-!
# Graphs on a workbench

A graph object mirrors a graph if its schemas stand on the arena, its goals are facts, its levels
mirror the levels, and all else is the same. Each operation on a graph object does what the one on
the graph does: it has the same answer and leads to a graph that mirrors the new one, or both fail
for the same reason.

So the two ways to work with a graph, on a workbench or by itself, do not differ while literals stay
as they are: whatever is proved of planning graphs holds of graph objects that a problem was loaded
on.

## Main definitions

* `Workbench.HoldsGraph` – an object mirrors a graph.
* `GraphError.onBench` – a failure as it is told on a workbench.
* `Bench.Mirrors` – an operation does what one on the graph does.

## Main results

* `Bench.mirrors_start` – loading a problem.
* `Bench.mirrors_expand` – one expansion.
* `Bench.extract_cases` – one search.
-/

namespace Strips

/-! ### What is mirrored

A graph object lists its levels from the first one on, and a graph from the newest one on. All else
is the same in both, except that the schemas and the levels of the object are handles. -/

/-- A failure as it is told on a workbench. A fact that cannot be kept is refused there when the
action that keeps it is built. -/
def GraphError.onBench : GraphError → BenchError
  | .layer (.schema e) => .schema e
  | e => .graph e

/-- A graph as an object that has the given schemas and levels. -/
def Graph.item (g : Graph) (schemas levels : List Handle) : GraphItem where
  strict := g.strict
  budget := g.budget
  schemas := schemas
  goals := ⟨g.goals⟩
  levels := levels
  fixedPoint := g.fixedPoint
  goalsReachable := g.goalsReachable
  attempts := g.attempts

namespace Workbench

variable {b b' : Workbench}

/-- A schema stands where it stood as long as the arena is the same. -/
theorem Carries.of_arena {h : Handle} {s : Schema} (hs : b.Carries h s) (hb : b.KeepsActions b')
    (harena : b'.arena = b.arena) : b'.Carries h s := by
  obtain ⟨offset, hplaced, hitem⟩ := hs
  exact ⟨offset, harena ▸ hplaced, hb hitem⟩

/-- The objects of some schemas and levels mirror those of a graph whose goals are facts. -/
structure MirrorsGraph (b : Workbench) (schemas levels : List Handle) (g : Graph) : Prop where
  goals : ∃ goals : List Fact, g.goals = goals.map Fact.literal
  built : ∀ s ∈ g.schemas, s.Built
  carries : List.Forall₂ (fun s h => b.Carries h s) g.schemas schemas
  holds : List.Forall₂ b.HoldsLevel levels.reverse g.levels
  nodup : levels.Nodup
  sound : b.arena.Sound

/-- An object mirrors a graph. -/
def HoldsGraph (b : Workbench) (handle : Handle) (g : Graph) : Prop :=
  ∃ schemas levels, b.items[handle]? = some (.graph (g.item schemas levels)) ∧
    b.MirrorsGraph schemas levels g

/-- The object of a handle is shown as a step. -/
def Depicts (b : Workbench) (h : Handle) (t : Step) : Prop := b.IsStep .empty h t ∧ t.Unrepeated

/-- Other graphs do not matter. -/
theorem MirrorsGraph.mono {schemas levels : List Handle} {g : Graph}
    (h : b.MirrorsGraph schemas levels g) (hb : b.KeepsLevels b') (harena : b'.arena = b.arena) :
    b'.MirrorsGraph schemas levels g :=
  { h with
    carries := h.carries.imp fun _ _ hs => hs.of_arena hb.keepsLayers.keepsActions harena
    holds := h.holds.imp fun _ _ hlevel => hlevel.mono hb
    sound := harena ▸ h.sound }

/-- The object of a graph without levels has none. -/
theorem MirrorsGraph.handles_eq_nil {schemas levels : List Handle} {g : Graph}
    (h : b.MirrorsGraph schemas levels g) (hlevels : g.levels = []) : levels = [] := by
  have hnone := h.holds
  rw [hlevels, List.forall₂_nil_right_iff, List.reverse_eq_nil_iff] at hnone
  exact hnone

/-- The handles of levels are no other objects. -/
theorem MirrorsGraph.exists_level {schemas levels : List Handle} {g : Graph}
    (h : b.MirrorsGraph schemas levels g) {k : Handle} (hk : k ∈ levels.reverse) {it : Item}
    (hit : b.items[k]? = some it) : ∃ l, it = .level l := by
  obtain ⟨level, -, hlevel⟩ := exists_of_mem_left h.holds hk
  exact hlevel.exists_item it hit

/-- A graph object may be changed. -/
theorem keepsLevels_set {h : Handle} {item : GraphItem} (hitem : b.items[h]? = some (.graph item))
    (item' : GraphItem) :
    b.KeepsLevels { b with items := b.items.setIfInBounds h (.graph item') } :=
  (b.leaves_set h _).keepsLevels fun k hk it hit => by
    obtain rfl := List.mem_singleton.1 hk
    exact ⟨item, Option.some.inj (hit.symm.trans hitem)⟩

/-- **A new level** that stands behind the others mirrors one that stands before them. -/
theorem MirrorsGraph.extend {schemas levels : List Handle} {g : Graph}
    (h : b.MirrorsGraph schemas levels g) (hb : b.Leaves b' []) (hsound : b'.arena.Sound)
    (hcarries : List.Forall₂ (fun s h => b'.Carries h s) g.schemas schemas) {l : LevelItem}
    {level : Level} (hlevel : b'.MirrorsLevel l level) :
    MirrorsGraph { b' with items := b'.items.push (.level l) } schemas (levels ++ [b'.items.size])
      { g with levels := level :: g.levels } := by
  set b'' : Workbench := { b' with items := b'.items.push (.level l) }
  have hkeeps : b'.KeepsLevels b'' := .of_leaves (b'.leaves_push _)
  have hkeeps' : b.KeepsLevels b'' := .of_leaves (hb.trans (b'.leaves_push _))
  refine ⟨h.goals, h.built,
    hcarries.imp fun _ _ hs => hs.of_arena hkeeps.keepsLayers.keepsActions rfl, ?_, ?_, hsound⟩
  · rw [List.reverse_concat]
    exact .cons ⟨l, Array.getElem?_push_size, hlevel.mono hkeeps.keepsLayers⟩
      (h.holds.imp fun _ _ hk => hk.mono hkeeps')
  · -- the handles of the others were given before
    refine h.nodup.append (List.nodup_singleton _) fun k hk hk' => ?_
    obtain ⟨m, -, item, hm, -⟩ := exists_of_mem_left h.holds (List.mem_reverse.2 hk)
    obtain ⟨hlt, -⟩ := Array.getElem?_eq_some_iff.1 (hb hm List.not_mem_nil)
    exact Nat.ne_of_lt hlt (List.mem_singleton.1 hk')

end Workbench

namespace Bench

open Workbench (keepsLevels_set)

variable {α β γ : Type} {b b' : Workbench} {handle : Handle} {g : Graph}

/-- An operation has the answer that one on a graph has, and its object then mirrors the new graph;
or it fails for the same reason. -/
def Mirrors (m : Bench α) (b : Workbench) (handle : Handle) (answer : Except GraphError α)
    (g : Graph) : Prop :=
  match answer with
  | .ok x => ∃ b', Gives m b x b' ∧ b'.HoldsGraph handle g
  | .error e => Fails m b e.onBench

/-- What is done before only has to lead to where the operation starts. -/
theorem Gives.bind_mirrors {m : Bench α} {f : α → Bench β} {x : α} (h : Gives m b x b')
    {answer : Except GraphError β} (hf : Mirrors (f x) b' handle answer g) :
    Mirrors (m >>= f) b handle answer g := by
  cases answer with
  | ok y =>
    obtain ⟨b'', hf, hg⟩ := hf
    exact ⟨b'', h.bind hf, hg⟩
  | error e => exact h.bind_fails hf

/-! ### Questions

What is only asked leaves the workbench as it is. -/

theorem gives_graph {item : GraphItem} (h : b.items[handle]? = some (.graph item)) :
    Gives (graph handle) b item b :=
  (gives_item h).bind (gives_pure item)

theorem gives_levels {item : GraphItem} {k : Handle} {ks : List Handle}
    (h : item.levels.reverse = k :: ks) : Gives (levels item) b (k :: ks) b := by
  have hne : ¬ item.levels.isEmpty = true := by
    rw [List.isEmpty_iff, ← List.reverse_eq_nil_iff, h]
    exact List.cons_ne_nil k ks
  rw [levels, if_neg hne, h]
  exact gives_pure _

theorem fails_levels {item : GraphItem} (h : item.levels = []) :
    Fails (levels item) b (.graph .notLoaded) := by
  rw [levels, h]
  exact ⟨b, rfl⟩

/-- A layer supports the same goals as the one that it mirrors. -/
theorem gives_supports {layer : Handle} {facts : FactLayer} (h : b.HoldsFacts layer facts)
    (goals : List Fact) :
    Gives (supports layer (goals.map Fact.literal)) b (facts.supports goals) b := by
  obtain ⟨x, hitem, hx⟩ := h
  have hgoals : (goals.map Fact.literal).map b.saying = goals.map Fact.saying :=
    b.sayings_literals goals
  refine gives_get.bind ((gives_factLayer hitem).bind ?_)
  rw [← Workbench.supports_eq hx, ← hgoals]
  exact gives_pure _

/-- Two layers are compared as those that they mirror. -/
theorem gives_sameFacts {x y : Handle} {facts facts' : FactLayer} (hx : b.HoldsFacts x facts)
    (hy : b.HoldsFacts y facts') : Gives (sameFacts x y) b (facts.same facts') b := by
  obtain ⟨r, hr, hrsays⟩ := hx
  obtain ⟨q, hq, hqsays⟩ := hy
  rw [← Workbench.sameFactLayers_eq hrsays hqsays]
  exact gives_get.bind ((gives_factLayer hr).bind ((gives_factLayer hq).bind (gives_pure _)))

/-! ### Loading

Both check the schemas, then the goals, then the initial facts, and keep what was accepted before a
check fails. Facts are ground and schemas that were read are no instances, so no check fails here;
what remains is one object that is changed three times. -/

/-- Schemas that stand on the arena are no instances. -/
theorem gives_forM_isInstance {schemas : List Schema} {handles : List Handle}
    (hbuilt : ∀ s ∈ schemas, s.Built)
    (hcarries : List.Forall₂ (fun s h => b.Carries h s) schemas handles) (arena : Arena) :
    Gives (handles.forM fun h => do
      let a ← action h
      if a.isInstance then throw (.graph (.groundAction (a.text arena)))) b () b := by
  induction hcarries with
  | nil => exact gives_pure ()
  | @cons s h schemas handles hs _ ih =>
    obtain ⟨hfirst, hrest⟩ := List.forall_mem_cons.1 hbuilt
    obtain ⟨offset, -, hitem⟩ := hs
    have hinstance : (s.action.shift offset).isInstance = false := by
      rw [Action.isInstance, Action.shift, hfirst.regular.key]
      rfl
    refine gives_forM_cons ((gives_action hitem).bind ?_) (ih hrest)
    rw [hinstance]
    exact gives_pure ()

/-- **Loading a problem on a graph object** does what loading it on the graph does. -/
theorem mirrors_start {item : GraphItem} (hitem : b.items[handle]? = some (.graph item))
    (hstrict : item.strict = g.strict) (hbudget : item.budget = g.budget) (hsound : b.arena.Sound)
    {schemas : List Schema} {handles : List Handle} (hbuilt : ∀ s ∈ schemas, s.Built)
    (hcarries : List.Forall₂ (fun s h => b.Carries h s) schemas handles)
    (initial goals : List Fact) :
    let loaded := g.load schemas (initial.map Fact.literal) (goals.map Fact.literal)
    Mirrors (start handle handles (initial.map Fact.literal) (goals.map Fact.literal)) b handle
      loaded.1 loaded.2 := by
  have hnone := Schema.find?_isInstance fun s hs => (hbuilt s hs).regular
  simp only [Graph.load, hnone, Problem.ofList_literals, Problem.isGround_literals,
    factsOf?_literals, Bool.not_true, Bool.false_eq_true, if_false]
  obtain ⟨strict, budget, oldSchemas, oldGoals, levels, fixedPoint, reachable, attempts⟩ := item
  obtain rfl : strict = g.strict := hstrict
  obtain rfl : budget = g.budget := hbudget
  -- schemas and goals are accepted
  let item₁ : GraphItem :=
    ⟨g.strict, g.budget, handles, oldGoals, levels, fixedPoint, reachable, attempts⟩
  let item₂ : GraphItem := { item₁ with goals := ⟨(Problem.eachOnce goals).map Fact.literal⟩ }
  let b₁ : Workbench := { b with items := b.items.setIfInBounds handle (.graph item₁) }
  let b₂ : Workbench := { b₁ with items := b₁.items.setIfInBounds handle (.graph item₂) }
  have hitem₁ : b₁.items[handle]? = some (.graph item₁) := Workbench.getElem?_set_self hitem _
  have hkeeps₁ : b.KeepsLevels b₁ := keepsLevels_set hitem _
  have hkeeps₂ : b₁.KeepsLevels b₂ := keepsLevels_set hitem₁ _
  have hcarries₁ : List.Forall₂ (fun s h => b₁.Carries h s) schemas handles :=
    hcarries.imp fun _ _ hs => hs.of_arena hkeeps₁.keepsLayers.keepsActions rfl
  have hitem₂ : b₂.items[handle]? = some (.graph item₂) := Workbench.getElem?_set_self hitem₁ _
  -- the initial level is new
  obtain ⟨b₃, hfacts, harena₃, hleaves₃, hlayer⟩ :=
    gives_factLayerOf b₂ (Problem.eachOnce initial)
  let new : LevelItem := { facts := b₂.items.size, actions := none, support := b₃.items.size }
  let b₄ : Workbench := { b₃ with items := b₃.items.push (.file {}) }
  let b₅ : Workbench := { b₄ with items := b₄.items.push (.level new) }
  have hleaves₅ : b₃.Leaves b₅ [] := (b₃.leaves_push _).trans (b₄.leaves_push _)
  have hkeeps₅ : b₂.KeepsLevels b₅ := .of_leaves (hleaves₃.trans hleaves₅)
  have hitem₅ : b₅.items[handle]? = some (.graph item₂) :=
    (hleaves₃.trans hleaves₅) hitem₂ List.not_mem_nil
  let loaded : Graph :=
    { g with
      schemas
      goals := (Problem.eachOnce goals).map Fact.literal
      levels := [{ facts := .ofList (Problem.eachOnce initial) }]
      fixedPoint := none
      goalsReachable := false
      attempts := 0 }
  have hlevel : b₅.MirrorsLevel new { facts := .ofList (Problem.eachOnce initial) } := by
    refine ⟨⟨{}, hleaves₅ hlayer List.not_mem_nil, ?_⟩, .none, ⟨{}, ?_, .nil⟩, rfl,
      fun _ _ ht => absurd ht List.not_mem_nil⟩
    · rw [FactLayer.mutexes_ofList]
      exact .empty
    · exact (b₄.leaves_push _) Array.getElem?_push_size List.not_mem_nil
  have hloaded : b₅.MirrorsGraph handles [b₄.items.size] loaded := by
    refine ⟨⟨_, rfl⟩, hbuilt, hcarries₁.imp fun _ _ hs => ?_,
      .cons ⟨new, Array.getElem?_push_size, hlevel⟩ .nil, List.nodup_singleton _, ?_⟩
    · exact hs.of_arena (hkeeps₂.keepsLayers.trans hkeeps₅.keepsLayers).keepsActions harena₃
    · exact (harena₃ : b₅.arena = b.arena) ▸ hsound
  refine ⟨_, ?_, handles, [b₄.items.size], Workbench.getElem?_set_self hitem₅ _,
    hloaded.mono (keepsLevels_set hitem₅ _) rfl⟩
  refine gives_arena.bind ((gives_graph hitem).bind ((gives_put handle (.graph item₁)).bind
    ((gives_forM_isInstance hbuilt hcarries₁ b.arena).bind ?_)))
  rw [Problem.ofList_literals, Problem.ofList_literals]
  refine (gives_put handle (.graph item₂)).bind ?_
  simp only [Problem.isGround_literals, Bool.not_true, Bool.false_eq_true, if_false]
  have hlevelOf : Gives (levelOf b₂.items.size none none) b₃ b₄.items.size b₅ :=
    (gives_add (.file {})).bind (gives_add (.level new))
  exact hfacts.bind
    (hlevelOf.bind (gives_put handle (.graph (loaded.item handles [b₄.items.size]))))

/-! ### Expansion

The next level is built out of new objects only, so all that the graph object referred to before is
still there when it gets the level. Then the new facts are compared with those before them. -/

/-- **The next level.** Its objects are new; if a fact of the newest level cannot be kept, there is
none. -/
theorem nextLevel_cases {schemas levels : List Handle} (hg : b.MirrorsGraph schemas levels g)
    {l : LevelItem} {newest : Level} (hnewest : b.MirrorsLevel l newest) :
    let b₀ : Workbench := { b with items := b.items.push (.file {}) }
    (∃ e, g.nextLevel newest = .error (.schema e) ∧
      Fails (buildActions l.facts schemas none g.strict) b₀ (.schema e)) ∨
    ∃ level actions facts b₁ b₂, g.nextLevel newest = .ok level ∧
      Gives (buildActions l.facts schemas none g.strict) b₀ actions b₁ ∧
      Gives (buildFacts actions (some b.items.size)) b₁ facts b₂ ∧ b.Leaves b₂ [] ∧
      b₂.arena.Sound ∧ List.Forall₂ (fun s h => b₂.Carries h s) g.schemas schemas ∧
      b₂.MirrorsLevel { facts, actions := some actions, support := b.items.size } level := by
  intro b₀
  have hleaves₀ : b.Leaves b₀ [] := b.leaves_push _
  have hkeeps₀ : b.KeepsLevels b₀ := .of_leaves hleaves₀
  have hg₀ := hg.mono hkeeps₀ rfl
  rcases gives_buildActions_mirrored hg₀.sound (hnewest.facts.mono hkeeps₀.keepsLayers) hg.built
      hg₀.carries g.strict with
    ⟨e, hrefused, hfails⟩ | ⟨layer, effects, actions, b₁, hbuild, hactions, hholds, hsound₁,
      hschemas₁, hleaves₁⟩
  · refine .inl ⟨e, ?_, hfails⟩
    rw [Graph.nextLevel, hrefused]
    rfl
  · have hsupport : b₁.items[b.items.size]? = some (.file {}) :=
      hleaves₁ Array.getElem?_push_size List.not_mem_nil
    obtain ⟨facts, b₂, hfacts, harena₂, hleaves₂, hholds₂, hfacts₂, hindex₂⟩ :=
      gives_buildFacts_mirrored hholds hsupport
    have hkeeps₂ : b₁.KeepsActions b₂ := hleaves₂.keepsActions (by simp [hsupport])
    let level : Level :=
      { facts := (layer.buildFacts []).1
        actions := some layer
        support := (layer.buildFacts []).2 }
    have hnext : g.nextLevel newest = .ok level := by
      rw [Graph.nextLevel, hbuild]
      rfl
    refine .inr ⟨level, actions, facts, b₁, b₂, hnext, hactions, hfacts,
      (hleaves₀.trans hleaves₁).of_new hleaves₂, harena₂ ▸ hsound₁,
      hschemas₁.imp fun _ _ hs => hs.of_arena hkeeps₂ harena₂, hfacts₂, .some hholds₂, hindex₂, rfl,
      fun f t ht => ?_⟩
    -- what supports a fact is a step of the layer
    obtain ⟨x, -, hx⟩ := hnewest.facts
    refine (FactLayer.over_of_buildActions hx.tidy_relation hbuild).unrepeated t ?_
    have ht : t ∈ Index.lookup (layer.buildFacts []).2 f := ht
    rw [ActionLayer.buildFacts, ActionLayer.fileSupport_eq] at ht
    exact ((Index.mem_lookup_fileAll ht).resolve_left List.not_mem_nil).1

/-- What is found out about the newest level: the fixed point, and whether the goals are reachable
there. -/
theorem gives_assess {schemas levels : List Handle}
    (hitem : b.items[handle]? = some (.graph (g.item schemas levels)))
    (hg : b.MirrorsGraph schemas levels g) {facts : Handle} {layer : FactLayer}
    (hfacts : b.HoldsFacts facts layer) (fixedPoint : Option Nat) :
    ∃ b', Gives (assess handle facts fixedPoint) b (g.reaches layer || fixedPoint.isNone) b' ∧
      b'.HoldsGraph handle { g with fixedPoint, goalsReachable := g.reaches layer } := by
  let new : Graph := { g with fixedPoint, goalsReachable := g.reaches layer }
  let b₁ : Workbench :=
    { b with
      items := b.items.setIfInBounds handle (.graph { g.item schemas levels with fixedPoint }) }
  let b₂ : Workbench :=
    { b₁ with items := b₁.items.setIfInBounds handle (.graph (new.item schemas levels)) }
  have hitem₁ : b₁.items[handle]? = some (.graph { g.item schemas levels with fixedPoint }) :=
    Workbench.getElem?_set_self hitem _
  have hkeeps₁ : b.KeepsLevels b₁ := keepsLevels_set hitem _
  have hkeeps₂ : b₁.KeepsLevels b₂ := keepsLevels_set hitem₁ _
  obtain ⟨goals, hgoals⟩ := hg.goals
  have hreaches : g.reaches layer = layer.supports goals := by
    rw [Graph.reaches, Graph.goalFacts?, hgoals, factsOf?_literals]
  have hsupports : Gives (supports facts g.goals) b₁ (g.reaches layer) b₁ := by
    rw [hreaches, hgoals]
    exact gives_supports (hfacts.mono hkeeps₁.keepsLayers) goals
  refine ⟨b₂, (gives_graph hitem).bind ((gives_put _ _).bind (hsupports.bind
    ((gives_put _ _).bind (gives_pure _)))), schemas, levels,
    Workbench.getElem?_set_self hitem₁ _, ?_⟩
  exact { (hg.mono hkeeps₁ rfl).mono hkeeps₂ rfl with }

/-- **Expanding a graph object** does what expanding the graph does. -/
theorem mirrors_expand (h : b.HoldsGraph handle g) :
    Mirrors (expand handle) b handle g.expand.1 g.expand.2 := by
  obtain ⟨schemas, handles, hitem, hg⟩ := h
  cases hlevels : g.levels with
  | nil =>
    rw [Graph.expand, hlevels]
    exact (gives_graph hitem).bind_fails (fails_levels (hg.handles_eq_nil hlevels)).bind
  | cons newest rest =>
    obtain ⟨k, ks, ⟨l, hl, hnewest⟩, hrest, hhandles⟩ :=
      List.forall₂_cons_right_iff.1 (hlevels ▸ hg.holds)
    rcases nextLevel_cases hg hnewest with
      ⟨e, hnext, hfails⟩ |
      ⟨level, actions, facts, b₁, b₂, hnext, hactions, hfacts, hleaves₂, hsound, hschemas, hlevel⟩
    · rw [Graph.expand, hlevels]
      simp only [hnext]
      exact (gives_graph hitem).bind_fails ((gives_levels hhandles).bind_fails
        ((gives_level hl).bind_fails ((gives_add _).bind_fails hfails.bind)))
    · -- the graph object gets the new level
      let new : LevelItem := { facts, actions := some actions, support := b.items.size }
      let g₄ : Graph := { g with levels := level :: g.levels }
      let b₃ : Workbench := { b₂ with items := b₂.items.push (.level new) }
      let b₄ : Workbench :=
        { b₃ with
          items := b₃.items.setIfInBounds handle
            (.graph (g₄.item schemas (handles ++ [b₂.items.size]))) }
      have hleaves₃ : b.Leaves b₃ [] := hleaves₂.trans (b₂.leaves_push _)
      have hitem₃ := hleaves₃ hitem List.not_mem_nil
      have hitem₄ : b₄.items[handle]? =
          some (.graph (g₄.item schemas (handles ++ [b₂.items.size]))) :=
        Workbench.getElem?_set_self hitem₃ _
      have hkeeps₃ : b₂.KeepsLevels b₃ := .of_leaves (b₂.leaves_push _)
      have hkeeps₄ : b₃.KeepsLevels b₄ := keepsLevels_set hitem₃ _
      have hg₄ : b₄.MirrorsGraph schemas (handles ++ [b₂.items.size]) g₄ :=
        (hg.extend hleaves₂ hsound hschemas hlevel).mono hkeeps₄ rfl
      have holds₄ : b₄.HoldsFacts facts level.facts := hlevel.facts.mono
        (hkeeps₃.keepsLayers.trans hkeeps₄.keepsLayers)
      -- the new layer is compared with the one before
      have hnewest₄ : b₄.HoldsFacts l.facts newest.facts := hnewest.facts.mono
        ((Workbench.KeepsLevels.of_leaves hleaves₃).keepsLayers.trans hkeeps₄.keepsLayers)
      have hprefix : (expand handle).run.run b = _ :=
        (gives_graph hitem).run_bind.trans ((gives_levels hhandles).run_bind.trans
          ((gives_level hl).run_bind.trans ((gives_add _).run_bind.trans
            (hactions.run_bind.trans (hfacts.run_bind.trans
              (((gives_pure b.items.size).bind (gives_add _)).run_bind.trans
                ((gives_put _ _).run_bind.trans (gives_sameFacts hnewest₄ holds₄).run_bind)))))))
      have hlength : (g.item schemas handles).levels.length = g.levels.length :=
        List.length_reverse.symm.trans hg.holds.length_eq
      rw [Graph.expand, hlevels]
      simp only [hnext]
      rw [hlength, hlevels] at hprefix
      split
      · rename_i n hstable hfixed
        have hfixed' : (g.item schemas handles).fixedPoint = some n := hfixed
        rw [hstable, hfixed'] at hprefix
        exact ⟨b₄, hprefix⟩
      · rename_i hunstable
        obtain ⟨b', hassess, hlast⟩ := gives_assess hitem₄ hg₄ holds₄
          (g.fixedPoint.or
            (if newest.facts.same level.facts then some (newest :: rest).length else none))
        simp only [g₄, hlevels] at hassess hlast
        refine ⟨b', hprefix.trans (Eq.trans ?_ hassess), hlast⟩
        split
        · rename_i n hstable hfixed
          exact absurd hfixed (hunstable n hstable)
        · rfl

/-! ### Search

A search reads the levels into stages, which correspond, and the searches through corresponding
stages do as well. What was learnt is sets of facts, so the levels can be given the same sets. -/

/-- The searches through the levels correspond. -/
theorem search_mirrors {schemas handles : List Handle} (hg : b.MirrorsGraph schemas handles g)
    {goals : List Fact} (hgoals : g.goals = goals.map Fact.literal) :
    ∃ stages noGoods, Gives (handles.reverse.mapM stage) b stages b ∧
      Gives (handles.reverse.mapM fun h => do return (← level h).noGoods) b noGoods b ∧
      OutcomesMatch IsSaying b.Portrays
        (search b.needs stages (b.sayings (g.item schemas handles).goals)
          (noGoods.map (·.map b.sayings)))
        (search Step.preconditions (g.levels.map Level.stage) goals g.noGoods) := by
  obtain ⟨stages, hstages, hcorresponds⟩ := gives_mapM_of_forall₂
    (R := fun (seen : Stage Saying Actor) (l : Level) =>
      seen.Corresponds IsSaying b.Portrays l.stage)
    (hg.holds.imp fun _ _ hlevel => gives_stage hlevel)
  obtain ⟨noGoods, hnoGoods, hsets⟩ := gives_mapM_of_forall₂
    (f := fun h => do return (← level h).noGoods)
    (R := fun sets l => sets = l.noGoods.map fun facts => ⟨facts.map Fact.literal⟩)
    (hg.holds.imp fun _ _ ⟨l, hl, hlevel⟩ =>
      ⟨l.noGoods, (gives_level hl).bind (gives_pure _), hlevel.noGoods⟩)
  have hsayings : noGoods.map (·.map b.sayings) = g.noGoods.map (·.map (·.map Fact.saying)) := by
    rw [(forall₂_iff_eq_map fun _ _ => .rfl).1 hsets, Graph.noGoods, List.map_map, List.map_map]
    refine List.map_congr_left fun l _ => ?_
    rw [Function.comp_apply, List.map_map]
    exact List.map_congr_left fun facts _ => b.sayings_literals facts
  have hgoals' : b.sayings (g.item schemas handles).goals = goals.map Fact.saying := by
    rw [Graph.item, hgoals, b.sayings_literals goals]
  refine ⟨stages, noGoods, hstages, hnoGoods, ?_⟩
  exact search_corresponds matches_isSaying b.matches_portrays
    (fun _ _ => Workbench.needs_portrays) (List.forall₂_map_right_iff.2 hcorresponds)
    (forall₂_isSaying_iff.2 hgoals') (forall₂_noGoods_iff.2 hsayings)

/-- A search for goals that are reachable. -/
theorem gives_extract {schemas handles : List Handle}
    (hitem : b.items[handle]? = some (.graph (g.item schemas handles)))
    (hg : b.MirrorsGraph schemas handles g) (hne : g.levels ≠ [])
    (hreach : g.goalsReachable = true) :
    ∃ plan plan' b', g.extract.1 = .ok plan' ∧ Gives (extract handle) b plan b' ∧
      Option.Rel (List.Forall₂ b'.Depicts) plan plan' ∧
      b'.items[handle]? = some (.graph (g.extract.2.item schemas handles)) ∧
      b'.MirrorsGraph schemas handles g.extract.2 := by
  obtain ⟨newest, rest, hlevels⟩ := List.exists_cons_of_ne_nil hne
  obtain ⟨k, ks, -, -, hhandles⟩ := List.forall₂_cons_right_iff.1 (hlevels ▸ hg.holds)
  obtain ⟨goals, hgoals⟩ := hg.goals
  have hfacts : g.goalFacts? = some goals := by
    rw [Graph.goalFacts?, hgoals, factsOf?_literals]
  rw [Graph.extract_eq hne hreach hfacts]
  -- the attempt is counted
  let g₁ : Graph := { g with attempts := g.attempts + 1 }
  let b₁ : Workbench :=
    { b with items := b.items.setIfInBounds handle (.graph (g₁.item schemas handles)) }
  have hitem₁ : b₁.items[handle]? = some (.graph (g₁.item schemas handles)) :=
    Workbench.getElem?_set_self hitem _
  have hg₁ : b₁.MirrorsGraph schemas handles g := hg.mono (keepsLevels_set hitem _) rfl
  -- the levels are searched
  obtain ⟨stages, noGoods, hstages, hnoGoods, hsearch⟩ := search_mirrors hg₁ hgoals
  have hlength : (search Step.preconditions (g.levels.map Level.stage) goals g.noGoods).2.length =
      g.levels.length := (length_search (by simp [Graph.noGoods])).trans (List.length_map _)
  rcases hfound : search b₁.needs stages (b₁.sayings (g.item schemas handles).goals)
    (noGoods.map (·.map b₁.sayings)) with ⟨plan, learnt⟩
  rcases hfound' : search Step.preconditions (g.levels.map Level.stage) goals g.noGoods
    with ⟨plan', learnt'⟩
  rw [hfound, hfound'] at hsearch
  rw [hfound'] at hlength
  obtain ⟨hplan, rfl⟩ := hsearch.parts
  -- what was learnt is written back
  obtain ⟨b₂, hput, harena, hleaves, hlevels₂⟩ := gives_forM_putNoGoods
    (List.nodup_reverse.2 hg.nodup) hg₁.holds hlength
  have hkeeps : b₁.KeepsActions b₂ := hleaves.keepsActions fun _ hk _ hx => by
    obtain ⟨_, hl⟩ := hg₁.exists_level hk hx
    cases hl
  have hhandle : handle ∉ handles.reverse := fun hk => by
    obtain ⟨_, hl⟩ := hg₁.exists_level hk hitem₁
    cases hl
  refine ⟨plan.map (·.map Actor.handle), plan', b₂, rfl, ?_, ?_, hleaves hitem₁ hhandle, ?_⟩
  · have hreach' : ¬ (!(g.item schemas handles).goalsReachable) = true := by
      simp [Graph.item, hreach]
    refine (gives_graph hitem).bind ((gives_levels hhandles).bind ?_)
    rw [if_neg hreach']
    refine (gives_put _ _).bind ((hhandles ▸ hstages).bind ((hhandles ▸ hnoGoods).bind
      (gives_get.bind ?_)))
    rw [hfound]
    exact (hhandles ▸ hput).bind (gives_pure _)
  · cases hplan with
    | none => exact .none
    | some hplan => exact .some (List.forall₂_map_left_iff.2
        (hplan.imp fun _ _ hx => ⟨hx.1.isStep.mono hkeeps, hx.2⟩))
  · exact ⟨hg.goals, hg.built, hg₁.carries.imp fun _ _ hs => hs.of_arena hkeeps harena, hlevels₂,
      hg.nodup, harena ▸ hg.sound⟩

/-- **Searching a graph object** does what searching the graph does: both find no plan, or plans of
which one is shown as the other one. -/
theorem extract_cases {schemas handles : List Handle}
    (hitem : b.items[handle]? = some (.graph (g.item schemas handles)))
    (hg : b.MirrorsGraph schemas handles g) :
    (∃ e, g.extract.1 = .error e ∧ Fails (extract handle) b e.onBench) ∨
    ∃ plan plan' b', g.extract.1 = .ok plan' ∧ Gives (extract handle) b plan b' ∧
      Option.Rel (List.Forall₂ b'.Depicts) plan plan' ∧
      b'.items[handle]? = some (.graph (g.extract.2.item schemas handles)) ∧
      b'.MirrorsGraph schemas handles g.extract.2 := by
  cases hlevels : g.levels with
  | nil =>
    have hextract : g.extract = (.error .notLoaded, g) := by
      rw [Graph.extract, hlevels]
      rfl
    exact .inl ⟨_, congrArg Prod.fst hextract,
      (gives_graph hitem).bind_fails (fails_levels (hg.handles_eq_nil hlevels)).bind⟩
  | cons newest rest =>
    obtain ⟨k, ks, -, -, hhandles⟩ := List.forall₂_cons_right_iff.1 (hlevels ▸ hg.holds)
    have hne : g.levels ≠ [] := hlevels ▸ List.cons_ne_nil newest rest
    cases hreach : g.goalsReachable with
    | false =>
      have hextract : g.extract = (.ok none, g) := by
        rw [Graph.extract, if_neg (by simpa using hne), hreach]
        rfl
      have hitem' : (g.item schemas handles).goalsReachable = false := hreach
      refine .inr ⟨none, none, b, congrArg Prod.fst hextract, (gives_graph hitem).bind
        ((gives_levels hhandles).bind ?_), .none, hextract ▸ hitem, hextract ▸ hg⟩
      rw [hitem']
      exact gives_pure none
    | true => exact .inr (gives_extract hitem hg hne hreach)

end Bench

end Strips
