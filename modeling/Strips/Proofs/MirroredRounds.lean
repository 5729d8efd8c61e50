import Strips.Proofs.MirroredGraphs

/-!
# Solving on a workbench

A round on a graph object is put together from operations that do what those on a graph do, so it
ends as the round on the graph does, and rounds up to a decision come to the same decision. The
numbers of rounds after which both stop are the same too, since the schemas and the newest facts
can be read off the objects.

So a text that is loaded on a workbench is solved there as the problem is.

## Main definitions

* `Graph.Round.answer` – the end of a round as an answer.
* `Bench.graphOf` – a problem on a new graph object.

## Main results

* `Bench.gives_result` – the report on an outcome.
* `Bench.mirrors_round`, `Bench.mirrors_rounds` – one round, and any number of them.
* `Bench.mirrors_solve` – rounds up to a decision.
* `Bench.gives_graphOf`, `Bench.mirrors_solve_graphOf` – a problem that was loaded on a workbench,
  and the decision about it.
-/

namespace Strips

/-- The end of a round as an answer. -/
def Graph.Round.answer : Graph.Round → Except GraphError (Option PlanResult)
  | .done r => .ok (some r)
  | .again => .ok none
  | .failed e => .error e

namespace Bench

variable {b b' : Workbench} {handle : Handle} {g g' : Graph}

/-! ### The report on an outcome -/

/-- No-ops are left out of a plan. -/
theorem gives_withoutNoops {plan : List Handle} {steps : List Step}
    (h : List.Forall₂ b.Depicts plan steps) :
    ∃ left, Gives (withoutNoops plan) b left b ∧
      List.Forall₂ b.Depicts left (Strips.withoutNoops steps) := by
  -- what was kept before stands in front, in reverse
  have hloop : ∀ {kept : List Handle} {kept' : List Step}, List.Forall₂ b.Depicts kept kept' →
      ∃ left, Gives (List.filterAuxM (fun h => return !(← action h).noop) plan kept) b left b ∧
        List.Forall₂ b.Depicts left ((Strips.withoutNoops steps).reverse ++ kept') := by
    induction h with
    | nil => exact fun hkept => ⟨_, gives_pure _, hkept⟩
    | @cons k t plan steps ht _ ih =>
      intro kept kept' hkept
      obtain ⟨⟨x, hx, hmeans⟩, -⟩ := id ht
      cases hnoop : t.noop with
      | true =>
        obtain ⟨left, hgives, hleft⟩ := ih hkept
        refine ⟨left, ((gives_action hx).bind (gives_pure (!x.noop))).bind ?_, ?_⟩
        · rw [hmeans.noop, hnoop]
          exact hgives
        · rwa [Strips.withoutNoops, List.filter_cons, hnoop]
      | false =>
        obtain ⟨left, hgives, hleft⟩ := ih (.cons ht hkept)
        refine ⟨left, ((gives_action hx).bind (gives_pure (!x.noop))).bind ?_, ?_⟩
        · rw [hmeans.noop, hnoop]
          exact hgives
        · rw [Strips.withoutNoops, List.filter_cons, hnoop]
          simpa [Strips.withoutNoops] using hleft
  obtain ⟨left, hgives, hleft⟩ := hloop .nil
  refine ⟨left.reverse, hgives.bind (gives_pure _), ?_⟩
  rw [List.append_nil] at hleft
  rw [← List.reverse_reverse (Strips.withoutNoops steps)]
  exact List.rel_reverse hleft

/-- The steps of a plan are read off its objects. -/
theorem gives_shownSteps {plan : List Handle} {steps : List Step}
    (h : List.Forall₂ b.Depicts plan steps) :
    Gives (do return (← actions (← withoutNoops plan)).map (·.shownStep b.arena)) b
      (Strips.withoutNoops steps) b := by
  obtain ⟨left, hleft, hsteps⟩ := gives_withoutNoops h
  obtain ⟨found, hfound, hshown⟩ := gives_mapM_of_forall₂ (f := action)
    (R := fun (x : Action) (t : Step) => t = x.shownStep b.arena)
    (hsteps.imp fun _ _ ⟨⟨x, hx, hmeans⟩, ht⟩ =>
      ⟨x, gives_action hx, (hmeans.shownStep_eq ht b).symm⟩)
  rw [(forall₂_iff_eq_map fun _ _ => .rfl).1 hshown.flip]
  exact hleft.bind (hfound.bind (gives_pure _))

/-- **The report on an outcome** is the one on the graph, if the plan is shown as the plan there. -/
theorem gives_result (h : b.HoldsGraph handle g) (status : PlanStatus)
    {plan : Option (List Handle)} {plan' : Option (List Step)}
    (hplan : Option.Rel (List.Forall₂ b.Depicts) plan plan') :
    Gives (result handle status plan) b (g.result status plan') b := by
  obtain ⟨schemas, handles, hitem, hg⟩ := h
  have hsteps : Gives (plan.mapM fun l => do
      return (← actions (← withoutNoops l)).map (·.shownStep b.arena)) b
      (plan'.map Strips.withoutNoops) b := by
    cases hplan with
    | none => exact gives_pure none
    | some hplan => exact gives_map (gives_shownSteps hplan) some
  obtain ⟨counts, hcounts, hcount⟩ := gives_mapM_of_forall₂
    (f := fun h => do return (← level h).noGoods.length)
    (R := fun (n : Nat) (l : Level) => n = l.noGoods.length)
    ((List.forall₂_reverse_iff.2 hg.holds).imp fun _ _ ⟨l, hl, hlevel⟩ =>
      ⟨_, (gives_level hl).bind (gives_pure _), by rw [hlevel.noGoods, List.length_map]⟩)
  rw [List.reverse_reverse] at hcounts
  have hsum : counts.foldr (· + ·) 0 = g.noGoodCount := by
    rw [(forall₂_iff_eq_map fun _ _ => .rfl).1 hcount, List.map_reverse]
    exact List.sum_reverse _
  have hlayers : handles.length - 1 = g.layersBuilt := by
    rw [Graph.layersBuilt, ← hg.holds.length_eq, List.length_reverse]
  rw [Graph.result, ← hsum, ← hlayers]
  exact (gives_graph hitem).bind (gives_arena.bind (hsteps.bind (hcounts.bind (gives_pure _))))

/-- A search does not touch the fixed point, … -/
theorem fixedPoint_extract (g : Graph) : g.extract.2.fixedPoint = g.fixedPoint := by
  rw [Graph.extract]
  split
  · rfl
  · split
    · rfl
    · dsimp only
      split <;> rfl

/-- … and no level goes or comes. -/
theorem length_extract (g : Graph) : g.extract.2.levels.length = g.levels.length := by
  rw [Graph.extract]
  split
  · rfl
  · split
    · rfl
    · dsimp only
      split
      · rfl
      · rename_i goals _
        have hlength : (search Step.preconditions (g.levels.map Level.stage) goals
            g.noGoods).2.length = g.levels.length :=
          (length_search (by simp [Graph.noGoods])).trans (List.length_map _)
        exact List.length_zipWith.trans (Nat.min_eq_left hlength.ge)

/-- Corresponding lists correspond at every place. -/
theorem rel_getElem? {α β : Type} {R : α → β → Prop} {xs : List α} {ys : List β}
    (h : List.Forall₂ R xs ys) (n : Nat) : Option.Rel R xs[n]? ys[n]? := by
  induction h generalizing n with
  | nil => exact .none
  | cons hxy _ ih =>
    cases n with
    | zero => exact .some hxy
    | succ n => exact ih n

/-- The number of no-goods at the fixed point. -/
theorem gives_fixedPointNoGoods {schemas handles : List Handle}
    (hg : b.MirrorsGraph schemas handles g) {item : GraphItem}
    (hfixedPoint : item.fixedPoint = g.fixedPoint) (hhandles : item.levels = handles) :
    Gives (fixedPointNoGoods item) b g.fixedPointNoGoods b := by
  have hlevels : List.Forall₂ b.HoldsLevel handles g.levels.reverse := by
    rw [← List.forall₂_reverse_iff, List.reverse_reverse]
    exact hg.holds
  have hfixed : Option.Rel b.HoldsLevel (g.fixedPoint.bind (handles[·]?))
      (g.fixedPoint.bind g.level?) := by
    cases g.fixedPoint with
    | none => exact .none
    | some n => exact rel_getElem? hlevels n
  rw [fixedPointNoGoods, Graph.fixedPointNoGoods, hfixedPoint, hhandles]
  generalize g.fixedPoint.bind (handles[·]?) = place at hfixed ⊢
  generalize g.fixedPoint.bind g.level? = level? at hfixed ⊢
  cases hfixed with
  | none => exact gives_pure 0
  | some hlevel =>
    obtain ⟨l, hl, hmirrors⟩ := hlevel
    refine (gives_level hl).bind ?_
    rw [hmirrors.noGoods, List.length_map]
    exact gives_pure _

/-! ### Rounds

A round is one of a few operations in a row, so the two are compared step by step. Where they
fail, they fail together; where the round on the graph is decided, the one on the object makes the
same report; and where another one is needed, it answers nothing. -/

theorem mirrors_done (h : b.HoldsGraph handle g) (status : PlanStatus)
    {plan : Option (List Handle)} {plan' : Option (List Step)}
    (hplan : Option.Rel (List.Forall₂ b.Depicts) plan plan') :
    Mirrors (do return some (← result handle status plan)) b handle
      (Graph.Round.done (g.result status plan')).answer g :=
  ⟨b, (gives_result h status hplan).bind (gives_pure _), h⟩

theorem mirrors_again (h : b.HoldsGraph handle g) :
    Mirrors (Pure.pure none) b handle Graph.Round.again.answer g := ⟨b, gives_pure none, h⟩

/-- **A round on a graph object** ends as the one on the graph does. -/
theorem mirrors_round (h : b.HoldsGraph handle g) :
    Mirrors (round handle) b handle g.round.1.answer g.round.2.2 := by
  obtain ⟨schemas, handles, hitem, hg⟩ := id h
  have hlayers : (g.item schemas handles).levels.length - 1 = g.layersBuilt := by
    rw [Graph.layersBuilt, ← hg.holds.length_eq, List.length_reverse]
    rfl
  have hbudget : ((g.item schemas handles).budget ≠ 0 ∧ (g.item schemas handles).budget ≤
      (g.item schemas handles).levels.length - 1) ↔ g.budget ≠ 0 ∧ g.budget ≤ g.layersBuilt := by
    rw [hlayers]
    rfl
  rw [Graph.round]
  refine (gives_graph hitem).bind_mirrors ?_
  split
  · rename_i hout
    rw [if_pos (hbudget.1 hout)]
    exact mirrors_done h .budgetExhausted .none
  rename_i hout
  rw [if_neg fun hout' => hout (hbudget.2 hout')]
  -- both are expanded, or both cannot be
  have hexpand := mirrors_expand h
  generalize g.expand = expanded at hexpand ⊢
  obtain ⟨e | grew, g₁⟩ := expanded
  · exact Fails.bind hexpand
  obtain ⟨b₁, hgives₁, schemas₁, handles₁, hitem₁, hg₁⟩ := hexpand
  have h₁ : b₁.HoldsGraph handle g₁ := ⟨schemas₁, handles₁, hitem₁, hg₁⟩
  dsimp only at hitem₁ hg₁ h₁ ⊢
  refine hgives₁.bind_mirrors ?_
  cases grew with
  | false => exact mirrors_done h₁ .unsolvable .none
  | true =>
    refine (gives_graph hitem₁).bind_mirrors ?_
    have hreach : (g₁.item schemas₁ handles₁).goalsReachable = g₁.goalsReachable := rfl
    rw [hreach]
    cases g₁.goalsReachable with
    | false => exact mirrors_again h₁
    | true =>
      -- the no-goods are counted before the search and after it
      refine (gives_fixedPointNoGoods hg₁ rfl rfl).bind_mirrors ?_
      have hextract := extract_cases hitem₁ hg₁
      have hfixed := fixedPoint_extract g₁
      generalize g₁.extract = extracted at hextract hfixed ⊢
      obtain ⟨answer, g₂⟩ := extracted
      dsimp only at hextract hfixed
      rcases hextract with ⟨e, rfl, hfails⟩ |
        ⟨plan, plan', b₂, rfl, hgives₂, hplan, hitem₂, hg₂⟩
      · exact Fails.bind hfails
      · have h₂ : b₂.HoldsGraph handle g₂ := ⟨schemas₁, handles₁, hitem₂, hg₂⟩
        refine hgives₂.bind_mirrors ?_
        cases hplan with
        | some hplan => exact mirrors_done h₂ .solved (.some hplan)
        | none =>
          -- the object that was read before the search still tells the fixed point
          refine (gives_fixedPointNoGoods hg₂ hfixed.symm rfl).bind_mirrors ?_
          have hnone : (g₁.item schemas₁ handles₁).fixedPoint.isNone = g₂.fixedPoint.isNone :=
            congrArg Option.isNone hfixed.symm
          rw [hnone]
          dsimp only
          cases g₂.fixedPoint.isNone with
          | true => exact mirrors_again h₂
          | false =>
            by_cases hlearnt : g₂.fixedPointNoGoods = g₁.fixedPointNoGoods
            · simpa [hlearnt] using mirrors_done h₂ .unsolvable .none
            · simpa [hlearnt] using mirrors_again h₂

/-- **Any number of rounds** end as those on the graph do. -/
theorem mirrors_rounds {fuel : Nat} {g : Graph} {b : Workbench} (h : b.HoldsGraph handle g) :
    Mirrors (rounds handle fuel) b handle (g.rounds fuel).1.answer (g.rounds fuel).2.2 := by
  induction fuel generalizing g b with
  | zero => exact mirrors_again h
  | succ fuel ih =>
    have hround := mirrors_round h
    rw [rounds, Graph.rounds]
    generalize g.round = ended at hround ⊢
    obtain ⟨last, report, g'⟩ := ended
    cases last with
    | done r =>
      obtain ⟨b', hgives, hg'⟩ := hround
      exact ⟨b', hgives.bind (gives_pure _), hg'⟩
    | again =>
      obtain ⟨b', hgives, hg'⟩ := hround
      exact hgives.bind_mirrors (ih hg')
    | failed e => exact Fails.bind hround

/-! ### The number of rounds

Rounds are bounded by numbers that are computed from the schemas and the newest facts. On a
workbench they are computed from what the objects show, so the constants and the arities of literals
have to be the same where a schema stands. The names of cells are not, but nothing counts them. -/

/-- The constants of a literal can be read off where its schema stands. -/
theorem constantsOf_placed {s : Schema} {a : Arena} {offset : Nat} (hbuilt : s.Built)
    (hs : s.Placed a offset) {l : Literal} (hl : l ∈ s.action.literals) :
    Graph.constantsOf a (l.shift offset) = Graph.constantsOf s.arena l := by
  rw [Graph.constantsOf, Graph.constantsOf, Literal.shift, List.filterMap_map]
  refine List.filterMap_congr fun t ht => ?_
  rw [Function.comp_apply]
  cases t with
  | const v => rfl
  | cell i =>
    change (if a.isConstant (i + offset) = true then a.value? (i + offset) else none) =
      if s.arena.isConstant i = true then s.arena.value? i else none
    rw [hs.hosts.isConstant i (hbuilt.regular.holds l hl i ht)]
    exact if_ctx_congr Iff.rfl (hs.hosts.value? i) fun _ => rfl

/-- So the effects and the constants of schemas can. -/
theorem counts_of_placed {schemas seen : List Schema} {a : Arena}
    (hbuilt : ∀ s ∈ schemas, s.Built)
    (h : List.Forall₂ (fun x s => ∃ offset, s.Placed a offset ∧ x = ⟨s.action.shift offset, a⟩)
      seen schemas) :
    (seen.flatMap fun s => s.action.positive.members).map Literal.arity =
      (schemas.flatMap fun s => s.action.positive.members).map Literal.arity ∧
    (seen.flatMap fun s => (s.action.preconditions.members ++ s.action.positive.members).flatMap
        (Graph.constantsOf s.arena)) =
      schemas.flatMap fun s => (s.action.preconditions.members ++
        s.action.positive.members).flatMap (Graph.constantsOf s.arena) := by
  induction h with
  | nil => exact ⟨rfl, rfl⟩
  | @cons x s seen schemas hx _ ih =>
    obtain ⟨hs, hschemas⟩ := List.forall_mem_cons.1 hbuilt
    obtain ⟨harities, hconstants⟩ := ih hschemas
    obtain ⟨offset, hplaced, rfl⟩ := hx
    simp only [List.flatMap_cons, List.map_append, harities, hconstants]
    refine ⟨congrArg (· ++ _) ?_, congrArg (· ++ _) ?_⟩
    · exact (List.map_map ..).trans (List.map_congr_left fun l _ => List.length_map _)
    · have hliterals : ∀ l ∈ s.action.preconditions.members ++ s.action.positive.members,
          l ∈ s.action.literals := fun l hl =>
        Action.mem_literals.2 ((List.mem_append.1 hl).imp id .inr)
      simp only [Action.shift, ← List.map_append, List.flatMap_map]
      exact List.flatMap_congr fun l hl => constantsOf_placed hs hplaced (hliterals l hl)

/-- The graph that is read off the objects has the bounds of the graph. -/
theorem gives_shownGraph (h : b.HoldsGraph handle g) (hne : g.levels ≠ []) :
    ∃ shown : Graph, Gives (shownGraph handle) b shown b ∧ shown.growthBound = g.growthBound ∧
      shown.settlingBound = g.settlingBound := by
  obtain ⟨schemas, handles, hitem, hg⟩ := h
  obtain ⟨newest, rest, hlevels⟩ := List.exists_cons_of_ne_nil hne
  obtain ⟨k, ks, ⟨l, hl, hnewest⟩, -, hhandles⟩ :=
    List.forall₂_cons_right_iff.1 (hlevels ▸ hg.holds)
  obtain ⟨x, hx, -⟩ := hnewest.facts
  obtain ⟨seen, hseen, hplaced⟩ := gives_mapM_of_forall₂
    (f := fun h => do return (⟨← action h, b.arena⟩ : Schema))
    (R := fun x s => ∃ offset, s.Placed b.arena offset ∧ x = ⟨s.action.shift offset, b.arena⟩)
    (hg.carries.flip.imp fun _ _ ⟨offset, hplaced, haction⟩ =>
      ⟨_, (gives_action haction).bind (gives_pure _), offset, hplaced, rfl⟩)
  obtain ⟨harities, hconstants⟩ := counts_of_placed hg.built hplaced
  have hfacts :
      (newest.facts.facts.map Fact.literal).map (·.shown b.arena) = newest.facts.facts := by
    rw [List.map_map]
    exact List.map_id'' (fun f => f.shown_literal b.arena) newest.facts.facts
  let shown : Graph :=
    { schemas := seen, levels := [{ facts := { facts := newest.facts.facts } }] }
  have hassignments (n : Nat) (effects : List Literal) : effects.map (fun l => n.pow l.arity) =
      (effects.map Literal.arity).map n.pow := (List.map_map ..).symm
  have hbound : shown.factBound = g.factBound := by
    rw [Graph.factBound, Graph.factBound, hlevels]
    simp only [shown, hassignments, harities, hconstants]
    rfl
  refine ⟨shown, ?_, ?_, ?_⟩
  · refine (gives_graph hitem).bind (gives_arena.bind ((gives_levels hhandles).bind
      ((gives_level hl).bind ((gives_factLayer hx).bind ?_))))
    dsimp only
    rw [hfacts]
    exact hseen.bind (gives_pure _)
  · rw [Graph.growthBound, Graph.growthBound, hbound]
  · rw [Graph.settlingBound, Graph.settlingBound, hlevels]
    rfl

/-- A graph on which a round was to be followed by another has levels. -/
theorem levels_ne_nil_of_again (h : g.Again g') : g'.levels ≠ [] := by
  have hgrown {g' : Graph} (hexpand : g.expand = (.ok true, g')) : g'.levels ≠ [] := by
    obtain ⟨_, _, _, -, -, -, rfl, -⟩ := Graph.expand_eq_ok hexpand
    exact List.cons_ne_nil _ _
  cases h.roundEnds with
  | unreached hexpand _ => exact hgrown hexpand
  | @resumed g'' _ hexpand _ hextract _ =>
    have hlength := length_extract g''
    rw [hextract] at hlength
    intro hnil
    rw [hnil, List.length_nil, eq_comm, List.length_eq_zero_iff] at hlength
    exact hgrown hexpand hlength

/-- **Rounds up to a decision** come to the decision of the graph. -/
theorem mirrors_solve (h : b.HoldsGraph handle g) :
    Mirrors (solve handle) b handle g.solve.1.answer g.solve.2.2 := by
  by_cases hne : g.levels = []
  · obtain ⟨schemas, handles, hitem, hg⟩ := h
    have hsolve : g.solve = (.failed .notLoaded, [], g) := by
      rw [Graph.solve, if_pos (by simp [hne])]
    rw [hsolve]
    exact Fails.bind ((gives_graph hitem).bind_fails (gives_arena.bind_fails
      (fails_levels (hg.handles_eq_nil hne)).bind))
  obtain ⟨shown, hshown, hgrowth, -⟩ := gives_shownGraph h hne
  refine hshown.bind_mirrors ?_
  rw [hgrowth]
  have hrounds : Mirrors (rounds handle g.growthBound) b handle _ _ := mirrors_rounds h
  rcases Graph.solve_eq hne with ⟨hdecided, hlast, hgraph⟩ | ⟨g₁, hagain, rfl, hlast, hgraph⟩
  · rw [hlast, hgraph]
    generalize g.rounds g.growthBound = ended at hrounds hdecided ⊢
    obtain ⟨last, report, g'⟩ := ended
    cases last with
    | done r =>
      obtain ⟨b', hgives, hg'⟩ := hrounds
      exact ⟨b', hgives.bind (gives_pure _), hg'⟩
    | again => exact absurd rfl hdecided
    | failed e => exact Fails.bind hrounds
  · -- the rounds of the first bound come to no decision
    rw [hlast, hgraph]
    have hne₁ : (g.rounds g.growthBound).2.2.levels ≠ [] := by
      rcases (Graph.again_of_rounds hagain).cases_tail with hsame | ⟨before, -, hlast⟩
      · rw [hsame]
        exact hne
      · exact levels_ne_nil_of_again hlast
    rw [hagain] at hrounds
    obtain ⟨b₁, hgives₁, h₁⟩ := hrounds
    refine hgives₁.bind_mirrors ?_
    obtain ⟨shown₁, hshown₁, -, hsettling⟩ := gives_shownGraph h₁ hne₁
    refine hshown₁.bind_mirrors ?_
    rw [hsettling]
    exact mirrors_rounds h₁

/-! ### Problems

Nothing that was on the workbench before matters, but its arena has to be sound. -/

/-- A new graph object on which a problem is loaded. -/
def graphOf (p : Problem) (strict : Bool) (budget : Int) : Bench Handle := do
  let (schemas, initial, goals) ← load p
  let handle ← newGraph strict budget
  start handle schemas initial.members goals.members
  return handle

variable {text : String} {p : Problem} {strict : Bool} {budget : Int}

/-- **A problem that was loaded on a new graph object** is the graph of the problem. -/
theorem gives_graphOf (hp : Problem.parse text = .ok p) (hg : p.graph strict budget = .ok g)
    (hb : b.arena.Sound) :
    ∃ handle b', Gives (graphOf p strict budget) b handle b' ∧ b'.HoldsGraph handle g := by
  have hbuilt := Problem.built_of_parse hp
  obtain ⟨schemas, b₁, hload, hsound₁, hcarries₁, -⟩ := gives_load hbuilt hb
  -- the graph without the problem
  rw [Problem.graph] at hg
  split at hg
  · cases hg
  rename_i g₀ hcreate
  let b₂ : Workbench :=
    { b₁ with
      items := b₁.items.push (.graph { strict := g₀.strict, budget := g₀.budget }) }
  have hnew : Gives (newGraph strict budget) b₁ b₁.items.size b₂ := by
    rw [newGraph, hcreate]
    exact gives_add _
  have hkeeps : b₁.KeepsLevels b₂ := .of_leaves (b₁.leaves_push _)
  have hstart := mirrors_start (g := g₀) (b := b₂) Array.getElem?_push_size rfl rfl hsound₁ hbuilt
    (hcarries₁.imp fun _ _ hs => hs.of_arena hkeeps.keepsLayers.keepsActions rfl) p.initial p.goals
  rw [Problem.load] at hg
  generalize g₀.load p.schemas (p.initial.map Fact.literal) (p.goals.map Fact.literal) = loaded
    at hg hstart
  obtain ⟨e | _, g₁⟩ := loaded
  · cases hg
  obtain rfl : g₁ = g := Except.ok.inj hg
  obtain ⟨b₃, hstart, hlast⟩ := hstart
  exact ⟨b₁.items.size, b₃, hload.bind (hnew.bind (hstart.bind (gives_pure _))), hlast⟩

/-- A problem that is refused there is refused here. -/
theorem fails_graphOf (hp : Problem.parse text = .ok p) {e : GraphError}
    (he : p.graph strict budget = .error e) (hb : b.arena.Sound) :
    Fails (graphOf p strict budget) b (.graph e) := by
  have hbuilt := Problem.built_of_parse hp
  obtain ⟨schemas, b₁, hload, -, -, -⟩ := gives_load hbuilt hb
  rw [Problem.graph_eq fun s hs => (hbuilt s hs).regular] at he
  split at he
  · rename_i hneg
    obtain rfl := Except.error.inj he
    have hnew : Fails (newGraph strict budget) b₁ (.graph (.negativeBudget budget)) := by
      rw [newGraph, Graph.create, if_pos hneg]
      exact ⟨b₁, rfl⟩
    exact hload.bind_fails hnew.bind
  · cases he

/-- **Solving on a workbench** comes to the decision about the problem: the same status, plan and
numbers, or the same failure. -/
theorem mirrors_solve_graphOf (hp : Problem.parse text = .ok p)
    (hg : p.graph strict budget = .ok g) (hb : b.arena.Sound) :
    ∃ handle, Mirrors (do solve (← graphOf p strict budget)) b handle g.solve.1.answer
      g.solve.2.2 := by
  obtain ⟨handle, b', hgives, hholds⟩ := gives_graphOf hp hg hb
  exact ⟨handle, hgives.bind_mirrors (mirrors_solve hholds)⟩

end Bench

end Strips
