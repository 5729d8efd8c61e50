import Strips.Proofs.Consistency

/-!
# Levels grow

From one level to the next facts and actions become more, and of those that were there before fewer
exclude each other. Facts persist because each of them can be kept, and their exclusions because
keeping two facts conflicts with nothing unless the facts exclude each other. The actions of a level
depend on the facts of the level before and, in strict mode, on the exclusions among these, so that
what is known of the facts carries over to the actions and from there to the next facts.

The order of fact layers is `FactLayer.Below`; here is the one of action layers.

## Main definitions

* `ActionLayer.Below` – steps persist, exclusions do not come back.

## Main results

* `ActionLayer.Over.below` – over a higher fact layer stands a higher action layer.
* `Graph.levels_grow` – consecutive levels are in order, whatever was expanded and searched.
-/

namespace Strips

namespace ActionLayer

/-- Steps persist, and exclusions among them do not come back. -/
structure Below (layer next : ActionLayer) : Prop where
  contains : ∀ s, layer.steps.contains s = true → next.steps.contains s = true
  isMutex : ∀ s t, layer.steps.contains s = true → layer.steps.contains t = true →
    next.isMutex s t = true → layer.isMutex s t = true

/-- **Over a higher fact layer stands a higher action layer.** -/
theorem Over.below {schemas : List Schema} {strict : Bool} {actions actions' : ActionLayer}
    {source source' : FactLayer} (h : actions.Over schemas strict source)
    (h' : actions'.Over schemas strict source') (hreg : ∀ s ∈ schemas, s.Regular)
    (hb : source.Below source') : actions.Below actions' :=
  ⟨fun _ => h.contains_mono h' hreg hb, fun _ _ => h.isMutex_mono h' hreg hb⟩

end ActionLayer

namespace Level

variable {schemas : List Schema} {strict : Bool} {newer older oldest : Level}

/-- The actions of a level that follows another one, which follows a third, are above those of the
second. -/
theorem Follows.actions_below (h : newer.Follows schemas strict older)
    (h' : older.Follows schemas strict oldest) (hreg : ∀ s ∈ schemas, s.Regular) :
    ∃ actions actions', older.actions = some actions ∧ newer.actions = some actions' ∧
      actions.Below actions' := by
  have hfacts := h'.below
  obtain ⟨actions', hactions', hover', -⟩ := h
  obtain ⟨actions, hactions, hover, -⟩ := h'
  exact ⟨actions, actions', hactions, hactions', hover.below hover' hreg hfacts⟩

end Level

namespace Graph

/-- **Levels grow.** After any number of expansions and searches, in either mode, each level is
below the next one: its facts persist, those of them that exclude each other later did so before,
and the same is true of its actions if it is not the initial one. -/
theorem levels_grow {text : String} {p : Problem} (hp : Problem.parse text = .ok p)
    {strict : Bool} {budget : Int} {g : Graph} (hg : p.graph strict budget = .ok g)
    (calls : List Call) {number : Nat} {level next : Level}
    (hlevel : (g.calls calls).level? number = some level)
    (hnext : (g.calls calls).level? (number + 1) = some next) :
    level.facts.Below next.facts ∧ (1 ≤ number → ∃ actions actions',
      level.actions = some actions ∧ next.actions = some actions' ∧ actions.Below actions') := by
  have hreg := Problem.regular_of_parse hp
  have h := (Problem.consistent_of_graph hreg hg).calls hreg calls
  generalize g.calls calls = g at h hlevel hnext
  obtain ⟨hderives, hsound⟩ := h.derives hlevel hnext
  have hfollows := hderives.follows hsound
  refine ⟨hfollows.below, fun hpos => ?_⟩
  obtain ⟨number, rfl⟩ := Nat.exists_eq_add_of_le' hpos
  -- the level before this one is there, since this one is
  obtain ⟨before, hbefore⟩ :=
    exists_level?_of_lt (Nat.lt_of_succ_lt (getElem?_of_level?_eq hlevel).1)
  obtain ⟨hderives', hsound'⟩ := h.derives hbefore hlevel
  exact hfollows.actions_below (hderives'.follows hsound') hreg

/-- Coins can be earned one by one, and each buys one of two things. -/
def coinsText : String :=
  "buy :: coin, item(X) => not coin, have(X). earn :: work => coin." ++
  "work. item(a). item(b). coin. goal have(a)."

/-- In strict mode the two things exclude each other after two steps and not after three, since the
first coin is spent for one of them and a second one has to be earned. -/
theorem levels_grow_coins : ∃ p g level next, Problem.parse coinsText = .ok p ∧
    p.graph true 0 = .ok g ∧ (g.calls [.expand, .expand, .expand]).level? 2 = some level ∧
    (g.calls [.expand, .expand, .expand]).level? 3 = some next ∧
    level.facts.isMutex ⟨"have", ["a"]⟩ ⟨"have", ["b"]⟩ = true ∧
    next.facts.isMutex ⟨"have", ["a"]⟩ ⟨"have", ["b"]⟩ = false ∧ 1 ≤ 2 ∧
    level.facts.Below next.facts ∧ ∃ actions actions', level.actions = some actions ∧
      next.actions = some actions' ∧ actions.Below actions' := by
  have hlevels : (Problem.graphAfter? coinsText true [.expand, .expand, .expand]).any (fun g =>
      (g.level? 2).any (·.facts.isMutex ⟨"have", ["a"]⟩ ⟨"have", ["b"]⟩) &&
        (g.level? 3).any (!·.facts.isMutex ⟨"have", ["a"]⟩ ⟨"have", ["b"]⟩)) = true := by
    decide +kernel
  obtain ⟨_, hafter, hlevels⟩ := (Option.any_eq_true _ _).1 hlevels
  obtain ⟨p, g, hp, hg, rfl⟩ := Problem.exists_of_graphAfter?_eq_some hafter
  obtain ⟨hlevel, hnext⟩ := Bool.and_eq_true_iff.1 hlevels
  obtain ⟨level, hlevel, hbefore⟩ := (Option.any_eq_true _ _).1 hlevel
  obtain ⟨next, hnext, hafter⟩ := (Option.any_eq_true _ _).1 hnext
  obtain ⟨hfacts, hactions⟩ := levels_grow hp hg _ hlevel hnext
  exact ⟨p, g, level, next, hp, hg, hlevel, hnext, hbefore, Bool.not_eq_true' _ ▸ hafter,
    by decide, hfacts, hactions (by decide)⟩

end Graph

end Strips
