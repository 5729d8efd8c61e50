import Strips.Graph.Cover

/-!
# The search for a plan

The search goes backwards through the levels of a planning graph. It covers the required facts of
the newest level by steps that lead to it, and then requires what these steps need at the level
before. A set of facts that cannot be reached at a level is kept there as a *no-good*, and a set
that contains one is not tried again.

## Main definitions

* `Stage` – what the search has to know about a level.
* `search` – the search, which returns the no-goods it has learnt beside the plan.
-/

namespace Strips

/-- A level as the search sees it. -/
structure Stage (φ α : Type) where
  /-- Whether the level holds all of the given facts, and no two of them exclude each other. -/
  supports : List φ → Bool
  /-- Whether two of the steps that lead to the level exclude each other. -/
  isMutex : α → α → Bool
  /-- The steps that add a fact. -/
  support : φ → List α

variable {φ α : Type} [BEq φ]

/-- Whether a set of facts contains a no-good. -/
def containsNoGood (noGoods : List (List φ)) (facts : List φ) : Bool :=
  noGoods.any fun noGood => noGood.all facts.contains

/-- The facts that the steps of a list need, each once. -/
def preconditionsOf (needs : α → List φ) (steps : List α) : List φ :=
  (steps.flatMap needs).eraseDups

/-- The no-goods of the levels, in step with them. -/
abbrev NoGoods (φ : Type) : Type := List (List (List φ))

/-- Find steps that make the required facts true at the newest of the levels, newest first. The
no-goods are those of the levels; they are returned with what the search has added. -/
def search [BEq α] (needs : α → List φ) :
    List (Stage φ α) → List φ → NoGoods φ → Option (List α) × NoGoods φ
  | [], _, noGoods => (none, noGoods)
  | [stage], required, noGoods => (if stage.supports required then some [] else none, noGoods)
  | stage :: earlier, required, noGoods =>
    if !stage.supports required || containsNoGood (noGoods.headD []) required then (none, noGoods)
    else
      let attempt := fun (chosen : List α) (older : NoGoods φ) =>
        match search needs earlier (preconditionsOf needs chosen) older with
        | (some before, older) => (some (before ++ chosen), older)
        | (none, older) => (none, older)
      match firstCover stage.isMutex stage.support attempt required noGoods.tail with
      | (some plan, older) => (some plan, noGoods.headD [] :: older)
      | (none, older) => (none, (noGoods.headD [] ++ [required.eraseDups]) :: older)

end Strips
