import Strips.PairRelation
import Strips.Literal

/-!
# Fact layers

A fact layer holds the facts that may be true after a number of steps, and the pairs of facts that
cannot be true together.
-/

namespace Strips

/-- Facts with the pairs that exclude each other. -/
structure FactLayer where
  facts : List Fact := []
  mutexes : PairRelation Fact := {}
  deriving Repr

namespace FactLayer

/-- Add a fact at the end, unless it is there. -/
def insert (layer : FactLayer) (f : Fact) : FactLayer :=
  if layer.facts.contains f then layer else { layer with facts := layer.facts ++ [f] }

/-- The layer of the facts of a list, without mutexes. -/
def ofList (facts : List Fact) : FactLayer := facts.foldl insert {}

@[simp] theorem mem_insert {layer : FactLayer} {f g : Fact} :
    g ∈ (layer.insert f).facts ↔ g ∈ layer.facts ∨ g = f := by
  rw [insert]
  split
  · rename_i h
    exact ⟨.inl, fun hg => hg.elim id fun e => e ▸ List.contains_iff_mem.1 h⟩
  · rw [List.mem_append, List.mem_singleton]

@[simp] theorem mem_ofList {facts : List Fact} {f : Fact} :
    f ∈ (ofList facts).facts ↔ f ∈ facts := by
  have key : ∀ layer : FactLayer, f ∈ (facts.foldl insert layer).facts ↔
      f ∈ layer.facts ∨ f ∈ facts := by
    induction facts with
    | nil => intro layer; simp
    | cons g rest ih =>
      intro layer
      rw [List.foldl_cons, ih, mem_insert, List.mem_cons, or_assoc]
  rw [ofList, key]
  simp

/-- Make two facts exclude each other. -/
def addMutex (layer : FactLayer) (f g : Fact) : FactLayer :=
  { layer with mutexes := layer.mutexes.add f g }

/-- Whether two facts exclude each other. -/
def isMutex (layer : FactLayer) (f g : Fact) : Bool := layer.mutexes.contains f g

/-- Whether two facts of a list exclude each other; a fact may exclude itself. -/
def hasMutexPair (layer : FactLayer) (goals : List Fact) : Bool :=
  (pairsWithin goals).any fun p => layer.isMutex p.1 p.2

theorem hasMutexPair_iff {layer : FactLayer} (hs : layer.mutexes.IsSymm) {goals : List Fact} :
    layer.hasMutexPair goals = true ↔ ∃ f ∈ goals, ∃ g ∈ goals, layer.isMutex f g = true :=
  any_pairsWithin hs

/-- Whether all goals are in the layer and no two of them exclude each other. -/
def supports (layer : FactLayer) (goals : List Fact) : Bool :=
  goals.all layer.facts.contains && !layer.hasMutexPair goals

/-- The facts with a name. -/
def named (layer : FactLayer) (name : String) : List Fact := layer.facts.filter (·.name == name)

/-- Whether two layers have the same facts and the same mutexes. -/
def same (layer other : FactLayer) : Bool :=
  layer.facts.length == other.facts.length && other.facts.all layer.facts.contains &&
    layer.mutexes.same other.mutexes

/-- The message about a literal, printed, that a fact layer cannot hold. -/
def notGroundMessage (text : String) : String := s!"Fact layers only hold ground facts, got {text}"

end FactLayer

end Strips
