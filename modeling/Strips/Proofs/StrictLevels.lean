import Strips.Proofs.Consistency
import Strips.Proofs.Narrowing

/-!
# What strict mode leaves out

Over the same facts strict mode finds those of the steps whose preconditions do not exclude each
other, and it finds them in the same order: where a precondition is matched with a fact that
excludes one of those before it, nothing is found any more that has only allowed preconditions. What
is added by fewer steps are fewer facts, which stand in the same order too, and each of them is
supported by those of its steps that strict mode has. A level in strict mode is therefore narrower
than the one of the same number without it.

## Main definitions

* `Schema.matchings` – the ways to match preconditions with facts, together with these facts.
* `FactLayer.Within` – some of the facts of a layer, in the same order.

## Main results

* `Schema.Regular.instances_strict` – the instances that strict mode finds.
* `FactLayer.Within.steps_eq` – the steps of an action layer in strict mode.
* `FactLayer.Within.next`, `FactLayer.Within.narrows` – a level in strict mode has some of the facts
  and is narrower.
-/

namespace Strips

/-! ### Different steps, in order -/

section Choose

variable {α : Type} [BEq α] {q : α → Bool} (hq : ∀ {s t : α}, (s == t) = true → q s = q t)

include hq

theorem filter_choose (chosen : List α) (s : α) :
    (choose chosen s).filter q = if q s then choose (chosen.filter q) s else chosen.filter q := by
  rw [choose, choose]
  by_cases hs : q s = true
  · have hcontains : (chosen.filter q).contains s = chosen.contains s := by
      rw [Bool.eq_iff_iff, List.contains_iff_exists_mem_beq, List.contains_iff_exists_mem_beq]
      constructor
      · rintro ⟨t, ht, hst⟩
        exact ⟨t, (List.mem_filter.1 ht).1, hst⟩
      · rintro ⟨t, ht, hst⟩
        exact ⟨t, List.mem_filter.2 ⟨ht, (hq hst).symm.trans hs⟩, hst⟩
    rw [if_pos hs, hcontains]
    split
    · rfl
    · simp [hs]
  · rw [if_neg hs]
    split
    · rfl
    · simp [hs]

/-- A test that does not tell equal steps apart may be made before or after they are collected. -/
theorem filter_foldl_choose (xs chosen : List α) :
    (xs.foldl choose chosen).filter q = (xs.filter q).foldl choose (chosen.filter q) := by
  induction xs generalizing chosen with
  | nil => rfl
  | cons x xs ih =>
    rw [List.foldl_cons, ih, filter_choose hq, List.filter_cons]
    split <;> rfl

end Choose

theorem appendNew_eq (new : List Step) : ∀ steps : List Step,
    appendNew steps new = new.foldl choose steps := by
  induction new with
  | nil => exact fun _ => rfl
  | cons s new ih =>
    intro steps
    rw [appendNew, List.foldl_cons, choose]
    split <;> exact ih _

namespace Index

variable {κ α : Type} [BEq κ] [LawfulBEq κ] [BEq α] [EquivBEq α]

theorem lookup_fileUnder (ks : List κ) (k : κ) (x : α) : ∀ index : Index κ α,
    (index.fileUnder ks x).lookup k =
      if ks.contains k then choose (index.lookup k) x else index.lookup k := by
  induction ks with
  | nil => exact fun _ => rfl
  | cons key ks ih =>
    intro index
    have hfile : (index.file key x).lookup k =
        if key == k then choose (index.lookup k) x else index.lookup k := lookup_file ..
    have hagain : choose (choose (index.lookup k) x) x = choose (index.lookup k) x := by
      rw [choose, if_pos (contains_choose _ x)]
    have hkey : (k == key) = (key == k) := BEq.comm
    rw [fileUnder_cons, ih, hfile, List.contains_cons, hkey]
    cases key == k <;> cases ks.contains k <;> simp [hagain]

/-- What is filed under a key are the different items that have it, in order. -/
theorem lookup_fileAll (keysOf : α → List κ) (k : κ) (items : List α) : ∀ index : Index κ α,
    (fileAll keysOf items index).lookup k =
      (items.filter fun x => (keysOf x).contains k).foldl choose (index.lookup k) := by
  induction items with
  | nil => exact fun _ => rfl
  | cons x items ih =>
    intro index
    rw [fileAll_cons, ih, lookup_fileUnder, List.filter_cons]
    split <;> rfl

end Index

/-! ### Supported facts -/

namespace FactLayer.Sound

variable {layer : FactLayer} (h : layer.Sound)

include h

/-- Facts are supported together if any two of them are. -/
theorem supports_iff_pairs (facts : List Fact) : layer.supports facts = true ↔
    ∀ f ∈ facts, ∀ g ∈ facts, layer.supports [f, g] = true := by
  constructor
  · intro hs f hf g hg
    exact h.supports_mono (by simp [hf, hg]) hs
  · intro hpairs
    refine h.supports_iff.2 ⟨fun f hf => ?_, fun f hf g hg => ?_⟩
    · exact (h.supports_iff.1 (hpairs f hf f hf)).1 f List.mem_cons_self
    · exact (h.supports_iff.1 (hpairs f hf g hg)).2 f List.mem_cons_self g (by simp)

theorem supports_congr {facts others : List Fact} (hmem : ∀ f, f ∈ facts ↔ f ∈ others) :
    layer.supports facts = layer.supports others :=
  Bool.eq_iff_iff.2 ⟨h.supports_mono fun f hf => (hmem f).2 hf,
    h.supports_mono fun f hf => (hmem f).1 hf⟩

theorem supports_append {facts others : List Fact} (hs : layer.supports facts = true)
    (hs' : layer.supports others = true) : layer.supports (facts ++ others) = true ↔
      ∀ f ∈ facts, ∀ g ∈ others, layer.isMutex f g = false := by
  obtain ⟨hmem, hfree⟩ := h.supports_iff.1 hs
  obtain ⟨hmem', hfree'⟩ := h.supports_iff.1 hs'
  rw [h.supports_iff]
  constructor
  · rintro ⟨-, hall⟩ f hf g hg
    exact hall f (List.mem_append_left _ hf) g (List.mem_append_right _ hg)
  · intro hpairs
    refine ⟨fun f hf => (List.mem_append.1 hf).elim (hmem f) (hmem' f), fun f hf g hg => ?_⟩
    rcases List.mem_append.1 hf with hf | hf <;> rcases List.mem_append.1 hg with hg | hg
    · exact hfree f hf g hg
    · exact hpairs f hf g hg
    · rw [isMutex, h.tidy.symm f g]
      exact hpairs g hg f hf
    · exact hfree' f hf g hg

theorem supports_singleton (f : Fact) : layer.supports [f] = layer.facts.contains f := by
  rw [Bool.eq_iff_iff, h.supports_iff, List.contains_iff_mem]
  simp [h.isMutex_self]

/-- One more fact is supported with the others if it is there and excludes none of them. -/
theorem supports_snoc {facts : List Fact} (hs : layer.supports facts = true) (f : Fact) :
    layer.supports (facts ++ [f]) = (layer.facts.contains f && !facts.any (layer.isMutex f)) := by
  rw [Bool.eq_iff_iff, Bool.and_eq_true, Bool.not_eq_true', List.any_eq_false]
  constructor
  · intro hall
    obtain ⟨hmem, hfree⟩ := h.supports_iff.1 hall
    refine ⟨List.contains_iff_mem.2 (hmem f (by simp)), fun g hg => ?_⟩
    exact Bool.eq_false_iff.1 (hfree f (by simp) g (by simp [hg]))
  · rintro ⟨hmem, hfree⟩
    refine (h.supports_append hs (h.supports_singleton f ▸ hmem)).2 fun g hg f' hf' => ?_
    rw [List.mem_singleton.1 hf', isMutex, h.tidy.symm g f]
    exact Bool.eq_false_iff.2 (hfree g hg)

end FactLayer.Sound

/-! ### Instances -/

/-- The ways to match literals with facts of a layer, from left to right: the facts, and the arena
afterwards. -/
def Schema.matchings (layer : FactLayer) : List Literal → Arena → List (List Fact × Arena)
  | [], arena => [([], arena)]
  | l :: rest, arena =>
    (layer.named l.name).flatMap fun f =>
      ((Literal.unified? (l.unify arena f.literal)).map fun arena =>
        (matchings layer rest arena).map fun m => (f :: m.1, m.2)).getD []

/-- The facts of a layer are some of those of another one, in the same order. -/
def FactLayer.Within (layer other : FactLayer) : Prop :=
  layer.facts = other.facts.filter layer.facts.contains

namespace Schema

variable {layer source : FactLayer}

theorem assignments_false (ls : List Literal) : ∀ (chosen : List Fact) (arena : Arena),
    assignments layer false ls chosen arena = (matchings layer ls arena).map Prod.snd := by
  induction ls with
  | nil => exact fun _ _ => rfl
  | cons l rest ih =>
    intro chosen arena
    rw [Arena.assignments_cons, matchings, List.map_flatMap]
    refine List.flatMap_congr fun f _ => ?_
    cases Literal.unified? (l.unify arena f.literal) with
    | none => rfl
    | some arena => simp [ih]

/-- Strict mode keeps those of the ways that come to supported facts. -/
theorem assignments_true (hl : layer.Sound) (hwithin : layer.Within source) (ls : List Literal) :
    ∀ (chosen : List Fact) (arena : Arena), layer.supports chosen = true →
      assignments layer true ls chosen arena =
        ((matchings source ls arena).filter
          fun m => layer.supports (chosen ++ m.1)).map Prod.snd := by
  induction ls with
  | nil =>
    intro chosen arena hs
    rw [assignments, matchings, List.filter_cons, List.append_nil, if_pos hs]
    rfl
  | cons l rest ih =>
    intro chosen arena hs
    have hnamed : layer.named l.name =
        (source.named l.name).filter layer.facts.contains := by
      rw [FactLayer.named, hwithin, FactLayer.named, List.filter_comm, ← hwithin]
    rw [Arena.assignments_cons, matchings, hnamed, flatMap_filter, List.filter_flatMap,
      List.map_flatMap]
    refine List.flatMap_congr fun f _ => ?_
    have hchoose (found : List Arena) : (if layer.facts.contains f = true then
        if (true && chosen.any (layer.isMutex f)) = true then [] else found else []) =
          if layer.supports (chosen ++ [f]) = true then found else [] := by
      rw [hl.supports_snoc hs]
      cases layer.facts.contains f <;> cases chosen.any (layer.isMutex f) <;> rfl
    rw [hchoose]
    by_cases hf : layer.supports (chosen ++ [f]) = true
    · rw [if_pos hf]
      cases Literal.unified? (l.unify arena f.literal) with
      | none => rfl
      | some arena =>
        simp only [Option.map_some, Option.getD_some, ih _ _ hf, List.filter_map, List.map_map,
          Function.comp_def, List.append_assoc, List.singleton_append]
    · rw [if_neg hf]
      cases Literal.unified? (l.unify arena f.literal) with
      | none => rfl
      | some arena =>
        -- nothing that is matched with this fact is supported
        rw [eq_comm, List.map_eq_nil_iff, List.filter_eq_nil_iff]
        intro m hm hsupports
        obtain ⟨m', -, rfl⟩ := List.mem_map.1 hm
        refine hf (hl.supports_mono (fun g hg => ?_) hsupports)
        rcases List.mem_append.1 hg with hg | hg
        · exact List.mem_append_left _ hg
        · exact List.mem_append_right _ (List.mem_singleton.1 hg ▸ List.mem_cons_self)

end Schema

/-- What is found on the way makes the literals say the facts they are matched with. -/
theorem Arena.Loose.matchings_sound {a : Arena} (h : a.Loose) {layer : FactLayer} :
    ∀ {ls : List Literal}, (∀ l ∈ ls, a.Holds l.terms) → ∀ {ρ : Nat → Option String}
      {m : List Fact × Arena}, m ∈ Schema.matchings layer ls (a.withValues ρ) →
      ∃ ρ', m.2 = a.withValues ρ' ∧ a.Grows (layer.facts.flatMap Fact.arguments) ρ ρ' ∧
        List.Forall₂ (Literal.Says ρ') ls m.1
  | [], _, ρ, m, hm => by
    rw [Schema.matchings, List.mem_singleton] at hm
    exact ⟨ρ, hm ▸ rfl, .refl a _ ρ, hm ▸ .nil⟩
  | l :: rest, hls, ρ, m, hm => by
    obtain ⟨hl, hrest⟩ := List.forall_mem_cons.1 hls
    rw [Schema.matchings] at hm
    obtain ⟨f, hf, hm⟩ := List.mem_flatMap.1 hm
    rw [h.unify_withValues hl f ρ] at hm
    split at hm
    · rename_i hcond
      cases hmatch : a.matchTerms ρ l.terms f.arguments with
      | none =>
        rw [hmatch] at hm
        cases hm
      | some ρ₁ =>
        rw [hmatch] at hm
        obtain ⟨m', hm', rfl⟩ := List.mem_map.1 hm
        obtain ⟨hg, hterms⟩ := h.grows_matchTerms hcond.2 hmatch
        obtain ⟨ρ', heq, hg', hsaid⟩ := h.matchings_sound hrest hm'
        have hargs : ∀ v ∈ f.arguments, v ∈ layer.facts.flatMap Fact.arguments :=
          fun v hv => List.mem_flatMap.2 ⟨f, (List.mem_filter.1 hf).1, hv⟩
        exact ⟨ρ', heq, (hg.mono hargs).trans hg', .cons ⟨hcond.1, hg'.matches hterms⟩ hsaid⟩
    · cases hm

namespace Schema.Regular

variable {s : Schema} (h : s.Regular) {layer source : FactLayer}

include h

/-- Every way to match the preconditions gives a step, and it needs the facts they are matched
with. -/
theorem exists_step_of_mem_matchings {m : List Fact × Arena}
    (hm : m ∈ matchings source s.action.preconditions.members
      (s.arena.withValues s.arena.value?)) :
    ∃ t, s.action.step? m.2 = some t ∧ ∀ f, f ∈ t.preconditions ↔ f ∈ m.1 := by
  obtain ⟨ρ, heq, hg, hsaid⟩ :=
    h.loose.matchings_sound (fun l hl => h.holds_precondition hl) hm
  -- any substitution that agrees with the assignment will do
  have hρσ : Arena.Agrees ρ fun i => (ρ i).getD "" := fun i v hv => by simp [hv]
  obtain ⟨hunder, hpre⟩ := Literal.map_under_of_says hρσ hsaid
  have hbound := h.isSome_at_of_preconditions (hg.bindsConstants h.bindsConstants_value?)
    fun l hl t ht => (hpre l hl).isSome_at ht
  refine ⟨_, heq ▸ h.step?_withValues hρσ hbound, fun f => ?_⟩
  rw [← hunder, List.mem_map]
  exact LiteralSet.mem_under

/-- **The instances that strict mode finds** are those whose preconditions are supported, in the
same order. -/
theorem instances_strict (hl : layer.Sound) (hwithin : layer.Within source) :
    s.instances layer true =
      (s.instances source false).filter fun t => layer.supports t.preconditions := by
  have hnil : layer.supports [] = true := hl.supports_iff.2 ⟨by simp, by simp⟩
  rw [h.instances_eq, h.instances_eq, assignments_false, assignments_true hl hwithin _ _ _ hnil,
    List.filterMap_map, List.filterMap_map, List.filterMap_filter, List.filter_filterMap]
  refine List.filterMap_congr fun m hm => ?_
  obtain ⟨t, ht, hpre⟩ := h.exists_step_of_mem_matchings hm
  rw [List.nil_append, Function.comp_apply, ht, Option.filter_some, hl.supports_congr hpre]

end Schema.Regular

/-! ### Action layers -/

/-- The step that keeps a fact, if the fact is not named like the constraints. -/
def Step.keeping (f : Fact) : Step := ⟨noopName, true, f.arguments, [f], [], [f]⟩

theorem Step.keep_eq_keeping {f : Fact} (hf : f.name ≠ distinctName) :
    keep f = .ok (keeping f) := by
  rw [keep, if_neg hf]
  rfl

theorem mapM_keep {facts : List Fact} {noops : List Step}
    (hd : ∀ f ∈ facts, f.name ≠ distinctName) (h : facts.mapM Step.keep = .ok noops) :
    noops = facts.map Step.keeping := by
  have hkeep := forall₂_of_mapM_eq_ok h
  clear h
  induction hkeep with
  | nil => rfl
  | cons hk _ ih =>
    obtain ⟨hf, hrest⟩ := List.forall_mem_cons.1 hd
    rw [List.map_cons, ← ih hrest, Except.ok.inj ((Step.keep_eq_keeping hf).symm.trans hk)]

/-- The steps of an action layer, in order. -/
theorem FactLayer.steps_of_buildActions {source : FactLayer} {schemas : List Schema} {strict : Bool}
    {actions : ActionLayer} {effects : Index Fact Step}
    (hd : ∀ f ∈ source.facts, f.name ≠ distinctName)
    (h : source.buildActions schemas strict [] = .ok (actions, effects)) :
    actions.steps = source.facts.map Step.keeping ++
      (schemas.flatMap fun s => s.instances source strict).foldl choose [] := by
  rw [buildActions] at h
  split at h
  · cases h
  · rename_i noops hnoops
    split at h
    · cases h
    · obtain ⟨rfl, -⟩ := Prod.mk.inj (Except.ok.inj h)
      rw [ActionLayer.steps_findMutexes, mapM_keep hd hnoops, List.foldl_flatMap]
      simp only [appendNew_eq]

namespace FactLayer.Within

variable {layer source : FactLayer} (h : layer.Within source)

include h

theorem subset : ∀ f ∈ layer.facts, f ∈ source.facts := by
  intro f hf
  rw [h] at hf
  exact (List.mem_filter.1 hf).1

/-- **The steps of an action layer in strict mode** are those whose preconditions are supported, in
the same order. -/
theorem steps_eq (hl : layer.Sound) {schemas : List Schema} (hreg : ∀ s ∈ schemas, s.Regular)
    (hd : ∀ f ∈ source.facts, f.name ≠ distinctName) {actions actions' : ActionLayer}
    {effects effects' : Index Fact Step}
    (hstrict : layer.buildActions schemas true [] = .ok (actions, effects))
    (hloose : source.buildActions schemas false [] = .ok (actions', effects')) :
    actions.steps = actions'.steps.filter fun t => layer.supports t.preconditions := by
  have hsame : ∀ {s t : Step}, (s == t) = true →
      layer.supports s.preconditions = layer.supports t.preconditions := fun hst =>
    hl.supports_congr fun f => Step.mem_preconditions_of_beq hst
  have hnoops : layer.facts.map Step.keeping =
      (source.facts.map Step.keeping).filter fun t => layer.supports t.preconditions := by
    rw [List.filter_map]
    refine congrArg (List.map Step.keeping) (h.trans (List.filter_congr fun f _ => ?_))
    exact (hl.supports_singleton f).symm
  have hfound : (schemas.flatMap fun s => s.instances layer true) =
      (schemas.flatMap fun s => s.instances source false).filter
        fun t => layer.supports t.preconditions := by
    rw [List.filter_flatMap]
    exact List.flatMap_congr fun s hs => (hreg s hs).instances_strict hl h
  rw [steps_of_buildActions (fun f hf => hd f (h.subset f hf)) hstrict,
    steps_of_buildActions hd hloose, List.filter_append, filter_foldl_choose hsame, ← hnoops,
    ← hfound, List.filter_nil]

end FactLayer.Within

/-! ### Levels -/

theorem FactLayer.facts_ofList_of_nodup {facts : List Fact} (h : facts.Nodup) :
    (ofList facts).facts = facts := by
  have key : ∀ layer : FactLayer, (layer.facts ++ facts).Nodup →
      (facts.foldl insert layer).facts = layer.facts ++ facts := by
    clear h
    induction facts with
    | nil => exact fun layer _ => (List.append_nil _).symm
    | cons f rest ih =>
      intro layer hnodup
      have hf : layer.facts.contains f = false := by
        rw [Bool.eq_false_iff, Ne, List.contains_iff_mem]
        exact fun hf => List.disjoint_of_nodup_append hnodup hf List.mem_cons_self
      have hinsert : (layer.insert f).facts = layer.facts ++ [f] := by
        rw [insert, hf]
        rfl
      rw [List.foldl_cons, ih _ (by simpa [hinsert] using hnodup), hinsert, List.append_assoc]
      rfl
  exact key {} h

/-- The facts that are built are the keys of the index, in order. -/
theorem ActionLayer.facts_buildFacts (actions : ActionLayer) :
    (actions.buildFacts []).1.facts = Fact.sort (actions.buildFacts []).2.keys :=
  (actions.facts_factsOf _).trans <| FactLayer.facts_ofList_of_nodup <|
    (Fact.sort_perm _).nodup_iff.2 <| Index.nodup_keys_fileAll_empty _ _

namespace Level.Derives

variable {schemas : List Schema} {strict : Bool} {newer older : Level}

/-- The facts of a level that was built stand in order. -/
theorem pairwise_facts (h : newer.Derives schemas strict older) :
    newer.facts.facts.Pairwise fun f g => f.le g = true := by
  obtain ⟨actions, -, -, -, hfacts⟩ := h
  have hsorted := actions.facts_buildFacts
  rw [hfacts] at hsorted
  exact hsorted ▸ Fact.sort_pairwise _

/-- The actions of a level that was built; the steps that support a fact are the different ones that
add it, in order. -/
theorem exists_actions (h : newer.Derives schemas strict older) (hs : older.facts.Sound) :
    ∃ actions effects, older.facts.buildActions schemas strict [] = .ok (actions, effects) ∧
      newer.actions = some actions ∧ actions.Over schemas strict older.facts ∧
      newer.facts.After newer.support actions ∧ ∀ f, newer.support.lookup f =
        (actions.steps.filter fun s => s.added.contains f).foldl choose [] := by
  obtain ⟨_, heq, hover, hafter⟩ := h.follows hs
  obtain ⟨actions, effects, hbuild, hactions, hfacts⟩ := h
  obtain rfl := Option.some.inj (hactions.symm.trans heq)
  refine ⟨actions, effects, hbuild, hactions, hover, hafter, fun f => ?_⟩
  rw [← (Prod.mk.inj hfacts).2, actions.fileSupport_eq, Index.lookup_fileAll, Index.lookup_nil]

end Level.Derives

/-- Two steps of strict mode exclude each other if they do without it, or if what they need together
is not supported. -/
theorem ActionLayer.Over.isMutex_strict {schemas : List Schema} {layer source : FactLayer}
    (hl : layer.Sound) {actions actions' : ActionLayer} (h : actions.Over schemas true layer)
    (h' : actions'.Over schemas false source) {s t : Step} (hs : s ∈ actions.steps)
    (ht : t ∈ actions.steps) (hs' : s ∈ actions'.steps) (ht' : t ∈ actions'.steps)
    (hpre : layer.supports s.preconditions = true) (hpre' : layer.supports t.preconditions = true) :
    actions.isMutex s t = false ↔ actions'.isMutex s t = false ∧
      layer.supports (s.preconditions ++ t.preconditions) = true := by
  have hconflict : layer.Conflict true s t ↔ source.Conflict false s t ∨
      ∃ f ∈ s.preconditions, ∃ g ∈ t.preconditions, layer.isMutex f g = true := by
    simp [FactLayer.Conflict, or_assoc]
  rw [hl.supports_append hpre hpre', ← Bool.not_eq_true (actions.isMutex s t),
    ← Bool.not_eq_true (actions'.isMutex s t), h.isMutex_iff_of_mem hs ht,
    h'.isMutex_iff_of_mem hs' ht', hconflict]
  by_cases hst : (s == t) = true
  · -- what the same step needs is supported anyway
    have hfree := (hl.supports_iff.1 hpre).2
    simp only [hst, Bool.true_eq_false, false_and, not_false_eq_true, true_and, true_iff]
    exact fun f hf g hg => hfree f hf g ((Step.mem_preconditions_of_beq hst).2 hg)
  · simp only [Bool.eq_false_iff.2 hst, true_and, not_or, not_exists, not_and, Bool.not_eq_true]

section Within

variable {schemas : List Schema} (hreg : ∀ s ∈ schemas, s.Regular)
  {newer older newer' older' : Level} (h : older.facts.Within older'.facts)
  (hstrict : newer.Derives schemas true older) (hloose : newer'.Derives schemas false older')
  (hl : older.facts.Sound) (hl' : older'.facts.Sound)
  (hd : ∀ f ∈ older'.facts.facts, f.name ≠ distinctName)

include hreg h hstrict hloose hl hl' hd

/-- The facts that strict mode derives are some of those that are derived without it. -/
theorem FactLayer.Within.next : newer.facts.Within newer'.facts := by
  obtain ⟨actions, effects, hbuild, -, -, hafter, -⟩ := hstrict.exists_actions hl
  obtain ⟨actions', effects', hbuild', -, -, hafter', -⟩ := hloose.exists_actions hl'
  -- both stand in order, so it is enough that they are the same facts
  refine List.Perm.eq_of_pairwise (fun f g _ _ => Fact.le_antisymm) hstrict.pairwise_facts
    (hloose.pairwise_facts.filter _) ?_
  refine (List.perm_ext_iff_of_nodup hafter.sound.nodup (hafter'.sound.nodup.filter _)).2
    fun f => ?_
  rw [List.mem_filter, List.contains_iff_mem, iff_and_self]
  intro hf
  obtain ⟨s, hs, hfs⟩ := (hafter.mem_facts f).1 hf
  rw [h.steps_eq hl hreg hd hbuild hbuild'] at hs
  exact (hafter'.mem_facts f).2 ⟨s, (List.mem_filter.1 hs).1, hfs⟩

/-- **A level in strict mode is narrower.** -/
theorem FactLayer.Within.narrows :
    newer.stage.Narrows Step.preconditions older.facts.supports newer'.stage := by
  obtain ⟨actions, effects, hbuild, hactions, hover, hafter, hsupport⟩ := hstrict.exists_actions hl
  obtain ⟨actions', effects', hbuild', hactions', hover', -, hsupport'⟩ :=
    hloose.exists_actions hl'
  have hsteps := h.steps_eq hl hreg hd hbuild hbuild'
  have hmem : ∀ s ∈ actions.steps, s ∈ actions'.steps ∧
      older.facts.supports s.preconditions = true := fun s hs => by
    rw [hsteps] at hs
    exact List.mem_filter.1 hs
  refine ⟨hl.supports_iff_pairs, fun f => ?_, fun f s hs g t ht => ?_⟩
  · change newer.support.lookup f = (newer'.support.lookup f).filter _
    rw [hsupport, hsupport', hsteps, filter_foldl_choose fun hst =>
      hl.supports_congr fun f => Step.mem_preconditions_of_beq hst, List.filter_comm]
    rfl
  · have hs' := (hafter.mem_support f s hs).1
    have ht' := (hafter.mem_support g t ht).1
    simp only [Level.stage, Level.isMutex, hactions, hactions']
    exact hover.isMutex_strict hl hover' hs' ht' (hmem s hs').1 (hmem t ht').1 (hmem s hs').2
      (hmem t ht').2

end Within

end Strips
