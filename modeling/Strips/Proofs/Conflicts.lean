import Strips.Proofs.Grounding
import Strips.Proofs.Pairs

/-!
# The action layer over a fact layer

An action layer holds, for each fact below it, the step that keeps the fact, and every instance of a
schema whose preconditions are met there. Two of its steps exclude each other exactly if they are
not the same and conflict: the indices by which the conflicts are found miss none of them.

Steps are compared with `==`, and everything that is said of a step here is also true of a step that
is the same.

## Main definitions

* `Step.Disturbs`, `FactLayer.Conflict` – when two steps cannot be taken together.
* `ActionLayer.Over` – what an action layer over a fact layer is.

## Main results

* `ActionLayer.isMutex_findMutexes` – which steps exclude each other.
* `FactLayer.over_of_buildActions` – the layer that is built is the one over the fact layer.
-/

namespace Strips

/-! ### Steps that are the same -/

namespace Step

variable {s s' t t' : Step} {f : Fact}

theorem mem_preconditions_of_beq (h : (s == t) = true) :
    f ∈ s.preconditions ↔ f ∈ t.preconditions :=
  (beq_iff.1 h).2.2.2.1 f

theorem mem_deleted_of_beq (h : (s == t) = true) : f ∈ s.deleted ↔ f ∈ t.deleted :=
  (beq_iff.1 h).2.2.2.2.1 f

theorem mem_added_of_beq (h : (s == t) = true) : f ∈ s.added ↔ f ∈ t.added :=
  (beq_iff.1 h).2.2.2.2.2 f

/-- A step disturbs another one if it deletes a fact that the other one adds or needs. -/
def Disturbs (s t : Step) : Prop := ∃ f ∈ s.deleted, f ∈ t.added ∨ f ∈ t.preconditions

theorem Disturbs.congr (h : s.Disturbs t) (hs : (s == s') = true) (ht : (t == t') = true) :
    s'.Disturbs t' := by
  obtain ⟨f, hf, hft⟩ := h
  exact ⟨f, (mem_deleted_of_beq hs).1 hf,
    hft.imp (mem_added_of_beq ht).1 (mem_preconditions_of_beq ht).1⟩

/-- What the step that keeps a fact is. -/
theorem keep_eq_ok (h : keep f = .ok t) :
    t.noop = true ∧ t.deleted = [] ∧ t.added = [f] ∧ (∀ g ∈ t.preconditions, g = f) ∧
      (f.name ≠ distinctName → t.preconditions = [f]) := by
  rw [keep] at h
  split at h
  · rename_i hname
    split at h
    · cases h
      exact ⟨rfl, rfl, rfl, fun g hg => absurd hg List.not_mem_nil, fun hne => absurd hname hne⟩
    · cases h
  · cases h
    exact ⟨rfl, rfl, rfl, fun g hg => List.mem_singleton.1 hg, fun _ => rfl⟩

/-- A step that keeps a fact disturbs no other. -/
theorem not_disturbs_of_keep (h : keep f = .ok s) : ¬ s.Disturbs t := by
  rintro ⟨g, hg, -⟩
  rw [(keep_eq_ok h).2.1] at hg
  cases hg

/-- Only a step that deletes the fact disturbs the step that keeps it. -/
theorem mem_deleted_of_disturbs_keep (h : keep f = .ok t) (hst : s.Disturbs t) : f ∈ s.deleted := by
  obtain ⟨g, hg, hgt⟩ := hst
  obtain ⟨-, -, hadd, hpre, -⟩ := keep_eq_ok h
  obtain rfl : g = f := hgt.elim (fun hg => List.mem_singleton.1 (hadd ▸ hg)) (hpre g)
  exact hg

/-- A fact that cannot be kept is named like the constraints and has not two arguments. -/
theorem keep_eq_error {e : SchemaError} (h : keep f = .error e) :
    f.name = distinctName ∧ ∃ arity, arity ≠ 2 ∧ e = .distinctArity noopName arity := by
  rw [keep] at h
  split at h
  · rename_i hname
    split at h
    · cases h
    · rename_i harity
      cases h
      exact ⟨hname, _, harity, rfl⟩
  · cases h

end Step

/-- Two steps conflict if one disturbs the other, or if in strict mode they need facts that exclude
each other. -/
def FactLayer.Conflict (layer : FactLayer) (strict : Bool) (s t : Step) : Prop :=
  s.Disturbs t ∨ t.Disturbs s ∨
    strict = true ∧ ∃ f ∈ s.preconditions, ∃ g ∈ t.preconditions, layer.isMutex f g = true

/-- Pairs of facts that are, in one order or the other, those that exclude each other; there are
none if not in strict mode. -/
def FactLayer.NeededPairs (layer : FactLayer) (strict : Bool) (needed : List (Fact × Fact)) :
    Prop :=
  ∀ f g, (f, g) ∈ needed ∨ (g, f) ∈ needed ↔ strict = true ∧ layer.isMutex f g = true

namespace FactLayer.Conflict

variable {layer : FactLayer} {strict : Bool} {s s' t t' : Step}

theorem congr (h : layer.Conflict strict s t) (hs : (s == s') = true) (ht : (t == t') = true) :
    layer.Conflict strict s' t' := by
  rcases h with h | h | ⟨hstrict, f, hf, g, hg, hfg⟩
  · exact .inl (h.congr hs ht)
  · exact .inr (.inl (h.congr ht hs))
  · exact .inr (.inr ⟨hstrict, f, (Step.mem_preconditions_of_beq hs).1 hf, g,
      (Step.mem_preconditions_of_beq ht).1 hg, hfg⟩)

theorem symm (h : layer.Conflict strict s t) (hl : layer.mutexes.IsSymm) :
    layer.Conflict strict t s := by
  rcases h with h | h | ⟨hstrict, f, hf, g, hg, hfg⟩
  · exact .inr (.inl h)
  · exact .inl h
  · exact .inr (.inr ⟨hstrict, g, hg, f, hf, (hl g f).trans hfg⟩)

end FactLayer.Conflict

/-! ### The pairs that are found -/

namespace ActionLayer

/-- The pairs of a step of one list with one of another that is not the same. -/
def across (ss ts : List Step) : List (Step × Step) :=
  ss.flatMap fun s => (ts.filter fun t => !(s == t)).map fun t => (s, t)

theorem mem_across {ss ts : List Step} {s t : Step} :
    (s, t) ∈ across ss ts ↔ s ∈ ss ∧ t ∈ ts ∧ (s == t) = false := by
  simp [across]

/-- The layer with more pairs that exclude each other. -/
def withPairs (layer : ActionLayer) (pairs : List (Step × Step)) : ActionLayer :=
  { layer with mutexes := layer.mutexes.addAll pairs }

theorem withPairs_append (layer : ActionLayer) (ps qs : List (Step × Step)) :
    layer.withPairs (ps ++ qs) = (layer.withPairs ps).withPairs qs := by
  rw [withPairs, PairRelation.addAll_append]
  rfl

/-- Adding pairs for one thing after the other is adding all of them. -/
theorem foldl_withPairs {β : Type} (pairsOf : β → List (Step × Step)) {xs : List β} :
    ∀ {layer : ActionLayer},
      xs.foldl (fun layer x => layer.withPairs (pairsOf x)) layer =
        layer.withPairs (xs.flatMap pairsOf) := by
  induction xs with
  | nil => intro layer; rfl
  | cons x xs ih =>
    intro layer
    rw [List.foldl_cons, ih, List.flatMap_cons, withPairs_append]

theorem addMutexes_eq (layer : ActionLayer) (ss ts : List Step) :
    layer.addMutexes ss ts = layer.withPairs (across ss ts) := by
  have hone : ∀ (s t : Step), (fun layer : ActionLayer => layer.addMutex s t) =
      fun layer => layer.withPairs (if (s == t) = true then [] else [(s, t)]) := by
    intro s t
    funext layer
    rw [addMutex]
    split <;> rfl
  have hrow : ∀ s, (ts.flatMap fun t => if (s == t) = true then [] else [(s, t)]) =
      (ts.filter fun t => !(s == t)).map fun t => (s, t) := by
    intro s
    induction ts with
    | nil => rfl
    | cons t ts ih =>
      rw [List.flatMap_cons, ih]
      cases hst : s == t <;> simp [hst]
  rw [addMutexes, across]
  simp only [congrFun (hone _ _), foldl_withPairs, hrow]

/-- The pairs that are found: what deletes a fact with what adds or needs it, and what needs one
fact with what needs another, for the given pairs of facts. -/
def foundPairs (consumers effects : Index Fact Step) (needed : List (Fact × Fact)) :
    List (Step × Step) :=
  (effects.flatMap fun row =>
    across (row.2.filter (·.deleted.contains row.1))
      (row.2.filter (·.added.contains row.1) ++ consumers.lookup row.1)) ++
  needed.flatMap fun p => across (consumers.lookup p.1) (consumers.lookup p.2)

/-- The pairs of a layer that are looked at, if there is one. -/
def excludedPairs (source : Option FactLayer) : List (Fact × Fact) :=
  source.elim [] fun facts => facts.mutexes.pairs

theorem findMutexesAt_eq (layer : ActionLayer) (consumers : Index Fact Step) (f : Fact)
    (affected : List Step) :
    layer.findMutexesAt consumers f affected =
      layer.withPairs (across (affected.filter (·.deleted.contains f))
        (affected.filter (·.added.contains f) ++ consumers.lookup f)) := by
  rw [findMutexesAt]
  split
  · rename_i hempty
    rw [List.isEmpty_iff.1 hempty]
    rfl
  · exact addMutexes_eq ..

theorem findMutexes_eq (layer : ActionLayer) (source : Option FactLayer)
    (effects : Index Fact Step) :
    layer.findMutexes source effects =
      layer.withPairs (foundPairs layer.consumers effects (excludedPairs source)) := by
  unfold findMutexes
  rw [foundPairs, withPairs_append]
  simp only [findMutexesAt_eq, foldl_withPairs]
  cases source with
  | none => rfl
  | some facts => simp only [addMutexes_eq, foldl_withPairs, excludedPairs, Option.elim]

@[simp] theorem steps_findMutexes (layer : ActionLayer) (source : Option FactLayer)
    (effects : Index Fact Step) : (layer.findMutexes source effects).steps = layer.steps := by
  rw [findMutexes_eq]
  rfl

theorem consumers_eq (layer : ActionLayer) :
    layer.consumers = Index.fileAll Step.preconditions layer.steps [] := rfl

theorem foldl_fileEffects_eq (steps : List Step) (index : Index Fact Step) :
    steps.foldl Index.fileEffects index =
      Index.fileAll (fun s => s.deleted ++ s.added) steps index := by
  rw [Index.fileAll]
  congr 1
  funext index s
  rw [Index.fileEffects, Index.fileUnder_append]

theorem effects_eq (layer : ActionLayer) :
    layer.effects = Index.fileAll (fun s => s.deleted ++ s.added) layer.steps [] :=
  foldl_fileEffects_eq ..

/-! ### Which steps exclude each other -/

/-- What is filed under a fact in an index of the steps. -/
theorem mem_lookup_steps {keysOf : Step → List Fact} {steps : List Step} {f : Fact} {s : Step}
    (h : s ∈ (Index.fileAll keysOf steps []).lookup f) : s ∈ steps ∧ f ∈ keysOf s := by
  rcases Index.mem_lookup_fileAll h with h | h
  · cases h
  · exact h

/-- A step is filed under its keys, or one that is the same. -/
theorem contains_lookup_steps {keysOf : Step → List Fact}
    (hkeys : ∀ {s t : Step} {f}, (s == t) = true → (f ∈ keysOf s ↔ f ∈ keysOf t))
    {steps : List Step} {f : Fact} {s : Step} :
    ((Index.fileAll keysOf steps []).lookup f).contains s = true ↔
      steps.contains s = true ∧ f ∈ keysOf s := by
  rw [Index.contains_lookup_fileAll, List.contains_iff_exists_mem_beq (l := steps),
    Index.lookup_nil, List.contains_nil]
  constructor
  · rintro (h | ⟨x, hx, hfx, hsx⟩)
    · cases h
    · exact ⟨⟨x, hx, hsx⟩, (hkeys hsx).2 hfx⟩
  · rintro ⟨⟨x, hx, hsx⟩, hf⟩
    exact .inr ⟨x, hx, (hkeys hsx).1 hf, hsx⟩

theorem exists_mem_lookup_steps {keysOf : Step → List Fact}
    (hkeys : ∀ {s t : Step} {f}, (s == t) = true → (f ∈ keysOf s ↔ f ∈ keysOf t))
    {steps : List Step} {f : Fact} {s : Step} (hs : steps.contains s = true) (hf : f ∈ keysOf s) :
    ∃ u ∈ (Index.fileAll keysOf steps []).lookup f, (u == s) = true := by
  obtain ⟨u, hu, hsu⟩ :=
    List.contains_iff_exists_mem_beq.1 ((contains_lookup_steps hkeys).2 ⟨hs, hf⟩)
  exact ⟨u, hu, BEq.symm hsu⟩

variable {steps : List Step} {effects : Index Fact Step} {needed : List (Fact × Fact)}
  {source : FactLayer} {strict : Bool}

/-- Every pair that is found in an index of the steps is one of different steps in conflict. -/
theorem conflict_of_mem_foundPairs (heffects : ∀ row ∈ effects, ∀ s ∈ row.2, s ∈ steps)
    (hneeded : ∀ p ∈ needed, strict = true ∧ source.isMutex p.1 p.2 = true) {s t : Step}
    (h : (s, t) ∈ foundPairs (consumers { steps }) effects needed) :
    s ∈ steps ∧ t ∈ steps ∧ (s == t) = false ∧ source.Conflict strict s t := by
  rw [foundPairs, consumers_eq] at h
  rcases List.mem_append.1 h with h | h
  · obtain ⟨⟨f, affected⟩, hrow, h⟩ := List.mem_flatMap.1 h
    obtain ⟨hs, ht, hst⟩ := mem_across.1 h
    obtain ⟨hs, hsf⟩ := List.mem_filter.1 hs
    have hs : s ∈ steps := heffects _ hrow s hs
    have hdel : f ∈ s.deleted := List.contains_iff_mem.1 hsf
    rcases List.mem_append.1 ht with ht | ht
    · obtain ⟨ht, htf⟩ := List.mem_filter.1 ht
      exact ⟨hs, heffects _ hrow t ht, hst, .inl ⟨f, hdel, .inl (List.contains_iff_mem.1 htf)⟩⟩
    · obtain ⟨ht, htf⟩ := mem_lookup_steps ht
      exact ⟨hs, ht, hst, .inl ⟨f, hdel, .inr htf⟩⟩
  · obtain ⟨⟨f, g⟩, hfg, h⟩ := List.mem_flatMap.1 h
    obtain ⟨hs, ht, hst⟩ := mem_across.1 h
    obtain ⟨hs, hsf⟩ := mem_lookup_steps hs
    obtain ⟨ht, htg⟩ := mem_lookup_steps ht
    obtain ⟨hstrict, hmutex⟩ := hneeded _ hfg
    exact ⟨hs, ht, hst, .inr (.inr ⟨hstrict, f, hsf, g, htg, hmutex⟩)⟩

/-- In the index every step of the list is filed under each fact that it deletes or adds, or one
that is the same. Other steps may be filed there too. -/
def Registers (effects : Index Fact Step) (steps : List Step) : Prop :=
  ∀ s, steps.contains s = true → ∀ f, f ∈ s.deleted ++ s.added →
    (effects.lookup f).contains s = true

/-- Filing the steps of a list is enough, whatever was filed before. -/
theorem registers_foldl_fileEffects (steps : List Step) (earlier : Index Fact Step) :
    Registers (steps.foldl Index.fileEffects earlier) steps := by
  intro s hs f hf
  obtain ⟨x, hx, hsx⟩ := List.contains_iff_exists_mem_beq.1 hs
  rw [foldl_fileEffects_eq, Index.contains_lookup_fileAll]
  refine .inr ⟨x, hx, ?_, hsx⟩
  rwa [List.mem_append, ← Step.mem_deleted_of_beq hsx, ← Step.mem_added_of_beq hsx,
    ← List.mem_append]

/-- A step that disturbs a different one is found with it. -/
theorem exists_mem_foundPairs_of_disturbs (heffects : Registers effects steps) {s t : Step}
    (hs : steps.contains s = true) (ht : steps.contains t = true) (hst : (s == t) = false)
    (h : s.Disturbs t) (needed : List (Fact × Fact)) :
    ∃ u v, (u, v) ∈ foundPairs (consumers { steps }) effects needed ∧
      (u == s) = true ∧ (v == t) = true := by
  obtain ⟨f, hdel, hft⟩ := h
  obtain ⟨u, hu, hsu⟩ :=
    List.contains_iff_exists_mem_beq.1 (heffects s hs f (List.mem_append_left _ hdel))
  have hudel : f ∈ u.deleted := (Step.mem_deleted_of_beq hsu).1 hdel
  obtain ⟨v, hv, htv⟩ : ∃ v, v ∈ (effects.lookup f).filter (·.added.contains f) ++
      (consumers { steps }).lookup f ∧ (t == v) = true := by
    rcases hft with hadd | hpre
    · obtain ⟨v, hv, htv⟩ :=
        List.contains_iff_exists_mem_beq.1 (heffects t ht f (List.mem_append_right _ hadd))
      have hvadd := List.contains_iff_mem.2 ((Step.mem_added_of_beq htv).1 hadd)
      exact ⟨v, List.mem_append_left _ (List.mem_filter.2 ⟨hv, hvadd⟩), htv⟩
    · obtain ⟨v, hv, hvt⟩ := exists_mem_lookup_steps Step.mem_preconditions_of_beq ht hpre
      exact ⟨v, List.mem_append_right _ (consumers_eq _ ▸ hv), BEq.symm hvt⟩
  have huv : (u == v) = false := by
    rw [← BEq.congr_left hsu, ← BEq.congr_right htv, hst]
  refine ⟨u, v, List.mem_append_left _ (List.mem_flatMap.2
    ⟨(f, effects.lookup f), Index.mk_lookup_mem hu, ?_⟩), BEq.symm hsu, BEq.symm htv⟩
  exact mem_across.2 ⟨List.mem_filter.2 ⟨hu, List.contains_iff_mem.2 hudel⟩, hv, huv⟩

/-- Different steps that need the facts of a given pair are found. -/
theorem exists_mem_foundPairs_of_needs {s t : Step} {f g : Fact} (hs : steps.contains s = true)
    (ht : steps.contains t = true) (hst : (s == t) = false) (hf : f ∈ s.preconditions)
    (hg : g ∈ t.preconditions) (hfg : (f, g) ∈ needed ∨ (g, f) ∈ needed) :
    ∃ p ∈ foundPairs (consumers { steps }) effects needed, PairRelation.Joins p s t := by
  obtain ⟨u, hu, hus⟩ := exists_mem_lookup_steps Step.mem_preconditions_of_beq hs hf
  obtain ⟨v, hv, hvt⟩ := exists_mem_lookup_steps Step.mem_preconditions_of_beq ht hg
  have huv : (u == v) = false := by rw [BEq.congr_left hus, BEq.congr_right hvt, hst]
  have hvu : (v == u) = false := by rw [BEq.comm, huv]
  rcases hfg with hp | hp
  · exact ⟨(u, v), List.mem_append_right _ (List.mem_flatMap.2
      ⟨_, hp, mem_across.2 ⟨consumers_eq _ ▸ hu, consumers_eq _ ▸ hv, huv⟩⟩), .inl ⟨hus, hvt⟩⟩
  · exact ⟨(v, u), List.mem_append_right _ (List.mem_flatMap.2
      ⟨_, hp, mem_across.2 ⟨consumers_eq _ ▸ hv, consumers_eq _ ▸ hu, hvu⟩⟩), .inr ⟨hus, hvt⟩⟩

/-- **The pairs that are found are the conflicts.** The index has to hold the steps, all of them
under what they delete or add, and no others; the given pairs of facts have to be those that exclude
each other, in strict mode. -/
theorem exists_joins_foundPairs_iff (hsource : source.mutexes.IsSymm)
    (heffects : ∀ row ∈ effects, ∀ s ∈ row.2, s ∈ steps) (hregisters : Registers effects steps)
    (hneeded : source.NeededPairs strict needed) {s t : Step} :
    (∃ p ∈ foundPairs (consumers { steps }) effects needed, PairRelation.Joins p s t) ↔
      steps.contains s = true ∧ steps.contains t = true ∧ (s == t) = false ∧
        source.Conflict strict s t := by
  constructor
  · rintro ⟨⟨u, v⟩, huv, h⟩
    obtain ⟨hu, hv, hne, hconflict⟩ :=
      conflict_of_mem_foundPairs heffects (fun p hp => (hneeded p.1 p.2).1 (.inl hp)) huv
    have hcontains : ∀ {x y : Step}, x ∈ steps → (x == y) = true → steps.contains y = true :=
      fun hx hxy => List.contains_iff_exists_mem_beq.2 ⟨_, hx, BEq.symm hxy⟩
    rcases h with ⟨hus, hvt⟩ | ⟨hvs, hut⟩
    · refine ⟨hcontains hu hus, hcontains hv hvt, ?_, hconflict.congr hus hvt⟩
      rwa [← BEq.congr_left hus, ← BEq.congr_right hvt]
    · refine ⟨hcontains hv hvs, hcontains hu hut, ?_, (hconflict.symm hsource).congr hvs hut⟩
      rwa [← BEq.congr_left hvs, ← BEq.congr_right hut, BEq.comm]
  · rintro ⟨hs, ht, hst, h⟩
    rcases h with h | h | ⟨hstrict, f, hf, g, hg, hfg⟩
    · obtain ⟨u, v, huv, hus, hvt⟩ := exists_mem_foundPairs_of_disturbs hregisters hs ht hst h _
      exact ⟨(u, v), huv, .inl ⟨hus, hvt⟩⟩
    · obtain ⟨u, v, huv, hut, hvs⟩ :=
        exists_mem_foundPairs_of_disturbs hregisters ht hs (by rw [BEq.comm, hst]) h _
      exact ⟨(u, v), huv, .inr ⟨hvs, hut⟩⟩
    · exact exists_mem_foundPairs_of_needs hs ht hst hf hg ((hneeded f g).2 ⟨hstrict, hfg⟩)

/-- The pairs of a tidy relation. -/
theorem neededPairs_excludedPairs (hsource : source.mutexes.Tidy) :
    source.NeededPairs strict (excludedPairs (if strict then some source else none)) := by
  intro f g
  cases strict with
  | false => simp [excludedPairs]
  | true =>
    rw [FactLayer.isMutex, hsource.contains_iff_mem_pairs]
    simp [excludedPairs]

/-- An index of steps holds no others. -/
theorem mem_steps_of_mem_effects {row : Fact × List Step}
    (hrow : row ∈ ActionLayer.effects { steps }) {s : Step} (hs : s ∈ row.2) : s ∈ steps := by
  rw [effects_eq] at hrow
  have haffected := ((Index.mem_iff (Index.nodup_keys_fileAll_empty ..)).1 hrow).2
  rw [haffected] at hs
  exact (mem_lookup_steps hs).1

/-- **Two steps of a layer exclude each other exactly if they are not the same and conflict.** -/
theorem isMutex_findMutexes (hsource : source.mutexes.Tidy) (s t : Step) :
    (findMutexes { steps } (if strict then some source else none)
      (ActionLayer.effects { steps })).isMutex s t = true ↔
      steps.contains s = true ∧ steps.contains t = true ∧ (s == t) = false ∧
        source.Conflict strict s t := by
  rw [findMutexes_eq, isMutex, withPairs, PairRelation.contains_addAll PairRelation.isSymm_empty,
    ← exists_joins_foundPairs_iff hsource.symm (fun _ => mem_steps_of_mem_effects)
      (registers_foldl_fileEffects steps []) (neededPairs_excludedPairs hsource)]
  exact or_iff_right Bool.false_ne_true

end ActionLayer

/-! ### The layer that is built -/

/-- What an action layer over a fact layer is: the steps that keep a fact and the instances, each
pair of them excluded exactly if it is in conflict. -/
structure ActionLayer.Over (actions : ActionLayer) (schemas : List Schema) (strict : Bool)
    (source : FactLayer) : Prop where
  keeps : ∀ f ∈ source.facts, ∃ t ∈ actions.steps, Step.keep f = .ok t
  instances : ∀ s ∈ schemas, ∀ t ∈ s.instances source strict, actions.steps.contains t = true
  origin : ∀ t ∈ actions.steps, (∃ f ∈ source.facts, Step.keep f = .ok t) ∨
    ∃ s ∈ schemas, t ∈ s.instances source strict
  isMutex_iff : ∀ s t, actions.isMutex s t = true ↔
    actions.steps.contains s = true ∧ actions.steps.contains t = true ∧ (s == t) = false ∧
      source.Conflict strict s t

theorem mem_of_mem_appendNew {t : Step} : ∀ {new steps : List Step},
    t ∈ appendNew steps new → t ∈ steps ∨ t ∈ new
  | [], steps, h => .inl h
  | s :: new, steps, h => by
    rw [appendNew] at h
    split at h
    · exact (mem_of_mem_appendNew h).imp_right (List.mem_cons_of_mem s)
    · rcases mem_of_mem_appendNew h with h | h
      · rcases List.mem_append.1 h with h | h
        · exact .inl h
        · exact .inr (List.mem_cons.2 (.inl (List.mem_singleton.1 h)))
      · exact .inr (List.mem_cons_of_mem s h)

theorem contains_appendNew {t : Step} : ∀ {new steps : List Step},
    steps.contains t = true ∨ new.contains t = true → (appendNew steps new).contains t = true
  | [], steps, h => by
    rw [appendNew]
    simpa using h
  | s :: new, steps, h => by
    rw [List.contains_cons, Bool.or_eq_true] at h
    rw [appendNew]
    split
    · rename_i hs
      rcases h with h | h | h
      · exact contains_appendNew (.inl h)
      · exact contains_appendNew (.inl ((List.contains_congr h).trans hs))
      · exact contains_appendNew (.inr h)
    · refine contains_appendNew ?_
      rcases h with h | h | h
      · exact .inl (by simp [h])
      · exact .inl (by simp [h])
      · exact .inr h

/-- What is found in one schema after the other. -/
theorem mem_of_mem_foldl_appendNew {stepsOf : Schema → List Step} {t : Step} :
    ∀ {schemas : List Schema} {steps : List Step},
      t ∈ schemas.foldl (fun steps s => appendNew steps (stepsOf s)) steps →
        t ∈ steps ∨ ∃ s ∈ schemas, t ∈ stepsOf s
  | [], steps, h => .inl h
  | s :: schemas, steps, h => by
    rw [List.foldl_cons] at h
    rcases mem_of_mem_foldl_appendNew h with h | ⟨u, hu, h⟩
    · rcases mem_of_mem_appendNew h with h | h
      · exact .inl h
      · exact .inr ⟨s, List.mem_cons_self, h⟩
    · exact .inr ⟨u, List.mem_cons_of_mem s hu, h⟩

theorem contains_foldl_appendNew {stepsOf : Schema → List Step} {t : Step} :
    ∀ {schemas : List Schema} {steps : List Step},
      (steps.contains t = true ∨ ∃ s ∈ schemas, t ∈ stepsOf s) →
        (schemas.foldl (fun steps s => appendNew steps (stepsOf s)) steps).contains t = true
  | [], steps, h => by simpa using h
  | s :: schemas, steps, h => by
    rw [List.foldl_cons]
    refine contains_foldl_appendNew ?_
    rcases h with h | ⟨u, hu, h⟩
    · exact .inl (contains_appendNew (.inl h))
    · rcases List.mem_cons.1 hu with rfl | hu
      · exact .inl (contains_appendNew (.inr (List.elem_eq_true_of_mem h)))
      · exact .inr ⟨u, hu, h⟩

/-- What a traversal that succeeds gives for each item. -/
theorem forall₂_of_mapM_eq_ok {ε α β : Type} {f : α → Except ε β} : ∀ {xs : List α} {ys : List β},
    xs.mapM f = .ok ys → List.Forall₂ (fun x y => f x = .ok y) xs ys
  | [], ys, h => by
    cases h
    exact .nil
  | x :: xs, ys, h => by
    rw [List.mapM_cons] at h
    rcases hx : f x with e | y
    · rw [hx] at h
      cases h
    · rcases hxs : xs.mapM f with e | zs
      · rw [hx, hxs] at h
        cases h
      · rw [hx, hxs] at h
        cases h
        exact .cons hx (forall₂_of_mapM_eq_ok hxs)

/-- A traversal that fails does so at one of the items. -/
theorem exists_of_mapM_eq_error {ε α β : Type} {f : α → Except ε β} {e : ε} {xs : List α}
    (h : xs.mapM f = .error e) : ∃ x ∈ xs, f x = .error e := by
  induction xs with
  | nil => cases h
  | cons x xs ih =>
    rw [List.mapM_cons] at h
    rcases hx : f x with e' | y
    · rw [hx] at h
      cases h
      exact ⟨x, List.mem_cons_self, hx⟩
    · rcases hxs : xs.mapM f with e' | zs
      · rw [hx, hxs] at h
        cases h
        obtain ⟨z, hz, hfz⟩ := ih hxs
        exact ⟨z, List.mem_cons_of_mem x hz, hfz⟩
      · rw [hx, hxs] at h
        cases h

/-- **The action layer that is built is the one over the fact layer.** -/
theorem FactLayer.over_of_buildActions {source : FactLayer} (hsource : source.mutexes.Tidy)
    {schemas : List Schema} {strict : Bool} {actions : ActionLayer} {effects : Index Fact Step}
    (h : source.buildActions schemas strict [] = .ok (actions, effects)) :
    actions.Over schemas strict source := by
  rw [buildActions] at h
  split at h
  · cases h
  · rename_i noops hnoops
    split at h
    · cases h
    · have hkeep := forall₂_of_mapM_eq_ok hnoops
      generalize hfound : schemas.foldl (fun steps s => appendNew steps (s.instances source strict))
        [] = found at h
      have hactions : ActionLayer.findMutexes { steps := noops ++ found }
          (if strict then some source else none) (ActionLayer.effects { steps := noops ++ found }) =
            actions := (Prod.mk.inj (Except.ok.inj h)).1
      have hsteps : actions.steps = noops ++ found := by
        rw [← hactions, ActionLayer.steps_findMutexes]
      refine ⟨fun f hf => ?_, fun s hs t ht => ?_, fun t ht => ?_, fun s t => ?_⟩
      · obtain ⟨t, ht, hft⟩ := exists_of_mem_left hkeep hf
        exact ⟨t, hsteps ▸ List.mem_append_left _ ht, hft⟩
      · have hmem : found.contains t = true := by
          rw [← hfound]
          exact contains_foldl_appendNew (.inr ⟨s, hs, ht⟩)
        rw [hsteps, List.contains_append, hmem, Bool.or_true]
      · rw [hsteps] at ht
        rcases List.mem_append.1 ht with ht | ht
        · obtain ⟨f, hf, hft⟩ := exists_of_mem_right hkeep ht
          exact .inl ⟨f, hf, hft⟩
        · rw [← hfound] at ht
          exact .inr ((mem_of_mem_foldl_appendNew ht).resolve_left List.not_mem_nil)
      · rw [hsteps, ← hactions]
        exact ActionLayer.isMutex_findMutexes hsource s t

/-- An action layer over regular schemas can be built unless there is a fact that cannot be kept. -/
theorem FactLayer.exists_of_buildActions_eq_error {source : FactLayer} {schemas : List Schema}
    (hreg : ∀ s ∈ schemas, s.Regular) {strict : Bool} {effects : Index Fact Step} {e : LayerError}
    (h : source.buildActions schemas strict effects = .error e) :
    ∃ f ∈ source.facts, ∃ cause, Step.keep f = .error cause ∧ e = .schema cause := by
  rw [buildActions] at h
  split at h
  · rename_i cause hnoops
    cases h
    obtain ⟨f, hf, hkeep⟩ := exists_of_mapM_eq_error hnoops
    exact ⟨f, hf, cause, hkeep, rfl⟩
  · rw [Schema.find?_isInstance hreg] at h
    cases h

end Strips
