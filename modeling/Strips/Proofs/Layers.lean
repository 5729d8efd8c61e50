import Strips.Graph
import Strips.Proofs.Conflicts

/-!
# Fact layers in sequence

The fact layer after an action layer holds what the steps add, and two of its facts exclude each
other exactly if every two steps that add them do. A layer is *below* another one if facts persist
and exclusions do not come back. Each layer is below the next, since every fact can be kept, and
whatever is built over a lower layer stays below what is built over a higher one. Layers that are
below each other are therefore followed by layers of which the same is true.

## Main definitions

* `FactLayer.After` – what the fact layer after an action layer is.
* `FactLayer.Below` – facts persist, exclusions do not come back.
* `Level.Follows`, `Level.Derives` – a level that was derived from another one: what is known of it,
  and how it was built.

## Main results

* `FactLayer.after_buildFacts` – the layer that is built is the one after the action layer.
* `Level.Follows.below`, `Level.Follows.mono` – the order of the layers.
* `FactLayer.Sound.same_iff` – layers are the same if each is below the other.
-/

namespace Strips

/-! ### Lists of pairs -/

theorem mem_pairsWithin {α : Type} {a b : α} : ∀ {l : List α},
    a ∈ l ∧ b ∈ l ↔ (a, b) ∈ pairsWithin l ∨ (b, a) ∈ pairsWithin l
  | [] => by simp [pairsWithin]
  | x :: rest => by
    have ih := mem_pairsWithin (a := a) (b := b) (l := rest)
    simp only [pairsWithin, List.map_cons, List.mem_append, List.mem_cons, List.mem_map,
      Prod.mk.injEq]
    grind

theorem pairsWithin_map {α β : Type} (f : α → β) : ∀ l : List α,
    pairsWithin (l.map f) = (pairsWithin l).map fun p => (f p.1, f p.2)
  | [] => rfl
  | x :: rest => by
    rw [List.map_cons, pairsWithin, pairsWithin, pairsWithin_map f rest]
    simp [Function.comp_def]

/-! ### Sound layers -/

namespace FactLayer

/-- Each fact stands once in the layer, and exclusions are between different facts of it. -/
structure Sound (layer : FactLayer) : Prop where
  nodup : layer.facts.Nodup
  tidy : layer.mutexes.Tidy
  mem_of_isMutex : ∀ f g, layer.isMutex f g = true → f ∈ layer.facts ∧ g ∈ layer.facts
  isMutex_self : ∀ f, layer.isMutex f f = false

@[simp] theorem mutexes_insert (layer : FactLayer) (f : Fact) :
    (layer.insert f).mutexes = layer.mutexes := by
  rw [insert]
  split <;> rfl

theorem nodup_insert {layer : FactLayer} (h : layer.facts.Nodup) (f : Fact) :
    (layer.insert f).facts.Nodup := by
  rw [insert]
  split
  · exact h
  · rename_i hf
    rw [List.contains_iff_mem] at hf
    exact h.append (List.nodup_singleton f) (List.disjoint_singleton.2 hf)

@[simp] theorem mutexes_ofList (facts : List Fact) : (ofList facts).mutexes = {} :=
  List.foldlRecOn facts insert (motive := fun layer => layer.mutexes = {}) rfl
    fun layer h f _ => (layer.mutexes_insert f).trans h

theorem nodup_ofList (facts : List Fact) : (ofList facts).facts.Nodup :=
  List.foldlRecOn facts insert (motive := fun layer => layer.facts.Nodup) List.nodup_nil
    fun _ h f _ => nodup_insert h f

@[simp] theorem isMutex_ofList (facts : List Fact) (f g : Fact) :
    (ofList facts).isMutex f g = false := by
  rw [isMutex, mutexes_ofList]
  rfl

/-- The initial layer is sound. -/
theorem sound_ofList (facts : List Fact) : (ofList facts).Sound :=
  { nodup := nodup_ofList facts
    tidy := by
      rw [mutexes_ofList]
      exact PairRelation.tidy_empty
    mem_of_isMutex := fun f g h => by
      rw [isMutex_ofList] at h
      cases h
    isMutex_self := fun f => isMutex_ofList facts f f }

theorem Sound.supports_iff {layer : FactLayer} (h : layer.Sound) {facts : List Fact} :
    layer.supports facts = true ↔
      (∀ f ∈ facts, f ∈ layer.facts) ∧ ∀ f ∈ facts, ∀ g ∈ facts, layer.isMutex f g = false := by
  rw [supports, Bool.and_eq_true, Bool.not_eq_true', ← Bool.not_eq_true,
    hasMutexPair_iff h.tidy.symm, List.all_eq_true]
  simp only [List.contains_iff_mem, not_exists, not_and, Bool.not_eq_true]

/-- Fewer facts are supported when more of them are. -/
theorem Sound.supports_mono {layer : FactLayer} (h : layer.Sound) {facts more : List Fact}
    (hsub : ∀ f ∈ facts, f ∈ more) (hs : layer.supports more = true) :
    layer.supports facts = true := by
  obtain ⟨hmem, hfree⟩ := h.supports_iff.1 hs
  exact h.supports_iff.2
    ⟨fun f hf => hmem f (hsub f hf), fun f hf g hg => hfree f (hsub f hf) g (hsub g hg)⟩

/-! ### The layer after an action layer -/

/-- What the fact layer after an action layer is, and the steps filed under its facts. -/
structure After (layer : FactLayer) (support : Index Fact Step) (actions : ActionLayer) : Prop where
  sound : layer.Sound
  mem_facts : ∀ f, f ∈ layer.facts ↔ ∃ s ∈ actions.steps, f ∈ s.added
  mem_support : ∀ f s, s ∈ support.lookup f → s ∈ actions.steps ∧ f ∈ s.added
  contains_support : ∀ f s, (support.lookup f).contains s = true ↔
    actions.steps.contains s = true ∧ f ∈ s.added
  isMutex_iff : ∀ f g, layer.isMutex f g = true ↔ f ∈ layer.facts ∧ g ∈ layer.facts ∧
    ∀ s ∈ actions.steps, f ∈ s.added → ∀ t ∈ actions.steps, g ∈ t.added → actions.isMutex s t = true

end FactLayer

namespace ActionLayer

theorem isMutex_congr (actions : ActionLayer) {s s' t t' : Step} (hs : (s == s') = true)
    (ht : (t == t') = true) : actions.isMutex s t = actions.isMutex s' t' :=
  actions.mutexes.contains_congr hs ht

theorem Over.isMutex_comm {actions : ActionLayer} {schemas : List Schema} {strict : Bool}
    {source : FactLayer} (h : actions.Over schemas strict source) (hs : source.Sound) (s t : Step) :
    actions.isMutex s t = actions.isMutex t s := by
  have key : ∀ s t, actions.isMutex s t = true → actions.isMutex t s = true := by
    intro s t hst
    obtain ⟨hs', ht', hne, hconflict⟩ := (h.isMutex_iff s t).1 hst
    exact (h.isMutex_iff t s).2 ⟨ht', hs', by rw [BEq.comm, hne], hconflict.symm hs.tidy.symm⟩
  exact Bool.eq_iff_iff.2 ⟨key s t, key t s⟩

theorem Over.isMutex_eq_false {actions : ActionLayer} {schemas : List Schema} {strict : Bool}
    {source : FactLayer} (h : actions.Over schemas strict source) {s t : Step}
    (hst : (s == t) = true) : actions.isMutex s t = false := by
  refine Bool.eq_false_iff.2 fun hmutex => ?_
  rw [((h.isMutex_iff s t).1 hmutex).2.2.1] at hst
  cases hst

theorem Over.isMutex_iff_of_mem {actions : ActionLayer} {schemas : List Schema} {strict : Bool}
    {source : FactLayer} (h : actions.Over schemas strict source) {s t : Step}
    (hs : s ∈ actions.steps) (ht : t ∈ actions.steps) :
    actions.isMutex s t = true ↔ (s == t) = false ∧ source.Conflict strict s t := by
  have hs' : actions.steps.contains s = true := List.elem_eq_true_of_mem hs
  have ht' : actions.steps.contains t = true := List.elem_eq_true_of_mem ht
  rw [h.isMutex_iff, hs', ht']
  simp only [true_and]

theorem compatible_eq_false_iff {actions : ActionLayer} {ss ts : List Step} :
    actions.compatible ss ts = false ↔ ∀ s ∈ ss, ∀ t ∈ ts, actions.isMutex s t = true := by
  simp [compatible]

theorem mem_unsupportedPairs {actions : ActionLayer} {support : Index Fact Step}
    {facts : List Fact} {f g : Fact} :
    (f, g) ∈ actions.unsupportedPairs support facts ↔ (f, g) ∈ pairsWithin facts ∧
      actions.compatible (support.lookup f) (support.lookup g) = false := by
  rw [unsupportedPairs, pairsWithin_map, List.mem_map]
  constructor
  · rintro ⟨⟨x, y⟩, hxy, heq⟩
    obtain ⟨hxy, hc⟩ := List.mem_filter.1 hxy
    obtain ⟨⟨a, b⟩, hab, hpair⟩ := List.mem_map.1 hxy
    obtain ⟨rfl, rfl⟩ := Prod.mk.inj hpair
    obtain ⟨rfl, rfl⟩ := Prod.mk.inj heq
    exact ⟨hab, by simpa using hc⟩
  · rintro ⟨hfg, hc⟩
    exact ⟨((f, support.lookup f), (g, support.lookup g)),
      List.mem_filter.2 ⟨List.mem_map.2 ⟨_, hfg, rfl⟩, by simpa using hc⟩, rfl⟩

theorem fileSupport_eq (actions : ActionLayer) :
    actions.fileSupport [] = Index.fileAll Step.added actions.steps [] := rfl

theorem foldl_addMutex {pairs : List (Fact × Fact)} : ∀ {layer : FactLayer},
    pairs.foldl (fun facts p => facts.addMutex p.1 p.2) layer =
      { layer with mutexes := layer.mutexes.addAll pairs } := by
  induction pairs with
  | nil => intro layer; rfl
  | cons p pairs ih => intro layer; exact ih

theorem facts_factsOf (actions : ActionLayer) (support : Index Fact Step) :
    (actions.factsOf support).facts = (FactLayer.ofList (Fact.sort support.keys)).facts := by
  rw [factsOf, foldl_addMutex]

theorem mutexes_factsOf (actions : ActionLayer) (support : Index Fact Step) :
    (actions.factsOf support).mutexes = ({} : PairRelation Fact).addAll
      (actions.unsupportedPairs support (Fact.sort support.keys)) := by
  rw [factsOf, foldl_addMutex, FactLayer.mutexes_ofList]

theorem mem_factsOf {actions : ActionLayer} {support : Index Fact Step} {f : Fact} :
    f ∈ (actions.factsOf support).facts ↔ f ∈ support.keys := by
  rw [facts_factsOf, FactLayer.mem_ofList, Fact.mem_sort]

/-- Two facts that are filed exclude each other exactly if no two compatible steps support them. -/
theorem isMutex_factsOf {actions : ActionLayer}
    (hcomm : ∀ s t, actions.isMutex s t = actions.isMutex t s) {support : Index Fact Step}
    {f g : Fact} :
    (actions.factsOf support).isMutex f g = true ↔ (f ∈ support.keys ∧ g ∈ support.keys) ∧
      actions.compatible (support.lookup f) (support.lookup g) = false := by
  have hswap : ∀ f g, actions.compatible (support.lookup f) (support.lookup g) = false →
      actions.compatible (support.lookup g) (support.lookup f) = false := by
    intro f g h
    rw [compatible_eq_false_iff] at h ⊢
    exact fun t ht s hs => hcomm s t ▸ h s hs t ht
  rw [FactLayer.isMutex, mutexes_factsOf, PairRelation.contains_addAll PairRelation.isSymm_empty,
    ← Fact.mem_sort (f := f), ← Fact.mem_sort (f := g), mem_pairsWithin]
  constructor
  · rintro (h | ⟨⟨a, b⟩, hab, h⟩)
    · cases h
    · obtain ⟨hab, hc⟩ := mem_unsupportedPairs.1 hab
      rcases h with ⟨ha, hb⟩ | ⟨hb, ha⟩
      · rw [← eq_of_beq ha, ← eq_of_beq hb]
        exact ⟨.inl hab, hc⟩
      · rw [← eq_of_beq ha, ← eq_of_beq hb]
        exact ⟨.inr hab, hswap a b hc⟩
  · rintro ⟨hfg | hgf, hc⟩
    · exact .inr ⟨(f, g), mem_unsupportedPairs.2 ⟨hfg, hc⟩, .inl ⟨BEq.rfl, BEq.rfl⟩⟩
    · exact .inr ⟨(g, f), mem_unsupportedPairs.2 ⟨hgf, hswap f g hc⟩, .inr ⟨BEq.rfl, BEq.rfl⟩⟩

/-- No two compatible steps support two facts: the index can be left out. -/
theorem compatible_lookup_eq_false_iff {actions : ActionLayer} {f g : Fact} :
    actions.compatible ((actions.fileSupport []).lookup f) ((actions.fileSupport []).lookup g) =
        false ↔
      ∀ s ∈ actions.steps, f ∈ s.added → ∀ t ∈ actions.steps, g ∈ t.added →
        actions.isMutex s t = true := by
  rw [compatible_eq_false_iff, fileSupport_eq]
  constructor
  · intro h s hs hf t ht hg
    obtain ⟨s', hs', hss⟩ :=
      exists_mem_lookup_steps Step.mem_added_of_beq (List.elem_eq_true_of_mem hs) hf
    obtain ⟨t', ht', htt⟩ :=
      exists_mem_lookup_steps Step.mem_added_of_beq (List.elem_eq_true_of_mem ht) hg
    rw [← actions.isMutex_congr hss htt]
    exact h s' hs' t' ht'
  · intro h s hs t ht
    obtain ⟨hs, hf⟩ := mem_lookup_steps hs
    obtain ⟨ht, hg⟩ := mem_lookup_steps ht
    exact h s hs hf t ht hg

/-- **The layer that is built is the one after the action layer.** -/
theorem after_buildFacts {actions : ActionLayer}
    (hcomm : ∀ s t, actions.isMutex s t = actions.isMutex t s)
    (hself : ∀ s, actions.isMutex s s = false) :
    (actions.buildFacts []).1.After (actions.buildFacts []).2 actions := by
  change (actions.factsOf (actions.fileSupport [])).After (actions.fileSupport []) actions
  have hmem : ∀ f, f ∈ (actions.factsOf (actions.fileSupport [])).facts ↔
      ∃ s ∈ actions.steps, f ∈ s.added := by
    intro f
    rw [mem_factsOf, fileSupport_eq, Index.mem_keys_fileAll]
    simp [Index.keys]
  have hmutex : ∀ f g, (actions.factsOf (actions.fileSupport [])).isMutex f g = true ↔
      f ∈ (actions.factsOf (actions.fileSupport [])).facts ∧
        g ∈ (actions.factsOf (actions.fileSupport [])).facts ∧
        ∀ s ∈ actions.steps, f ∈ s.added → ∀ t ∈ actions.steps, g ∈ t.added →
          actions.isMutex s t = true := by
    intro f g
    rw [isMutex_factsOf hcomm, compatible_lookup_eq_false_iff, mem_factsOf, mem_factsOf, and_assoc]
  refine ⟨⟨?_, ?_, fun f g h => ?_, fun f => ?_⟩, hmem, fun f s => mem_lookup_steps,
    fun f s => contains_lookup_steps Step.mem_added_of_beq, hmutex⟩
  · rw [facts_factsOf]
    exact FactLayer.nodup_ofList _
  · rw [mutexes_factsOf]
    exact PairRelation.tidy_empty.addAll
  · obtain ⟨hf, hg, -⟩ := (hmutex f g).1 h
    exact ⟨hf, hg⟩
  · -- a fact of the layer is added by some step, which does not exclude itself
    refine Bool.eq_false_iff.2 fun h => ?_
    obtain ⟨hf, -, hall⟩ := (hmutex f f).1 h
    obtain ⟨s, hs, hfs⟩ := (hmem f).1 hf
    have hss := hall s hs hfs s hs hfs
    rw [hself] at hss
    cases hss

end ActionLayer

/-! ### The order of the layers -/

namespace FactLayer

/-- Facts persist, and exclusions do not come back. -/
structure Below (layer other : FactLayer) : Prop where
  mem : ∀ f ∈ layer.facts, f ∈ other.facts
  isMutex : ∀ f ∈ layer.facts, ∀ g ∈ layer.facts,
    other.isMutex f g = true → layer.isMutex f g = true

namespace Below

variable {layer other third : FactLayer}

theorem refl (layer : FactLayer) : layer.Below layer := ⟨fun _ => id, fun _ _ _ _ => id⟩

theorem trans (h : layer.Below other) (h' : other.Below third) : layer.Below third :=
  ⟨fun f hf => h'.mem f (h.mem f hf),
    fun f hf g hg hfg => h.isMutex f hf g hg (h'.isMutex f (h.mem f hf) g (h.mem g hg) hfg)⟩

theorem isMutex_eq_false (h : layer.Below other) {f g : Fact} (hf : f ∈ layer.facts)
    (hg : g ∈ layer.facts) (hfg : layer.isMutex f g = false) : other.isMutex f g = false :=
  Bool.eq_false_iff.2 fun h' => Bool.eq_false_iff.1 hfg (h.isMutex f hf g hg h')

theorem supports (h : layer.Below other) (hl : layer.Sound) (ho : other.Sound) {facts : List Fact}
    (hs : layer.supports facts = true) : other.supports facts = true := by
  obtain ⟨hmem, hfree⟩ := hl.supports_iff.1 hs
  exact ho.supports_iff.2 ⟨fun f hf => h.mem f (hmem f hf),
    fun f hf g hg => h.isMutex_eq_false (hmem f hf) (hmem g hg) (hfree f hf g hg)⟩

theorem free (h : layer.Below other) {facts : List Fact} (hmem : ∀ f ∈ facts, f ∈ layer.facts)
    (hfree : Arena.Free layer facts) : Arena.Free other facts :=
  List.Pairwise.imp_of_mem
    (fun hf hg hfg => h.isMutex_eq_false (hmem _ hg) (hmem _ hf) hfg) hfree

/-- What can be found over a layer can be found over every layer above it. -/
theorem mem_instances (h : layer.Below other) {s : Schema} (hs : s.Regular) {strict : Bool}
    {t : Step} (ht : t ∈ s.instances layer strict) : t ∈ s.instances other strict := by
  obtain ⟨σ, hσ, rfl, hpre, hfree, -⟩ := hs.exists_under ht
  refine hs.mem_instances hσ (fun l hl => h.mem _ (hpre l hl)) fun hstrict => ?_
  refine h.free (fun f hf => ?_) (hfree hstrict)
  obtain ⟨l, hl, rfl⟩ := List.mem_map.1 hf
  exact hpre l hl

end Below

/-- Layers that are below each other have the same exclusions. -/
theorem Sound.isMutex_eq {layer other : FactLayer} (hl : layer.Sound) (ho : other.Sound)
    (h : layer.Below other) (h' : other.Below layer) (f g : Fact) :
    layer.isMutex f g = other.isMutex f g := by
  refine Bool.eq_iff_iff.2 ⟨fun hfg => ?_, fun hfg => ?_⟩
  · obtain ⟨hf, hg⟩ := hl.mem_of_isMutex f g hfg
    exact h'.isMutex f (h.mem f hf) g (h.mem g hg) hfg
  · obtain ⟨hf, hg⟩ := ho.mem_of_isMutex f g hfg
    exact h.isMutex f (h'.mem f hf) g (h'.mem g hg) hfg

/-- **Two layers are the same if each is below the other.** -/
theorem Sound.same_iff {layer other : FactLayer} (hl : layer.Sound) (ho : other.Sound) :
    layer.same other = true ↔ layer.Below other ∧ other.Below layer := by
  rw [same, Bool.and_eq_true, Bool.and_eq_true, beq_iff_eq, List.all_eq_true,
    hl.tidy.same_iff ho.tidy]
  simp only [List.contains_iff_mem]
  constructor
  · rintro ⟨⟨hlen, hsub⟩, hmutex⟩
    have hperm := (ho.nodup.subperm hsub).perm_of_length_le (Nat.le_of_eq hlen)
    exact ⟨⟨fun f hf => hperm.mem_iff.2 hf, fun f _ g _ hfg => (hmutex f g).trans hfg⟩,
      ⟨hsub, fun f _ g _ hfg => (hmutex f g).symm.trans hfg⟩⟩
  · rintro ⟨h, h'⟩
    have hperm := (List.perm_ext_iff_of_nodup hl.nodup ho.nodup).2
      fun f => ⟨h.mem f, h'.mem f⟩
    exact ⟨⟨hperm.length_eq, h'.mem⟩, hl.isMutex_eq ho h h'⟩

/-- Keeping every fact puts a layer below the next one. -/
theorem After.below {source layer : FactLayer} {support : Index Fact Step} {actions : ActionLayer}
    {schemas : List Schema} {strict : Bool} (h : layer.After support actions)
    (hover : actions.Over schemas strict source) : source.Below layer := by
  refine ⟨fun f hf => ?_, fun f hf g hg hfg => ?_⟩
  · obtain ⟨k, hk, hkeep⟩ := hover.keeps f hf
    obtain ⟨-, -, hadd, -⟩ := Step.keep_eq_ok hkeep
    exact (h.mem_facts f).2 ⟨k, hk, hadd ▸ List.mem_cons_self⟩
  · obtain ⟨k, hk, hkeep⟩ := hover.keeps f hf
    obtain ⟨m, hm, hkeep'⟩ := hover.keeps g hg
    obtain ⟨-, -, hadd, hpre, -⟩ := Step.keep_eq_ok hkeep
    obtain ⟨-, -, hadd', hpre', -⟩ := Step.keep_eq_ok hkeep'
    have hmutex := ((h.isMutex_iff f g).1 hfg).2.2 k hk (hadd ▸ List.mem_cons_self) m hm
      (hadd' ▸ List.mem_cons_self)
    -- steps that keep facts delete nothing, so only what they need can be in conflict
    rcases ((hover.isMutex_iff k m).1 hmutex).2.2.2 with hd | hd | ⟨-, a, ha, b, hb, hab⟩
    · exact absurd hd (Step.not_disturbs_of_keep hkeep)
    · exact absurd hd (Step.not_disturbs_of_keep hkeep')
    · rwa [hpre a ha, hpre' b hb] at hab

end FactLayer

namespace ActionLayer.Over

variable {actions actions' : ActionLayer} {schemas : List Schema} {strict : Bool}
  {source source' : FactLayer}

/-- What a step of the layer needs is below it, none of it excluded in strict mode. -/
theorem preconditions (h : actions.Over schemas strict source) (hreg : ∀ s ∈ schemas, s.Regular)
    {t : Step} (ht : actions.steps.contains t = true) :
    ∀ f ∈ t.preconditions, f ∈ source.facts := by
  obtain ⟨u, hu, htu⟩ := List.contains_iff_exists_mem_beq.1 ht
  intro f hf
  rw [Step.mem_preconditions_of_beq htu] at hf
  rcases h.origin u hu with ⟨g, hg, hkeep⟩ | ⟨s, hs, hinst⟩
  · obtain ⟨-, -, -, hpre, -⟩ := Step.keep_eq_ok hkeep
    rwa [hpre f hf]
  · obtain ⟨σ, -, rfl, hpre, -⟩ := (hreg s hs).exists_under hinst
    obtain ⟨l, hl, rfl⟩ := LiteralSet.mem_under.1 hf
    exact hpre l hl

theorem contains_mono (h : actions.Over schemas strict source)
    (h' : actions'.Over schemas strict source') (hreg : ∀ s ∈ schemas, s.Regular)
    (hb : source.Below source') {t : Step} (ht : actions.steps.contains t = true) :
    actions'.steps.contains t = true := by
  obtain ⟨u, hu, htu⟩ := List.contains_iff_exists_mem_beq.1 ht
  rw [List.contains_congr htu]
  rcases h.origin u hu with ⟨f, hf, hkeep⟩ | ⟨s, hs, hinst⟩
  · obtain ⟨k, hk, hkeep'⟩ := h'.keeps f (hb.mem f hf)
    obtain rfl := Except.ok.inj (hkeep.symm.trans hkeep')
    exact List.elem_eq_true_of_mem hk
  · exact h'.instances s hs u (hb.mem_instances (hreg s hs) hinst)

theorem isMutex_mono (h : actions.Over schemas strict source)
    (h' : actions'.Over schemas strict source') (hreg : ∀ s ∈ schemas, s.Regular)
    (hb : source.Below source') {s t : Step} (hs : actions.steps.contains s = true)
    (ht : actions.steps.contains t = true) (hst : actions'.isMutex s t = true) :
    actions.isMutex s t = true := by
  obtain ⟨-, -, hne, hconflict⟩ := (h'.isMutex_iff s t).1 hst
  refine (h.isMutex_iff s t).2 ⟨hs, ht, hne, ?_⟩
  rcases hconflict with hc | hc | ⟨hstrict, f, hf, g, hg, hfg⟩
  · exact .inl hc
  · exact .inr (.inl hc)
  · exact .inr (.inr ⟨hstrict, f, hf, g, hg, hb.isMutex f (h.preconditions hreg hs f hf) g
      (h.preconditions hreg ht g hg) hfg⟩)

/-! Over layers that are below each other there are the same steps, and the same pairs of them are
excluded. -/

theorem contains_eq (h : actions.Over schemas strict source)
    (h' : actions'.Over schemas strict source') (hreg : ∀ s ∈ schemas, s.Regular)
    (hb : source.Below source') (hb' : source'.Below source) (s : Step) :
    actions.steps.contains s = actions'.steps.contains s :=
  Bool.eq_iff_iff.2 ⟨h.contains_mono h' hreg hb, h'.contains_mono h hreg hb'⟩

theorem isMutex_eq (h : actions.Over schemas strict source)
    (h' : actions'.Over schemas strict source') (hreg : ∀ s ∈ schemas, s.Regular)
    (hb : source.Below source') (hb' : source'.Below source) (s t : Step) :
    actions.isMutex s t = actions'.isMutex s t := by
  have hcontains := h.contains_eq h' hreg hb hb'
  refine Bool.eq_iff_iff.2 ⟨fun hst => ?_, fun hst => ?_⟩
  · obtain ⟨hs, ht, -⟩ := (h.isMutex_iff s t).1 hst
    exact h'.isMutex_mono h hreg hb' (hcontains s ▸ hs) (hcontains t ▸ ht) hst
  · obtain ⟨hs, ht, -⟩ := (h'.isMutex_iff s t).1 hst
    exact h.isMutex_mono h' hreg hb (hcontains s ▸ hs) (hcontains t ▸ ht) hst

end ActionLayer.Over

theorem FactLayer.After.mono {actions actions' : ActionLayer} {schemas : List Schema}
    {strict : Bool} {source source' layer layer' : FactLayer} {support support' : Index Fact Step}
    (h : layer.After support actions) (h' : layer'.After support' actions')
    (hover : actions.Over schemas strict source) (hover' : actions'.Over schemas strict source')
    (hreg : ∀ s ∈ schemas, s.Regular) (hb : source.Below source') : layer.Below layer' := by
  have hstep : ∀ {f : Fact} {s : Step}, s ∈ actions.steps → f ∈ s.added →
      ∃ s' ∈ actions'.steps, (s == s') = true ∧ f ∈ s'.added := by
    intro f s hs hf
    have hcontains := hover.contains_mono hover' hreg hb (List.elem_eq_true_of_mem hs)
    obtain ⟨s', hs', hss⟩ := List.contains_iff_exists_mem_beq.1 hcontains
    exact ⟨s', hs', hss, (Step.mem_added_of_beq hss).1 hf⟩
  have hmem : ∀ f ∈ layer.facts, f ∈ layer'.facts := by
    intro f hf
    obtain ⟨s, hs, hfs⟩ := (h.mem_facts f).1 hf
    obtain ⟨s', hs', -, hfs'⟩ := hstep hs hfs
    exact (h'.mem_facts f).2 ⟨s', hs', hfs'⟩
  refine ⟨hmem, fun f hf g hg hfg => (h.isMutex_iff f g).2 ⟨hf, hg, fun s hs hfs t ht hgt => ?_⟩⟩
  obtain ⟨s', hs', hss, hfs'⟩ := hstep hs hfs
  obtain ⟨t', ht', htt, hgt'⟩ := hstep ht hgt
  refine hover.isMutex_mono hover' hreg hb (List.elem_eq_true_of_mem hs)
    (List.elem_eq_true_of_mem ht) ?_
  rw [actions'.isMutex_congr hss htt]
  exact ((h'.isMutex_iff f g).1 hfg).2.2 s' hs' hfs' t' ht' hgt'

/-! ### Levels -/

namespace Level

/-- A level that was derived from the one before. -/
def Follows (schemas : List Schema) (strict : Bool) (newer older : Level) : Prop :=
  ∃ actions, newer.actions = some actions ∧ actions.Over schemas strict older.facts ∧
    newer.facts.After newer.support actions

/-- A level that was built over the facts of the one before. -/
def Derives (schemas : List Schema) (strict : Bool) (newer older : Level) : Prop :=
  ∃ actions effects, older.facts.buildActions schemas strict [] = .ok (actions, effects) ∧
    newer.actions = some actions ∧ actions.buildFacts [] = (newer.facts, newer.support)

/-- The next level is built over the newest one, and nothing is known to be out of reach there. -/
theorem derives_of_nextLevel {g : Graph} {newest level : Level}
    (h : g.nextLevel newest = .ok level) :
    level.Derives g.schemas g.strict newest ∧ level.noGoods = [] := by
  rw [Graph.nextLevel] at h
  rcases hb : newest.facts.buildActions g.schemas g.strict [] with e | ⟨actions, effects⟩
  · rw [hb] at h
    cases h
  · rw [hb] at h
    cases h
    exact ⟨⟨actions, effects, hb, rfl, rfl⟩, rfl⟩

/-- **A level that is built over another one follows it.** -/
theorem Derives.follows {schemas : List Schema} {strict : Bool} {newer older : Level}
    (h : newer.Derives schemas strict older) (hs : older.facts.Sound) :
    newer.Follows schemas strict older := by
  obtain ⟨actions, effects, hbuild, hactions, hfacts⟩ := h
  have hover := FactLayer.over_of_buildActions hs.tidy hbuild
  have hafter := ActionLayer.after_buildFacts (hover.isMutex_comm hs)
    fun s => hover.isMutex_eq_false BEq.rfl
  rw [hfacts] at hafter
  exact ⟨actions, hactions, hover, hafter⟩

/-- **There is a next level**, unless a fact of the newest one cannot be kept. -/
theorem exists_of_nextLevel_eq_error {g : Graph} (hreg : ∀ s ∈ g.schemas, s.Regular)
    {newest : Level} {e : LayerError} (h : g.nextLevel newest = .error e) :
    ∃ f ∈ newest.facts.facts, ∃ cause, Step.keep f = .error cause ∧ e = .schema cause := by
  rw [Graph.nextLevel] at h
  rcases hb : newest.facts.buildActions g.schemas g.strict [] with e' | built
  · rw [hb] at h
    cases h
    exact FactLayer.exists_of_buildActions_eq_error hreg hb
  · rw [hb] at h
    cases h

variable {schemas : List Schema} {strict : Bool} {newer older newer' older' : Level}

theorem Follows.sound (h : newer.Follows schemas strict older) : newer.facts.Sound := by
  obtain ⟨_, -, -, hafter⟩ := h
  exact hafter.sound

theorem Follows.below (h : newer.Follows schemas strict older) : older.facts.Below newer.facts := by
  obtain ⟨_, -, hover, hafter⟩ := h
  exact hafter.below hover

/-- **A level derived from a higher level is higher.** -/
theorem Follows.mono (h : newer.Follows schemas strict older)
    (h' : newer'.Follows schemas strict older') (hreg : ∀ s ∈ schemas, s.Regular)
    (hb : older.facts.Below older'.facts) : newer.facts.Below newer'.facts := by
  obtain ⟨_, -, hover, hafter⟩ := h
  obtain ⟨_, -, hover', hafter'⟩ := h'
  exact hafter.mono hafter' hover hover' hreg hb

end Level

end Strips
