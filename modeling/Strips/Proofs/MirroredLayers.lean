import Strips.Proofs.BuiltLayers
import Strips.Proofs.Correspondence
import Strips.Proofs.DerivedFacts
import Strips.Proofs.Orders

/-!
# Layers of facts on a workbench

A literal without cells says one fact, whatever the arena of the workbench is. So a layer that is
made of facts mirrors a fact layer as it stands, and what is derived from it mirrors what is derived
from that layer: the actions over it, and the facts that follow them.

Literals without cells are those that are constant in an arena without cells. What is said under
this arena, about literals, about actions or about pairs, holds on every workbench.

## Main definitions

* `Workbench.HoldsFacts`, `Workbench.HoldsActions`, `Workbench.HoldsIndex` – an object mirrors a
  fact layer, an action layer or an index of steps.
* `Workbench.KeepsLayers` – of the objects that are there, only levels and graphs change.

## Main results

* `Workbench.sameFactLayers_eq`, `Workbench.supports_eq` – questions about fact layers.
* `Bench.gives_buildActions_mirrored` – the action layer over a mirrored layer.
* `Bench.gives_buildFacts_mirrored` – the fact layer that follows.
-/

namespace Strips

/-! ### Literals without cells -/

/-- Such a literal is the fact that it is shown as. -/
theorem Literal.eq_literal_shown {l : Literal} (hl : l.isConstant .empty = true) :
    l = (l.shown .empty).literal := by
  have hresolve := l.resolve_of_isConstant (c := {}) (a := .empty) (fun _ => nofun) hl
  rw [← hresolve]
  refine congrArg (Literal.mk l.name) ((List.map_id l.terms).symm.trans ?_)
  refine List.map_congr_left fun t ht => ?_
  cases t with
  | const v => rfl
  | cell i => cases List.all_eq_true.1 hl _ ht

theorem Literal.cells_of_isConstant {l : Literal} (hl : l.isConstant .empty = true) :
    l.cells = [] := by
  rw [l.eq_literal_shown hl]
  simp [Literal.cells, Fact.literal]

/-- A fact as it is said. -/
def Fact.saying (f : Fact) : Saying := ⟨f.literal, f.literal⟩

namespace Workbench

variable {b b' : Workbench}

theorem keeps_empty (b : Workbench) : b.Keeps .empty := fun _ => nofun

/-- What a fact says does not depend on the workbench. -/
theorem saying_literal (b : Workbench) (f : Fact) : b.saying f.literal = f.saying := by
  rw [saying, Literal.resolve_of_isConstant b.keeps_empty f.isConstant_literal, f.shown_literal]
  rfl

theorem sayings_literals (b : Workbench) (facts : List Fact) :
    b.sayings ⟨facts.map Fact.literal⟩ = facts.map Fact.saying := by
  rw [sayings, List.map_map]
  exact List.map_congr_left fun f _ => b.saying_literal f

/-- What literals without cells say now. -/
theorem sayings_eq {s : LiteralSet} (hs : ∀ l ∈ s.members, l.isConstant .empty = true) :
    b.sayings s = (s.members.map (·.shown .empty)).map Fact.saying := by
  rw [← sayings_literals, List.map_map]
  refine congrArg b.sayings (congrArg LiteralSet.mk ?_)
  conv_lhs => rw [← List.map_id s.members]
  exact List.map_congr_left fun l hl => Literal.eq_literal_shown (hs l hl)

end Workbench

/-! ### Objects that mirror layers

A layer object refers to actions and files by their handles, so it mirrors a layer only as long as
these stay. Building the next layer adds objects and changes the files that were made for it, and a
search changes levels and graphs. What is said below of an object therefore holds on every later
workbench on which only levels and graphs are others (`KeepsLayers`). -/

namespace Workbench

/-- An object holds the facts of a layer, as literals without cells, and the pairs that exclude each
other. -/
def HoldsFacts (b : Workbench) (h : Handle) (layer : FactLayer) : Prop :=
  ∃ x, b.items[h]? = some (.factLayer ⟨layer.facts.map Fact.literal⟩ x) ∧
    x.Says .empty layer.mutexes

/-- An object holds actions that say the steps of a layer, and the pairs that exclude each other. -/
def HoldsActions (b : Workbench) (h : Handle) (layer : ActionLayer) : Prop :=
  ∃ actions x r, b.items[h]? = some (.actionLayer actions x) ∧
    List.Forall₂ (b.IsStep .empty) actions layer.steps ∧ x.Relates b .empty r ∧
    ∀ s t, r.contains s t = layer.isMutex s t

/-- A file holds the actions that an index holds as steps. -/
def HoldsIndex (b : Workbench) (h : Handle) (index : Index Fact Step) : Prop :=
  ∃ f, b.items[h]? = some (.file f) ∧ List.Forall₂ (b.Files .empty) f.filings index

/-- Of the objects that are there, only levels and graphs change. -/
def KeepsLayers (b b' : Workbench) : Prop :=
  ∀ ⦃h : Handle⦄ ⦃it : Item⦄, b.items[h]? = some it → (∀ l, it ≠ .level l) → (∀ g, it ≠ .graph g) →
    b'.items[h]? = some it

variable {b b' : Workbench} {h : Handle}

theorem KeepsLayers.trans {b'' : Workbench} (hb : b.KeepsLayers b') (hb' : b'.KeepsLayers b'') :
    b.KeepsLayers b'' := fun _ _ hit hlevel hgraph => hb' (hb hit hlevel hgraph) hlevel hgraph

theorem Leaves.keepsLayers {hs : List Handle} (hb : b.Leaves b' hs)
    (hhs : ∀ k ∈ hs, ∀ it, b.items[k]? = some it → (∃ l, it = .level l) ∨ ∃ g, it = .graph g) :
    b.KeepsLayers b' := by
  intro k it hit hlevel hgraph
  refine hb hit fun hk => ?_
  rcases hhs k hk it hit with ⟨l, rfl⟩ | ⟨g, rfl⟩
  · exact hlevel l rfl
  · exact hgraph g rfl

theorem KeepsLayers.keepsActions (hb : b.KeepsLayers b') : b.KeepsActions b' :=
  fun _ _ hx => hb hx (fun _ => Item.noConfusion) fun _ => Item.noConfusion

theorem HoldsFacts.mono {layer : FactLayer} (hlayer : b.HoldsFacts h layer)
    (hb : b.KeepsLayers b') : b'.HoldsFacts h layer := by
  obtain ⟨x, hitem, hx⟩ := hlayer
  exact ⟨x, hb hitem (fun _ => Item.noConfusion) (fun _ => Item.noConfusion), hx⟩

theorem HoldsActions.mono {layer : ActionLayer} (hlayer : b.HoldsActions h layer)
    (hb : b.KeepsLayers b') : b'.HoldsActions h layer := by
  obtain ⟨actions, x, r, hitem, hactions, hx, hr⟩ := hlayer
  exact ⟨actions, x, r, hb hitem (fun _ => Item.noConfusion) (fun _ => Item.noConfusion),
    hactions.imp fun _ _ => IsStep.mono hb.keepsActions, hx.mono hb.keepsActions, hr⟩

theorem HoldsIndex.mono {index : Index Fact Step} (hindex : b.HoldsIndex h index)
    (hb : b.KeepsLayers b') : b'.HoldsIndex h index := by
  obtain ⟨f, hitem, hfilings⟩ := hindex
  exact ⟨f, hb hitem (fun _ => Item.noConfusion) (fun _ => Item.noConfusion),
    hfilings.imp fun _ _ => Files.mono hb.keepsActions⟩

end Workbench

/-! ### Questions about fact layers

Two literals exclude each other if there is a pair that says their facts. A question about two
literals looks into the rows, and a comparison of two layers goes through the pairs. -/

namespace Exclusions.Says

variable {a : Arena} {x : Exclusions} {r : PairRelation Fact} (hx : x.Says a r)

include hx

theorem tidy_relation : r.Tidy := by
  induction hx with
  | empty => exact PairRelation.tidy_empty
  | insert _ _ _ _ ih => exact ih.add _ _

/-- There are as many pairs as in the relation. -/
theorem length_pairs : x.pairs.length = r.size := by
  induction hx with
  | empty => rfl
  | @insert x r c l m hx hc hl hm ih =>
    have hcontains := hx.contains hc hl hm
    cases hknown : x.contains c (.literal l) (.literal m) with
    | true =>
      have hx' : x.insert c (.literal l) (.literal m) = x := if_pos hknown
      have hr : r.add (l.shown a) (m.shown a) = r := if_pos (hcontains.symm.trans hknown)
      rw [hx', hr, ih]
    | false =>
      have hnew : x.finds c (c.exclusion (.literal l) (.literal m)) = false := hknown
      rw [hx.tidy_relation.size_add (hcontains.symm.trans hknown), Exclusions.insert, hnew,
        if_neg Bool.false_ne_true, List.length_cons, ih]

/-- Two relations are compared pair by pair. -/
theorem same_eq {y : Exclusions} {q : PairRelation Fact} (hy : y.Says a q) {c : Workbench}
    (hc : c.Keeps a) : x.same c y = r.same q := by
  obtain ⟨pairs, hpairs, hmem⟩ := hx.exists_pairs
  have hfinds : x.pairs.all (y.finds c) = pairs.all fun p => q.contains p.1 p.2 := by
    refine all_eq_of_forall₂ (fun e p he => ?_) hpairs
    obtain ⟨l, m, rfl, hl, hm, hlp, hmp⟩ := he
    rw [← Workbench.exclusion_literal hc hl hm, ← hlp, ← hmp]
    exact hy.contains hc hl hm
  have hlisted : (pairs.all fun p => q.contains p.1 p.2) =
      r.pairs.all fun p => q.contains p.1 p.2 := by
    have hsub : ∀ ps : List (Fact × Fact),
        (∀ f g, (f, g) ∈ ps ∨ (g, f) ∈ ps ↔ r.contains f g = true) →
        ((ps.all fun p => q.contains p.1 p.2) = true ↔
          ∀ f g, r.contains f g = true → q.contains f g = true) := by
      intro ps hps
      rw [List.all_eq_true]
      refine ⟨fun hall f g hfg => ?_, fun hall p hp => hall _ _ ((hps _ _).1 (.inl hp))⟩
      rcases (hps f g).2 hfg with hfg | hgf
      · exact hall _ hfg
      · rw [hy.tidy_relation.symm]
        exact hall _ hgf
    rw [Bool.eq_iff_iff, hsub pairs hmem,
      hsub r.pairs fun f g => hx.tidy_relation.contains_iff_mem_pairs.symm]
  rw [Exclusions.same, PairRelation.same, hx.length_pairs, hy.length_pairs, hfinds, hlisted]

end Exclusions.Says

namespace Workbench

variable {b : Workbench} {layer other : FactLayer} {x y : Exclusions}
  (hx : x.Says .empty layer.mutexes)

include hx

/-- Two objects are the same layer if the layers are that they mirror. -/
theorem sameFactLayers_eq (hy : y.Says .empty other.mutexes) :
    Bench.sameFactLayers b (⟨layer.facts.map Fact.literal⟩, x)
      (⟨other.facts.map Fact.literal⟩, y) = layer.same other := by
  rw [Bench.sameFactLayers, LiteralSet.sameMembers, LiteralSet.containsAll, FactLayer.same,
    hx.same_eq hy b.keeps_empty, List.length_map, List.length_map, List.all_map]
  simp only [Function.comp_def, LiteralSet.contains_literals]

/-- Both layers support the same goals. -/
theorem supports_eq (goals : List Fact) :
    b.supports (b.sayings ⟨layer.facts.map Fact.literal⟩) x (goals.map Fact.saying) =
      layer.supports goals := by
  have hholds : ∀ f : Fact, (layer.facts.map Fact.saying).contains f.saying =
      layer.facts.contains f := by
    intro f
    rw [List.contains_eq_any_beq, List.contains_eq_any_beq, List.any_map]
    refine congrArg (List.any layer.facts) (funext fun g => ?_)
    show (f.literal == g.literal) = (f == g)
    rw [Bool.eq_iff_iff, beq_iff_eq, beq_iff_eq, Fact.literal_injective.eq_iff]
  have hexcludes : ∀ f g : Fact,
      x.contains b (.literal f.saying.literal) (.literal g.saying.literal) =
        layer.isMutex f g := by
    intro f g
    rw [Fact.saying, Fact.saying, hx.contains b.keeps_empty f.isConstant_literal
      g.isConstant_literal, f.shown_literal, g.shown_literal]
    rfl
  rw [sayings_literals, supports, FactLayer.supports, FactLayer.hasMutexPair, pairsWithin_map,
    List.all_map, List.any_map]
  simp only [Function.comp_def, hholds, hexcludes]

end Workbench

/-! ### The actions over a fact layer

What the builder of action layers does was described by steps and conflicts, for any literals that a
layer has. Here this is put together to the layer that the graph builds. -/

/-- A traversal succeeds if it does so at every item. -/
theorem mapM_eq_ok_of_forall₂ {ε α β : Type} {f : α → Except ε β} {xs : List α} {ys : List β}
    (h : List.Forall₂ (fun x y => f x = .ok y) xs ys) : xs.mapM f = .ok ys := by
  induction h with
  | nil => rfl
  | cons hxy _ ih =>
    rw [List.mapM_cons, hxy, ih]
    rfl

/-- The pairs that are found are those of the layer, whatever list the pairs of facts stand in. -/
theorem ActionLayer.contains_foundRelation_eq {source : FactLayer} (hsource : source.mutexes.Tidy)
    {strict : Bool} {needed : List (Fact × Fact)} (hneeded : source.NeededPairs strict needed)
    (steps : List Step) (s t : Step) :
    (foundRelation steps needed).contains s t =
      (findMutexes { steps } (if strict then some source else none)
        (ActionLayer.effects { steps })).isMutex s t := by
  rw [Bool.eq_iff_iff, isMutex_findMutexes hsource, foundRelation,
    PairRelation.contains_addAll PairRelation.isSymm_empty,
    exists_joins_foundPairs_iff hsource.symm (fun _ => mem_steps_of_mem_effects)
      (registers_foldl_fileEffects steps []) hneeded]
  exact or_iff_right Bool.false_ne_true

namespace Bench

variable {b : Workbench}

/-- **The action layer over a mirrored layer** mirrors the action layer over the facts; if a fact
cannot be kept, both fail. -/
theorem gives_buildActions_mirrored (hsound : b.arena.Sound) {layer : Handle} {source : FactLayer}
    (hlayer : b.HoldsFacts layer source) {schemas : List Schema} {handles : List Handle}
    (hbuilt : ∀ s ∈ schemas, s.Built)
    (hschemas : List.Forall₂ (fun s h => b.Carries h s) schemas handles) (strict : Bool) :
    (∃ e, source.buildActions schemas strict [] = .error (.schema e) ∧
      Fails (buildActions layer handles none strict) b (.schema e)) ∨
    ∃ actions effects handle b', source.buildActions schemas strict [] = .ok (actions, effects) ∧
      Gives (buildActions layer handles none strict) b handle b' ∧ b'.HoldsActions handle actions ∧
      b'.arena.Sound ∧ List.Forall₂ (fun s h => b'.Carries h s) schemas handles ∧
      b.Leaves b' [] := by
  obtain ⟨x, hitem, hx⟩ := hlayer
  have hconstant : ∀ l ∈ source.facts.map Fact.literal, l.isConstant .empty = true := by
    intro l hl
    obtain ⟨f, -, rfl⟩ := List.mem_map.1 hl
    exact f.isConstant_literal
  have hfacts : (source.facts.map Fact.literal).map (·.shown .empty) = source.facts := by
    rw [List.map_map]
    exact List.map_id'' (fun f => f.shown_literal .empty) source.facts
  have hnone := Schema.find?_isInstance fun s hs => (hbuilt s hs).regular
  have hfile : ∀ d ∈ (none : Option Handle), b.items[d]? = some (.file {}) := nofun
  rcases buildActions_cases hsound (.empty b.arena) hitem hconstant hx hfacts hbuilt
      (hschemas.imp fun _ _ hs => hs.apart hitem) hfile strict with
    ⟨-, e, hfails, hrefused⟩ | ⟨noops, handle, b', hgives, hlayer⟩
  · refine .inl ⟨e, ?_, hfails⟩
    rw [FactLayer.buildActions, hrefused fun l hl => Literal.cells_of_isConstant (hconstant l hl)]
  · obtain ⟨needed, actions, y, hneeded, hready, hitem', hy⟩ := hlayer.actions
    let steps := noops ++ source.allInstances schemas strict
    have hactions : source.buildActions schemas strict [] =
        .ok (ActionLayer.findMutexes { steps } (if strict then some source else none)
          (ActionLayer.effects { steps }), ActionLayer.effects { steps }) := by
      rw [FactLayer.buildActions, mapM_eq_ok_of_forall₂ hlayer.keeps, hnone]
      rfl
    refine .inr ⟨_, _, handle, b', hactions, hgives, ⟨actions, y, _, hitem', ?_, hy, ?_⟩,
      hlayer.sound, hlayer.carries, hlayer.leaves⟩
    · rw [ActionLayer.steps_findMutexes]
      exact hready.actions
    · exact ActionLayer.contains_foundRelation_eq hx.tidy_relation hneeded _

/-! ### The facts after some actions

Actions are filed under the facts that they add, the facts are sorted, and then each pair of them is
looked at. On the graph this is done by lists, and on the workbench by one object after another; a
loop over objects is compared with the fold over lists by induction on the list. -/

/-- One fact after the other is put into a layer, unless it is there. -/
theorem gives_insertFact {h : Handle} {layer : FactLayer} {x : Exclusions}
    (hitem : b.items[h]? = some (.factLayer ⟨layer.facts.map Fact.literal⟩ x)) (f : Fact) :
    Gives (insertFact h f.literal) b (!layer.facts.contains f)
      { b with
        items := b.items.setIfInBounds h
          (.factLayer ⟨(layer.insert f).facts.map Fact.literal⟩ x) } := by
  have hinsert : (⟨layer.facts.map Fact.literal⟩ : LiteralSet).insert b.arena f.literal =
      ⟨(layer.insert f).facts.map Fact.literal⟩ := by
    rw [LiteralSet.insert, LiteralSet.contains_literals, FactLayer.insert]
    split
    · rfl
    · rw [List.map_append]
      rfl
  refine gives_arena.bind ((gives_factLayer hitem).bind ?_)
  rw [f.isGround_literal, ← hinsert, ← LiteralSet.contains_literals b.arena]
  exact (gives_put _ _).bind (gives_pure _)

theorem gives_forM_insertFact {h : Handle} {x : Exclusions} : ∀ {facts : List Fact}
    {layer : FactLayer} {b : Workbench},
    b.items[h]? = some (.factLayer ⟨layer.facts.map Fact.literal⟩ x) →
    ∃ b', Gives ((facts.map Fact.literal).forM fun l => do let _ ← insertFact h l) b () b' ∧
      b'.arena = b.arena ∧ b.Leaves b' [h] ∧ b'.items[h]? =
        some (.factLayer ⟨(facts.foldl FactLayer.insert layer).facts.map Fact.literal⟩ x)
  | [], _, b, hitem => ⟨b, gives_pure (), rfl, .refl b _, hitem⟩
  | f :: facts, layer, b, hitem => by
    have hfirst := gives_insertFact hitem f
    have hleaves := b.leaves_set h (.factLayer ⟨(layer.insert f).facts.map Fact.literal⟩ x)
    obtain ⟨b', hrest, harena, hleaves', hlast⟩ :=
      gives_forM_insertFact (b := { b with
        items := b.items.setIfInBounds h
          (.factLayer ⟨(layer.insert f).facts.map Fact.literal⟩ x) })
        (Workbench.getElem?_set_self hitem _)
    exact ⟨b', gives_forM_cons (hfirst.bind (gives_pure ())) hrest, harena,
      (hleaves.trans hleaves').subset (by simp), hlast⟩

/-- **A layer of facts** is a new object. -/
theorem gives_factLayerOf (b : Workbench) (facts : List Fact) :
    ∃ b', Gives (factLayerOf (facts.map Fact.literal)) b b.items.size b' ∧ b'.arena = b.arena ∧
      b.Leaves b' [] ∧ b'.items[b.items.size]? =
        some (.factLayer ⟨(FactLayer.ofList facts).facts.map Fact.literal⟩ {}) := by
  have hempty : (b.items.push (.factLayer {} {}))[b.items.size]? =
      some (.factLayer ⟨({} : FactLayer).facts.map Fact.literal⟩ {}) := Array.getElem?_push_size
  obtain ⟨b', hgives, harena, hleaves, hlast⟩ :=
    gives_forM_insertFact (b := { b with items := b.items.push (.factLayer {} {}) }) hempty
  exact ⟨b', (gives_add _).bind (hgives.bind (gives_pure _)), harena,
    (b.leaves_push _).of_new hleaves, hlast⟩

/-- Filing several actions, each under what it adds. -/
theorem gives_forM_fileAdded {into : Handle} : ∀ {handles : List Handle} {steps : List Step}
    {b : Workbench}, List.Forall₂ (b.IsStep .empty) handles steps → ∀ {f : FileItem},
      b.items[into]? = some (.file f) → ∀ {index : Index Fact Step},
      List.Forall₂ (b.Files .empty) f.filings index →
      ∃ b', Gives (handles.forM fun h => do fileIn into h (← action h).positive.members) b () b' ∧
        b'.arena = b.arena ∧ b.Leaves b' [into] ∧ ∃ g, b'.items[into]? = some (.file g) ∧
          List.Forall₂ (b'.Files .empty) g.filings (Index.fileAll Step.added steps index) := by
  intro handles
  induction handles with
  | nil =>
    intro steps b hsteps f hinto index hf
    cases hsteps
    exact ⟨b, gives_pure (), rfl, .refl b _, f, hinto, hf⟩
  | cons h handles ih =>
    intro steps b hsteps f hinto index hf
    obtain ⟨t, steps, ⟨x, hx, hmeans⟩, hrest, rfl⟩ := List.forall₂_cons_left_iff.1 hsteps
    obtain ⟨b₁, hfile, harena, hleaves, g, hg, -, hfiles⟩ := gives_fileIn_files b.keeps_empty hx
      hmeans (fun l hl => hmeans.constant l (Action.mem_literals.2 (.inr (.inr hl)))) hinto hf
    rw [hmeans.added] at hfiles
    have hkeeps := hleaves.keepsActions (by simp [hinto])
    obtain ⟨b₂, hfiles', harena', hleaves', hlast⟩ :=
      ih (hrest.imp fun _ _ => Workbench.IsStep.mono hkeeps) hg hfiles
    exact ⟨b₂, gives_forM_cons ((gives_action hx).bind hfile) hfiles', harena'.trans harena,
      (hleaves.trans hleaves').subset (by simp), hlast⟩

/-- Facts have one sorted form. -/
theorem mergeSort_eq_sort (facts : List Fact) : facts.mergeSort Fact.le = Fact.sort facts := by
  have htrans : ∀ f g h : Fact, f.le g = true → g.le h = true → f.le h = true :=
    fun _ _ _ => Fact.le_trans
  have htotal : ∀ f g : Fact, (f.le g || g.le f) = true := fun f g =>
    (Bool.or_eq_true _ _).mpr (f.le_total g)
  exact ((List.mergeSort_perm _ _).trans (Fact.sort_perm _).symm).eq_of_pairwise
    (fun f g _ _ => Fact.le_antisymm) (List.pairwise_mergeSort htrans htotal _)
    (Fact.sort_pairwise _)

/-- The facts of an index, in order. -/
theorem sorted_filings {filings : List Filing} {index : Index Fact Step}
    (h : List.Forall₂ (b.Files .empty) filings index) :
    ((filings.map Filing.literal).mergeSort fun l m => l.compare b.arena m != .gt) =
      (Fact.sort index.keys).map Fact.literal := by
  have hliterals : filings.map Filing.literal = index.keys.map Fact.literal := by
    induction h with
    | nil => rfl
    | cons hf _ ih =>
      rw [List.map_cons, ih, Literal.eq_literal_shown hf.constant, hf.shown]
      rfl
  have hle : ∀ f ∈ index.keys, ∀ g ∈ index.keys,
      f.le g = (f.literal.compare b.arena g.literal != .gt) := by
    intro f _ g _
    have horder : (f.literal.compare b.arena g.literal).isLE = true ↔ f.le g = true :=
      Literal.isLE_compare_iff
    rw [Bool.eq_iff_iff, ← horder]
    cases f.literal.compare b.arena g.literal <;> decide
  rw [hliterals, ← List.map_mergeSort hle]
  exact congrArg (List.map Fact.literal) (mergeSort_eq_sort index.keys)

/-- What is filed under a fact of an index. -/
theorem exists_filing? {filings : List Filing} {index : Index Fact Step}
    (h : List.Forall₂ (b.Files .empty) filings index) {f : Fact} (hf : f ∈ index.keys) :
    ∃ filing, b.filing? filings f.literal = some filing ∧
      List.Forall₂ (b.IsStep .empty) filing.actions (index.lookup f) := by
  induction h with
  | nil => cases hf
  | @cons filing row filings index hrow _ ih =>
    have hmeets := hrow.meets_eq b.keeps_empty f.isConstant_literal
    rw [f.shown_literal] at hmeets
    rw [Workbench.filing?, List.find?_cons, hmeets, Index.lookup, List.find?_cons]
    cases heq : row.1 == f with
    | true => exact ⟨filing, rfl, hrow.actions⟩
    | false =>
      refine ih ((List.mem_cons.1 hf).resolve_left fun hne => ?_)
      rw [hne, BEq.rfl] at heq
      cases heq

/-- A fact as a literal, and the actions that support it, as steps. -/
def Supported (b : Workbench) (x : Literal × List Actor) (y : Fact × List Step) : Prop :=
  x.1 = y.1.literal ∧ List.Forall₂ (b.Enacts .empty) x.2 y.2

/-- The facts with what supports them. -/
theorem gives_supported {filings : List Filing} {index : Index Fact Step}
    (h : List.Forall₂ (b.Files .empty) filings index) (b' : Workbench) : ∀ {facts : List Fact},
    (∀ f ∈ facts, f ∈ index.keys) →
    ∃ supported, Gives ((facts.map Fact.literal).mapM fun l =>
        match b.filing? filings l with
        | some f => (Pure.pure (l, b.actors f.actions) : Bench (Literal × List Actor))
        | none => throw (.absent (l.text b.arena))) b' supported b' ∧
      List.Forall₂ (Supported b) supported (facts.map fun f => (f, index.lookup f))
  | [], _ => ⟨[], gives_pure [], .nil⟩
  | f :: facts, hfacts => by
    obtain ⟨filing, hfiling, hactions⟩ := exists_filing? h (hfacts f List.mem_cons_self)
    obtain ⟨supported, hgives, hsupported⟩ :=
      gives_supported h b' fun g hg => hfacts g (List.mem_cons_of_mem f hg)
    refine ⟨(f.literal, b.actors filing.actions) :: supported, ?_,
      .cons ⟨rfl, Workbench.forall₂_actors hactions⟩ hsupported⟩
    rw [List.map_cons, List.mapM_cons, hfiling]
    exact (gives_pure _).bind (hgives.bind (gives_pure _))

/-- Whether two facts have compatible supporters. -/
theorem compatible_eq {x : Exclusions} {r : PairRelation Step} (hx : x.Relates b .empty r)
    {layer : ActionLayer} (hr : ∀ s t, r.contains s t = layer.isMutex s t) {xs ys : List Actor}
    {ss ts : List Step} (hxs : List.Forall₂ (b.Enacts .empty) xs ss)
    (hys : List.Forall₂ (b.Enacts .empty) ys ts) :
    b.compatible x xs ys = layer.compatible ss ts := by
  refine any_eq_of_forall₂ (fun p s hps => any_eq_of_forall₂ (fun q t hqt => ?_) hys) hxs
  rw [Exclusions.containsActions, hx.contains (fun _ _ => id) hps.isStep hqt.isStep, hr]

/-- The pairs of facts that no two compatible actions support. -/
theorem gives_forM_addMutex {x : Exclusions} {r : PairRelation Step} (hx : x.Relates b .empty r)
    {layer : ActionLayer} (hr : ∀ s t, r.contains s t = layer.isMutex s t) {h : Handle}
    {facts : LiteralSet} {ps : List ((Literal × List Actor) × (Literal × List Actor))}
    {qs : List ((Fact × List Step) × (Fact × List Step))}
    (hps : List.Forall₂ (fun p q => Supported b p.1 q.1 ∧ Supported b p.2 q.2) ps qs) :
    ∀ {b' : Workbench} {y : Exclusions} {q : PairRelation Fact},
      b'.items[h]? = some (.factLayer facts y) → y.Says .empty q →
      ∃ b'' y', Gives (ps.forM fun ((l, xs), (m, ys)) => do
          if !b.compatible x xs ys then addMutex h (.literal l) (.literal m)) b' () b'' ∧
        b''.arena = b'.arena ∧ b'.Leaves b'' [h] ∧ b''.items[h]? = some (.factLayer facts y') ∧
        y'.Says .empty (q.addAll
          ((qs.filter fun (u, v) => !layer.compatible u.2 v.2).map fun (u, v) => (u.1, v.1))) := by
  induction hps with
  | nil => exact fun hitem hy => ⟨_, _, gives_pure (), rfl, .refl _ _, hitem, hy⟩
  | @cons p pq ps qs hp _ ih =>
    intro b' y q hitem hy
    obtain ⟨⟨l, xs⟩, ⟨m, ys⟩⟩ := p
    obtain ⟨⟨f, ss⟩, ⟨g, ts⟩⟩ := pq
    obtain ⟨⟨hl, hxs⟩, ⟨hm, hys⟩⟩ := hp
    obtain rfl : l = f.literal := hl
    obtain rfl : m = g.literal := hm
    have hcompatible : b.compatible x xs ys = layer.compatible ss ts := compatible_eq hx hr hxs hys
    cases hc : layer.compatible ss ts with
    | true =>
      rw [List.filter_cons_of_neg (by simp [hc])]
      obtain ⟨b'', y', hgives, hrest⟩ := ih hitem hy
      refine ⟨b'', y', gives_forM_cons ?_ hgives, hrest⟩
      simp only [hcompatible, hc]
      exact gives_pure ()
    | false =>
      rw [List.filter_cons_of_pos (by simp [hc])]
      let new := y.insert b' (.literal f.literal) (.literal g.literal)
      let b₁ : Workbench := { b' with items := b'.items.setIfInBounds h (.factLayer facts new) }
      have hnew : new.Says .empty (q.add f g) := by
        have := Exclusions.Says.insert hy b'.keeps_empty f.isConstant_literal g.isConstant_literal
        rwa [f.shown_literal, g.shown_literal] at this
      have hitem₁ : b₁.items[h]? = some (.factLayer facts new) :=
        Workbench.getElem?_set_self hitem _
      obtain ⟨b'', y', hgives, harena, hleaves, hrest⟩ := ih hitem₁ hnew
      refine ⟨b'', y', gives_forM_cons ?_ hgives, harena,
        ((b'.leaves_set h _).trans hleaves).subset (by simp), hrest⟩
      simp only [hcompatible, hc]
      exact gives_get.bind ((gives_item hitem).bind (gives_put _ _))

/-- **The fact layer that follows** mirrored actions mirrors the facts that follow the steps, and
the file that was given holds what supports them. -/
theorem gives_buildFacts_mirrored {handle into : Handle} {layer : ActionLayer}
    (hlayer : b.HoldsActions handle layer) (hinto : b.items[into]? = some (.file {})) :
    ∃ h b', Gives (buildFacts handle (some into)) b h b' ∧ b'.arena = b.arena ∧ b.Leaves b' [into] ∧
      b'.HoldsActions handle layer ∧ b'.HoldsFacts h (layer.buildFacts []).1 ∧
      b'.HoldsIndex into (layer.buildFacts []).2 := by
  obtain ⟨actions, x, r, hitem, hactions, hx, hr⟩ := hlayer
  -- the actions are filed
  obtain ⟨b₁, hfile, harena₁, hleaves₁, f, hf, hfilings⟩ := gives_forM_fileAdded hactions hinto .nil
  have hkeeps₁ := hleaves₁.keepsActions (by simp [hinto])
  set index := Index.fileAll Step.added layer.steps []
  -- the facts are a new layer
  obtain ⟨b₂, hfacts, harena₂, hleaves₂, hitem₂⟩ := gives_factLayerOf b₁ (Fact.sort index.keys)
  -- and the pairs are found among them
  obtain ⟨supported, hsupported, hpairs⟩ := gives_supported hfilings b₂
    fun g (hg : g ∈ Fact.sort index.keys) => Fact.mem_sort.1 hg
  obtain ⟨b₃, y, hmutexes, harena₃, hleaves₃, hitem₃, hy⟩ := gives_forM_addMutex (hx.mono hkeeps₁)
    hr (forall₂_pairsWithin hpairs) hitem₂ .empty
  have hleaves : b.Leaves b₃ [into] := (hleaves₁.trans (hleaves₂.of_new hleaves₃)).subset (by simp)
  have hkeeps := hleaves.keepsActions (by simp [hinto])
  have hhandle : handle ∉ [into] := by
    rintro hmem
    rw [List.mem_singleton.1 hmem, hinto] at hitem
    cases hitem
  refine ⟨b₁.items.size, b₃, ?_, harena₃.trans (harena₂.trans harena₁), hleaves,
    ⟨actions, x, r, hleaves hitem hhandle, hactions.imp fun _ _ => Workbench.IsStep.mono hkeeps,
      hx.mono hkeeps, hr⟩, ⟨y, ?_, ?_⟩, f, ?_, ?_⟩
  · refine (gives_pure into).bind ((gives_actionLayer hitem).bind (hfile.bind (gives_get.bind
      ((gives_file hf).bind ?_))))
    simp only [sorted_filings hfilings]
    exact hfacts.bind (hsupported.bind (hmutexes.bind (gives_pure _)))
  · rw [ActionLayer.buildFacts, ActionLayer.fileSupport_eq, ActionLayer.facts_factsOf]
    exact hitem₃
  · rw [ActionLayer.buildFacts, ActionLayer.fileSupport_eq, ActionLayer.mutexes_factsOf]
    exact hy
  · exact hleaves₂.of_new hleaves₃ hf List.not_mem_nil
  · exact hfilings.imp fun _ _ => Workbench.Files.mono
      ((hleaves₂.of_new hleaves₃).keepsActions (by simp))

end Bench

end Strips
