import Strips.Proofs.Consistency
import Strips.Proofs.Elaboration
import Strips.Proofs.MirroredLayers
import Strips.Workbench.Graphs

/-!
# Levels on a workbench

A level object mirrors a level if its layers and its file do, and if it has the same no-goods. Then
the search sees the same in both: facts that are said by literals without cells, and actions that
are shown as the steps are. So it learns the same, and what it has learnt is written back.

An action shows each fact of a list once. It is shown as the step that it says because no fact
stands twice in the lists of the steps that layers are made of.

## Main definitions

* `Step.Unrepeated` – no fact stands twice in a list of the step.
* `Workbench.Portrays` – an action is shown as a step.
* `Workbench.HoldsLevel` – an object mirrors a level.

## Main results

* `Bench.gives_stage` – the search sees the same in both.
* `Bench.gives_forM_putNoGoods` – what it has learnt is written back.
-/

namespace Strips

open Index (Matches RowsMatch)

/-! ### Steps without repetitions

Two kinds of steps are in a layer: those that keep a fact, which have at most one fact in a list,
and instances of schemas, whose lists are made of sets. -/

/-- No fact stands twice in a list of the step. -/
structure Step.Unrepeated (t : Step) : Prop where
  preconditions : t.preconditions.Nodup
  deleted : t.deleted.Nodup
  added : t.added.Nodup

theorem Step.unrepeated_of_keep_eq_ok {f : Fact} {t : Step} (h : Step.keep f = .ok t) :
    t.Unrepeated := by
  rw [keep] at h
  have hf := List.nodup_singleton f
  split at h
  · split at h
    · cases h
      exact ⟨.nil, .nil, hf⟩
    · cases h
  · cases h
    exact ⟨hf, .nil, hf⟩

theorem Schema.unrepeated_of_mem_instances {s : Schema} {layer : FactLayer} {strict : Bool}
    {t : Step} (h : t ∈ s.instances layer strict) : t.Unrepeated := by
  obtain ⟨arena, -, ht⟩ := List.mem_filterMap.1 h
  rw [Action.step?] at ht
  split at ht
  · obtain rfl := Option.some.inj ht
    exact ⟨nodup_eraseDups _, nodup_eraseDups _, nodup_eraseDups _⟩
  · cases ht

theorem ActionLayer.Over.unrepeated {actions : ActionLayer} {schemas : List Schema} {strict : Bool}
    {source : FactLayer} (h : actions.Over schemas strict source) :
    ∀ t ∈ actions.steps, t.Unrepeated := by
  intro t ht
  rcases h.origin t ht with ⟨f, -, hkeep⟩ | ⟨s, -, hinstance⟩
  · exact Step.unrepeated_of_keep_eq_ok hkeep
  · exact Schema.unrepeated_of_mem_instances hinstance

/-- An action is shown as the step that it says, if no fact stands twice there. -/
theorem Action.Says.shownStep_eq {x : Action} {t : Step} (hx : x.Says .empty t)
    (ht : t.Unrepeated) (b : Workbench) : x.shownStep b.arena = t := by
  have hlist : ∀ {set : LiteralSet} {facts : List Fact}, (∀ l ∈ set.members, l ∈ x.literals) →
      set.members.map (·.shown .empty) = facts → facts.Nodup →
      (set.members.map (·.shown b.arena)).eraseDups = facts := by
    intro set facts hset hfacts hnodup
    rw [hx.map_shown b.keeps_empty hset hfacts, eraseDups_eq_self hnodup]
  have harguments : (x.arguments b.arena).map Term.valueText = t.arguments := by
    rw [arguments, hx.key]
    exact (List.map_map).trans (List.map_id _)
  simp only [shownStep, harguments, hx.name, hx.noop,
    hlist (fun l hl => mem_literals.2 (.inl hl)) hx.preconditions ht.preconditions,
    hlist (fun l hl => mem_literals.2 (.inr (.inl hl))) hx.deleted ht.deleted,
    hlist (fun l hl => mem_literals.2 (.inr (.inr hl))) hx.added ht.added]

/-! ### What the search sees

The search on a workbench works on literals together with what they say at the moment, and on
actions with their handles. Without cells a literal says what it is, so a fact corresponds to one
saying only. An action corresponds to a step if it is shown as this step. -/

/-- What a literal without cells says. -/
def IsSaying (x : Saying) (f : Fact) : Prop := x = f.saying

/-- Sayings are the same if their facts are. -/
theorem matches_isSaying : Matches IsSaying := by
  rintro _ f _ g rfl rfl
  show (f.literal == g.literal) = (f == g)
  rw [Bool.eq_iff_iff, beq_iff_eq, beq_iff_eq, Fact.literal_injective.eq_iff]

/-- Lists correspond if one is the image of the other one. -/
theorem forall₂_iff_eq_map {α β : Type} {R : α → β → Prop} {g : β → α}
    (h : ∀ x y, R x y ↔ x = g y) {xs : List α} {ys : List β} :
    List.Forall₂ R xs ys ↔ xs = ys.map g := by
  obtain rfl : R = fun x y => x = g y := funext₂ fun x y => propext (h x y)
  rw [← List.forall₂_map_right_iff (R := Eq), List.forall₂_eq_eq_eq]

theorem forall₂_isSaying_iff {xs : List Saying} {facts : List Fact} :
    List.Forall₂ IsSaying xs facts ↔ xs = facts.map Fact.saying :=
  forall₂_iff_eq_map fun _ _ => .rfl

theorem forall₂_noGoods_iff {xs : NoGoods Saying} {noGoods : NoGoods Fact} :
    List.Forall₂ (List.Forall₂ (List.Forall₂ IsSaying)) xs noGoods ↔
      xs = noGoods.map (·.map (·.map Fact.saying)) := by
  have hsets : ∀ (sets : List (List Saying)) (facts : List (List Fact)),
      List.Forall₂ (List.Forall₂ IsSaying) sets facts ↔ sets = facts.map (·.map Fact.saying) :=
    fun _ _ => forall₂_iff_eq_map (g := List.map Fact.saying) fun _ _ => forall₂_isSaying_iff
  exact forall₂_iff_eq_map hsets

/-- Outcomes on a workbench and outcomes of a search among facts, part by part. -/
theorem OutcomesMatch.parts {S : Actor → Step → Prop} {plan : Option (List Actor)}
    {noGoods : NoGoods Saying} {plan' : Option (List Step)} {noGoods' : NoGoods Fact}
    (h : OutcomesMatch IsSaying S (plan, noGoods) (plan', noGoods')) :
    Option.Rel (List.Forall₂ S) plan plan' ∧
      noGoods = noGoods'.map (·.map (·.map Fact.saying)) := by
  cases h with
  | found hplan hnoGoods => exact ⟨.some hplan, forall₂_noGoods_iff.1 hnoGoods⟩
  | failed hnoGoods => exact ⟨.none, forall₂_noGoods_iff.1 hnoGoods⟩

namespace Workbench

variable {b b' : Workbench}

/-- An action says a step, and is shown as it. -/
def Portrays (b : Workbench) (x : Actor) (t : Step) : Prop := b.Enacts .empty x t ∧ t.Unrepeated

/-- Actions are the same if their steps are. -/
theorem matches_portrays (b : Workbench) : Matches b.Portrays :=
  fun _ _ _ _ hx hy => b.matches_enacts .empty hx.1 hy.1

/-- An action needs what its step needs, in the same order. -/
theorem needs_portrays {x : Actor} {t : Step} (hx : b.Portrays x t) :
    List.Forall₂ IsSaying (b.needs x) t.preconditions := by
  obtain ⟨⟨-, hmeans⟩, -⟩ := hx
  rw [forall₂_isSaying_iff, ← hmeans.preconditions]
  exact sayings_eq fun l hl => hmeans.constant l (Action.mem_literals.2 (.inl hl))

/-- The rows of a file are those of the index that it holds. -/
theorem forall₂_index {filings : List Filing} {index : Index Fact Step}
    (h : List.Forall₂ (b.Files .empty) filings index) :
    List.Forall₂ (RowsMatch IsSaying (b.Enacts .empty)) (b.index filings) index := by
  induction h with
  | nil => exact .nil
  | @cons f row filings index hf _ ih =>
    have hkey : (f.key == f.literal.key b.arena) = true := by
      rw [hf.key, key_eq_literal_key b.keeps_empty hf.constant, hf.shown, BEq.rfl]
    have hsaying : b.saying f.literal = row.1.saying := by
      rw [← saying_literal, ← hf.shown, ← Literal.eq_literal_shown hf.constant]
    rw [Workbench.index, List.filter_cons, if_pos hkey]
    exact .cons ⟨hsaying, forall₂_actors hf.actions⟩ ih

/-! ### Levels

A level object has no data of its own but the no-goods. So it mirrors a level for as long as the
objects stay that it refers to, and a search changes nothing in it but these. -/

/-- The parts of a level object mirror those of a level. -/
structure MirrorsLevel (b : Workbench) (l : LevelItem) (level : Level) : Prop where
  facts : b.HoldsFacts l.facts level.facts
  actions : Option.Rel b.HoldsActions l.actions level.actions
  support : b.HoldsIndex l.support level.support
  noGoods : l.noGoods = level.noGoods.map fun facts => ⟨facts.map Fact.literal⟩
  /-- The steps that the search may choose are shown as they are. -/
  unrepeated : ∀ f, ∀ t ∈ level.support.lookup f, t.Unrepeated

/-- An object mirrors a level. -/
def HoldsLevel (b : Workbench) (h : Handle) (level : Level) : Prop :=
  ∃ l, b.items[h]? = some (.level l) ∧ b.MirrorsLevel l level

/-- Of the objects that are there, only graphs change. -/
def KeepsLevels (b b' : Workbench) : Prop :=
  ∀ ⦃h : Handle⦄ ⦃it : Item⦄, b.items[h]? = some it → (∀ g, it ≠ .graph g) → b'.items[h]? = some it

theorem KeepsLevels.keepsLayers (hb : b.KeepsLevels b') : b.KeepsLayers b' :=
  fun _ _ hit _ hgraph => hb hit hgraph

theorem Leaves.keepsLevels {hs : List Handle} (hb : b.Leaves b' hs)
    (hhs : ∀ k ∈ hs, ∀ it, b.items[k]? = some it → ∃ g, it = .graph g) : b.KeepsLevels b' := by
  intro k it hit hgraph
  refine hb hit fun hk => ?_
  obtain ⟨g, rfl⟩ := hhs k hk it hit
  exact hgraph g rfl

/-- New objects do not matter. -/
theorem KeepsLevels.of_leaves (hb : b.Leaves b' []) : b.KeepsLevels b' :=
  fun _ _ hit _ => hb hit List.not_mem_nil

theorem MirrorsLevel.mono {l : LevelItem} {level : Level} (h : b.MirrorsLevel l level)
    (hb : b.KeepsLayers b') : b'.MirrorsLevel l level := by
  obtain ⟨facts, actions, support, noGoods⟩ := level
  obtain ⟨hfacts, hactions, hsupport, hnoGoods, hunrepeated⟩ := h
  refine ⟨hfacts.mono hb, ?_, hsupport.mono hb, hnoGoods, hunrepeated⟩
  generalize l.actions = handle at hactions ⊢
  cases hactions with
  | none => exact .none
  | some hactions => exact .some (hactions.mono hb)

theorem HoldsLevel.exists_item {h : Handle} {level : Level} (hlevel : b.HoldsLevel h level) :
    ∀ it, b.items[h]? = some it → ∃ l, it = .level l := by
  obtain ⟨l, hitem, -⟩ := hlevel
  exact fun it hit => ⟨l, Option.some.inj (hit.symm.trans hitem)⟩

theorem HoldsLevel.of_leaves {h : Handle} {level : Level} (hlevel : b.HoldsLevel h level)
    {hs : List Handle} (hb : b.Leaves b' hs) (hh : h ∉ hs) (hlayers : b.KeepsLayers b') :
    b'.HoldsLevel h level := by
  obtain ⟨l, hitem, hmirrors⟩ := hlevel
  exact ⟨l, hb hitem hh, hmirrors.mono hlayers⟩

theorem HoldsLevel.mono {h : Handle} {level : Level} (hlevel : b.HoldsLevel h level)
    (hb : b.KeepsLevels b') : b'.HoldsLevel h level := by
  obtain ⟨l, hitem, hmirrors⟩ := hlevel
  exact ⟨l, hb hitem fun _ => Item.noConfusion, hmirrors.mono hb.keepsLayers⟩

end Workbench

namespace Bench

variable {b : Workbench}

/-- The level of a handle is read off it. -/
theorem gives_level {handle : Handle} {l : LevelItem} (h : b.items[handle]? = some (.level l)) :
    Gives (level handle) b l b :=
  (gives_item h).bind (gives_pure l)

/-- **The search sees the same** in a level object and in the level that it mirrors. -/
theorem gives_stage {h : Handle} {l : Level} (hlevel : b.HoldsLevel h l) :
    ∃ seen, Gives (stage h) b seen b ∧ seen.Corresponds IsSaying b.Portrays l.stage := by
  obtain ⟨facts, actions, support, noGoods⟩ := l
  obtain ⟨⟨factsItem, actionsItem, supportItem, sets⟩, hitem, ⟨x, hfacts, hx⟩, hactions,
    ⟨f, hf, hfilings⟩, -, hunrepeated⟩ := hlevel
  have hlast : ∀ y : Exclusions, Gives (do
      return (← get).stage (⟨facts.facts.map Fact.literal⟩, x) y (← file supportItem).filings) b
      (b.stage (⟨facts.facts.map Fact.literal⟩, x) y f.filings) b :=
    fun y => gives_get.bind ((gives_file hf).bind (gives_pure _))
  -- the pairs of actions
  obtain ⟨y, hgives, hmutexes⟩ : ∃ y : Exclusions,
      Gives (stage h) b (b.stage (⟨facts.facts.map Fact.literal⟩, x) y f.filings) b ∧
      ∀ {p q s t}, b.Portrays p s → b.Portrays q t → y.containsActions b p q =
        Level.isMutex ⟨facts, actions, support, noGoods⟩ s t := by
    cases hactions with
    | none =>
      refine ⟨{}, (gives_level hitem).bind ((gives_factLayer hfacts).bind
        ((gives_pure ({} : Exclusions)).bind (hlast {}))), ?_⟩
      exact fun hp hq =>
        (Exclusions.relates_empty b .empty).contains (fun _ _ => id) hp.1.isStep hq.1.isStep
    | some hlayer =>
      obtain ⟨actions, y, r, hitem', -, hy, hr⟩ := hlayer
      refine ⟨y, (gives_level hitem).bind ((gives_factLayer hfacts).bind
        ((gives_actionLayer hitem').bind ((gives_pure y).bind (hlast y)))), fun hp hq => ?_⟩
      rw [Exclusions.containsActions, hy.contains (fun _ _ => id) hp.1.isStep hq.1.isStep, hr]
      rfl
  refine ⟨_, hgives, fun {goals goals'} hgoals => ?_, hmutexes, fun {s g} hs => ?_⟩
  · rw [forall₂_isSaying_iff.1 hgoals]
    exact Workbench.supports_eq hx goals'
  · have hlookup := Index.forall₂_lookup matches_isSaying hs (Workbench.forall₂_index hfilings)
    exact ((List.forall₂_and_left _ _).2 ⟨hunrepeated g, hlookup.flip⟩).flip.imp fun _ _ => And.symm

/-- **What the search has learnt is written back.** -/
theorem gives_forM_putNoGoods {handles : List Handle} {levels : List Level} {b : Workbench}
    (hnodup : handles.Nodup) (hlevels : List.Forall₂ b.HoldsLevel handles levels)
    {noGoods : NoGoods Fact} (hlength : noGoods.length = levels.length) :
    ∃ b', Gives ((handles.zip (noGoods.map (·.map (·.map Fact.saying)))).forM fun (h, noGoods) => do
        let sets := noGoods.map fun noGood => (⟨noGood.map Saying.literal⟩ : LiteralSet)
        put h (.level { ← level h with noGoods := sets })) b () b' ∧ b'.arena = b.arena ∧
      b.Leaves b' handles ∧ List.Forall₂ b'.HoldsLevel handles (withNoGoods levels noGoods) := by
  induction handles generalizing levels b noGoods with
  | nil =>
    cases hlevels
    exact ⟨b, gives_pure (), rfl, .refl b _, .nil⟩
  | cons h handles ih =>
    obtain ⟨level, levels, hlevel, hrest, rfl⟩ := List.forall₂_cons_left_iff.1 hlevels
    obtain ⟨hh, hnodup⟩ := List.nodup_cons.1 hnodup
    obtain ⟨own, noGoods, rfl⟩ := List.exists_cons_of_length_eq_add_one hlength
    obtain ⟨l, hitem, hmirrors⟩ := id hlevel
    -- the first level gets its no-goods
    let new : LevelItem := { l with noGoods := own.map fun facts => ⟨facts.map Fact.literal⟩ }
    let b₁ : Workbench := { b with items := b.items.setIfInBounds h (.level new) }
    have hitem₁ : b₁.items[h]? = some (.level new) := Workbench.getElem?_set_self hitem _
    have hleaves₁ : b.Leaves b₁ [h] := b.leaves_set h _
    have hlayers₁ : b.KeepsLayers b₁ := hleaves₁.keepsLayers fun k hk it hit => by
      obtain rfl := List.mem_singleton.1 hk
      exact .inl (hlevel.exists_item it hit)
    have hrest₁ : List.Forall₂ b₁.HoldsLevel handles levels := by
      have hne : ∀ k ∈ handles, k ∉ [h] := fun k hk heq => hh (List.mem_singleton.1 heq ▸ hk)
      exact ((List.forall₂_and_left _ _).2 ⟨hne, hrest⟩).imp fun _ _ hk =>
        hk.2.of_leaves hleaves₁ hk.1 hlayers₁
    -- and then the others get theirs
    obtain ⟨b', hgives, harena, hleaves, hlast⟩ := ih hnodup hrest₁ (Nat.succ.inj hlength)
    have hlayers : b₁.KeepsLayers b' := hleaves.keepsLayers fun k hk it hit => by
      obtain ⟨m, -, hm⟩ := exists_of_mem_left hrest₁ hk
      exact .inl (hm.exists_item it hit)
    refine ⟨b', gives_forM_cons ?_ hgives, harena, (hleaves₁.trans hleaves).subset (by simp),
      .cons ⟨new, hleaves hitem₁ hh, ?_⟩ hlast⟩
    · have hsets : (own.map (·.map Fact.saying)).map
          (fun noGood => (⟨noGood.map Saying.literal⟩ : LiteralSet)) = new.noGoods := by
        simp [new, Fact.saying, Function.comp_def]
      refine (gives_level hitem).bind ?_
      rw [hsets]
      exact gives_put h (.level new)
    · have hkept := hmirrors.mono (hlayers₁.trans hlayers)
      exact ⟨hkept.facts, hkept.actions, hkept.support, rfl, hkept.unrepeated⟩

end Bench

end Strips
