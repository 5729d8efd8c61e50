import Mathlib.Data.Finset.Powerset
import Mathlib.Data.Finset.Prod
import Strips.Graph.Solve
import Strips.Proofs.Ladder

/-!
# How far a planning graph can grow

No level of a planning graph holds any other facts than the initial ones and those that the effects
of the schemas say of the constants that occur. As long as a level differs from the one before, it
has more pairs of facts that do not exclude each other, so that the square of the number of possible
facts bounds the number of levels up to the fixed point. At one level there are no more no-goods
than sets of its facts, since no two of them are the same set.

## Main definitions

* `Graph.possibleFacts` – all facts that any level can hold.
* `FactLayer.compatiblePairs` – the pairs of facts of a layer that do not exclude each other.

## Main results

* `Ladder.mem_possibleFacts` – no level holds another fact.
* `FactLayer.Below.card_compatiblePairs_lt` – a layer that changes has more compatible pairs.
* `Irredundant.length_le` – how many no-goods there can be.
-/

namespace Strips

/-! ### All facts -/

/-- The lists of a given length over some values. -/
def words (values : List String) : Nat → List (List String)
  | 0 => [[]]
  | n + 1 => values.flatMap fun v => (words values n).map (v :: ·)

theorem length_words (values : List String) : ∀ n, (words values n).length = values.length ^ n
  | 0 => rfl
  | n + 1 => by
    simp only [words, List.length_flatMap, List.length_map, length_words values n, List.map_const',
      List.sum_replicate, smul_eq_mul, Nat.pow_succ']

theorem mem_words {values : List String} : ∀ {w : List String}, (∀ v ∈ w, v ∈ values) →
    w ∈ words values w.length
  | [], _ => List.mem_singleton_self _
  | v :: w, h => by
    obtain ⟨hv, hw⟩ := List.forall_mem_cons.1 h
    exact List.mem_flatMap.2 ⟨v, hv, List.mem_map_of_mem (mem_words hw)⟩

namespace Graph

/-- The facts of the newest level. -/
def newestFacts (g : Graph) : List Fact := (g.levels.head?.map (·.facts.facts)).getD []

/-- The constants that occur in the newest level and in the schemas. -/
def constants (g : Graph) : List String :=
  g.newestFacts.flatMap Fact.arguments ++ g.schemas.flatMap fun s =>
    (s.action.preconditions.members ++ s.action.positive.members).flatMap (constantsOf s.arena)

/-- The facts that any level can hold: those of the newest one, and what the effects of the schemas
say under all assignments of the constants. -/
def possibleFacts (g : Graph) : List Fact :=
  g.newestFacts ++ (g.schemas.flatMap fun s => s.action.positive.members).flatMap fun l =>
    (words g.constants.eraseDups l.arity).map (Fact.mk l.name)

theorem length_possibleFacts (g : Graph) : g.possibleFacts.length = g.factBound := by
  rw [possibleFacts, List.length_append, List.length_flatMap]
  simp only [List.length_map, length_words]
  rfl

end Graph

theorem Term.under_mem_constantsOf {s : Schema} (hreg : s.Regular) {σ : Nat → String}
    (hσ : s.Admits σ) {l : Literal} {t : Term} (ht : t ∈ l.terms)
    (hc : t.isConstant s.arena = true) : t.under σ ∈ Graph.constantsOf s.arena l := by
  refine List.mem_filterMap.2 ⟨t, ht, ?_⟩
  rw [if_pos hc]
  cases t with
  | const v => rfl
  | cell i =>
    obtain ⟨v, hv⟩ := Option.isSome_iff_exists.1 ((hreg.isSome_value? i).trans hc)
    rw [value?, hv, under, hσ.constants i v hc hv]

theorem Graph.under_mem_possibleFacts {g : Graph} {s : Schema} (hs : s ∈ g.schemas) {l : Literal}
    (hl : l ∈ s.action.positive.members) {σ : Nat → String}
    (hargs : ∀ a ∈ l.terms.map (Term.under σ), a ∈ g.constants) :
    l.under σ ∈ g.possibleFacts := by
  refine List.mem_append_right _
    (List.mem_flatMap.2 ⟨l, List.mem_flatMap.2 ⟨s, hs, hl⟩, ?_⟩)
  have hword := mem_words fun a ha => List.mem_eraseDups.2 (hargs a ha)
  rw [List.length_map] at hword
  exact List.mem_map_of_mem hword

/-- **No level holds another fact**, and its facts speak of no other constants. -/
theorem Ladder.mem_possibleFacts {p : Problem} (hreg : ∀ s ∈ p.schemas, s.Regular) {g : Graph}
    (hschemas : g.schemas = p.schemas) (hinitial : ∀ f ∈ p.initial, f ∈ g.newestFacts)
    {strict : Bool} {levels : List Level} (h : Ladder p strict levels) :
    ∀ level ∈ levels, ∀ f ∈ level.facts.facts,
      f ∈ g.possibleFacts ∧ ∀ a ∈ f.arguments, a ∈ g.constants := by
  induction h with
  | start _ hmem =>
    refine List.forall_mem_singleton.2 fun f hf => ?_
    have hf' := hinitial f ((hmem f).1 hf)
    exact ⟨List.mem_append_left _ hf', fun a ha =>
      List.mem_append_left _ (List.mem_flatMap.2 ⟨f, hf', ha⟩)⟩
  | @step newer older rest hfollows _ ih =>
    refine List.forall_mem_cons.2 ⟨fun f hf => ?_, ih⟩
    obtain ⟨actions, -, hover, hafter⟩ := hfollows
    obtain ⟨t, ht, hft⟩ := (hafter.mem_facts f).1 hf
    rcases hover.origin t ht with ⟨e, he, hkeep⟩ | ⟨s, hs, hinst⟩
    · obtain ⟨-, -, hadd, -⟩ := Step.keep_eq_ok hkeep
      rw [hadd, List.mem_singleton] at hft
      exact hft ▸ ih older List.mem_cons_self e he
    · obtain ⟨σ, hσ, rfl, -, -, hvalues⟩ := (hreg s hs).exists_under hinst
      obtain ⟨l, hl, rfl⟩ := LiteralSet.mem_under.1 hft
      have hs' : s ∈ g.schemas := hschemas ▸ hs
      have hargs : ∀ a ∈ l.terms.map (Term.under σ), a ∈ g.constants := by
        intro a ha
        obtain ⟨t, ht, rfl⟩ := List.mem_map.1 ha
        by_cases hc : t.isConstant s.arena = true
        · refine List.mem_append_right _
            (List.mem_flatMap.2 ⟨s, hs', List.mem_flatMap.2 ⟨l, ?_, ?_⟩⟩)
          · exact List.mem_append_right _ hl
          · exact Term.under_mem_constantsOf (hreg s hs) hσ ht hc
        · cases t with
          | const v => exact absurd rfl hc
          | cell i =>
            obtain ⟨e, he, ha⟩ := List.mem_flatMap.1 (hvalues l
              (Action.mem_literals.2 (.inr (.inr hl))) i ht (Bool.eq_false_iff.2 hc))
            exact (ih older List.mem_cons_self e he).2 _ ha
      exact ⟨Graph.under_mem_possibleFacts hs' hl hargs, hargs⟩

/-! ### Levels that change -/

namespace FactLayer

/-- The pairs of facts of a layer that do not exclude each other. -/
def compatiblePairs (layer : FactLayer) : Finset (Fact × Fact) :=
  {p ∈ layer.facts.toFinset ×ˢ layer.facts.toFinset | layer.isMutex p.1 p.2 = false}

theorem mem_compatiblePairs {layer : FactLayer} {f g : Fact} :
    (f, g) ∈ layer.compatiblePairs ↔
      (f ∈ layer.facts ∧ g ∈ layer.facts) ∧ layer.isMutex f g = false := by
  rw [compatiblePairs, Finset.mem_filter, Finset.mem_product, List.mem_toFinset, List.mem_toFinset]

theorem card_compatiblePairs_le {layer : FactLayer} {facts : List Fact}
    (h : ∀ f ∈ layer.facts, f ∈ facts) :
    layer.compatiblePairs.card ≤ facts.length * facts.length := by
  have hsub : layer.facts.toFinset ⊆ facts.toFinset := fun f hf =>
    List.mem_toFinset.2 (h f (List.mem_toFinset.1 hf))
  have hcard : layer.facts.toFinset.card ≤ facts.length :=
    (Finset.card_le_card hsub).trans (List.toFinset_card_le facts)
  calc layer.compatiblePairs.card
      ≤ (layer.facts.toFinset ×ˢ layer.facts.toFinset).card := Finset.card_filter_le _ _
    _ = layer.facts.toFinset.card * layer.facts.toFinset.card := Finset.card_product _ _
    _ ≤ facts.length * facts.length := Nat.mul_le_mul hcard hcard

/-- **A layer that changes has more compatible pairs.** -/
theorem Below.card_compatiblePairs_lt {layer other : FactLayer} (h : layer.Below other)
    (hl : layer.Sound) (ho : other.Sound) (hne : layer.same other = false) :
    layer.compatiblePairs.card < other.compatiblePairs.card := by
  have hsub : layer.compatiblePairs ⊆ other.compatiblePairs := fun p hp => by
    obtain ⟨⟨hf, hg⟩, hfree⟩ := mem_compatiblePairs.1 hp
    exact mem_compatiblePairs.2 ⟨⟨h.mem _ hf, h.mem _ hg⟩, h.isMutex_eq_false hf hg hfree⟩
  refine Finset.card_lt_card (hsub.ssubset_of_ne fun heq => Bool.eq_false_iff.1 hne ?_)
  -- with the same compatible pairs, the layers would be the same
  refine (hl.same_iff ho).2 ⟨h, ⟨fun f hf => ?_, fun f hf g hg hfg => ?_⟩⟩
  · have hff := mem_compatiblePairs.2 ⟨⟨hf, hf⟩, ho.isMutex_self f⟩
    rw [← heq] at hff
    exact (mem_compatiblePairs.1 hff).1.1
  · by_contra hfree
    have hpair := mem_compatiblePairs.2 ⟨⟨hf, hg⟩, Bool.eq_false_iff.2 hfree⟩
    rw [← heq, mem_compatiblePairs, hfg] at hpair
    cases hpair.2

end FactLayer

/-! ### No-goods of one level -/

/-- **There are no more no-goods than sets of facts**, if none contains an earlier one. -/
theorem Irredundant.length_le {noGoods : List (List Fact)} (h : Irredundant noGoods)
    {facts : List Fact} (hsub : ∀ noGood ∈ noGoods, ∀ f ∈ noGood, f ∈ facts) :
    noGoods.length ≤ 2 ^ facts.length := by
  have hnodup : (noGoods.map List.toFinset).Nodup :=
    List.pairwise_map.2 (List.Pairwise.imp (fun {a b} hab heq => hab fun f hf =>
      List.mem_toFinset.1 (heq ▸ List.mem_toFinset.2 hf)) h)
  have hmem : (noGoods.map List.toFinset).toFinset ⊆ facts.toFinset.powerset := by
    intro s hs
    obtain ⟨noGood, hmem, rfl⟩ := List.mem_map.1 (List.mem_toFinset.1 hs)
    exact Finset.mem_powerset.2 fun f hf =>
      List.mem_toFinset.2 (hsub noGood hmem f (List.mem_toFinset.1 hf))
  calc noGoods.length
      = (noGoods.map List.toFinset).toFinset.card := by
        rw [List.toFinset_card_of_nodup hnodup, List.length_map]
    _ ≤ facts.toFinset.powerset.card := Finset.card_le_card hmem
    _ = 2 ^ facts.toFinset.card := Finset.card_powerset _
    _ ≤ 2 ^ facts.length := Nat.pow_le_pow_right (Nat.succ_pos 1) (List.toFinset_card_le facts)

end Strips
