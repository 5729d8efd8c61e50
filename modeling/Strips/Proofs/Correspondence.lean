import Strips.Proofs.Filing
import Strips.Proofs.NoGoods

/-!
# Searches that correspond

The search asks little of facts and steps: which of them are the same, which steps support a fact
and exclude each other, and what a step needs. Where the facts and the steps of one search
correspond to those of another one, and the answers to these questions do too, both searches take
the same way. They visit corresponding covers in the same order, record corresponding no-goods and
find corresponding plans.

## Main definitions

* `Stage.Corresponds` – corresponding questions to two stages have corresponding answers.
* `OutcomesMatch` – searches found corresponding plans and have corresponding no-goods.

## Main results

* `Stage.Corresponds.forall₂_covers` – the covers correspond.
* `search_corresponds` – the searches do.
* `length_search` – a search keeps levels and no-goods in step.
-/

namespace Strips

open Index (Matches)

variable {φ ψ α β : Type} [BEq φ] [BEq ψ] [BEq α] [BEq β] {K : φ → ψ → Prop} {S : α → β → Prop}

/-! ### Lists of corresponding things

`K` relates facts and `S` relates steps. All that is asked of them is that things which correspond
are the same as others on both sides or on neither (`Index.Matches`). The functions on lists that
the search is made of then keep to the correspondence, place by place. -/

omit [BEq φ] [BEq ψ] in
/-- A check of all elements, or for one, has the same answer if it has for those that correspond. -/
theorem all_eq_of_forall₂ {p : φ → Bool} {q : ψ → Bool} (hpq : ∀ x y, K x y → p x = q y)
    {xs : List φ} {ys : List ψ} (h : List.Forall₂ K xs ys) : xs.all p = ys.all q := by
  induction h with
  | nil => rfl
  | cons hxy _ ih => rw [List.all_cons, List.all_cons, hpq _ _ hxy, ih]

omit [BEq φ] [BEq ψ] in
theorem any_eq_of_forall₂ {p : φ → Bool} {q : ψ → Bool} (hpq : ∀ x y, K x y → p x = q y)
    {xs : List φ} {ys : List ψ} (h : List.Forall₂ K xs ys) : xs.any p = ys.any q := by
  induction h with
  | nil => rfl
  | cons hxy _ ih => rw [List.any_cons, List.any_cons, hpq _ _ hxy, ih]

omit [BEq φ] [BEq ψ] in
/-- Pairs correspond in both parts. -/
theorem forall₂_pairsWithin {xs : List φ} {ys : List ψ} (h : List.Forall₂ K xs ys) :
    List.Forall₂ (fun p q => K p.1 q.1 ∧ K p.2 q.2) (pairsWithin xs) (pairsWithin ys) := by
  induction h with
  | nil => exact .nil
  | @cons x y xs ys hxy hrest ih =>
    have hhead : List.Forall₂ K (x :: xs) (y :: ys) := .cons hxy hrest
    refine List.rel_append ?_ ih
    exact List.forall₂_map_left_iff.2
      (List.forall₂_map_right_iff.2 (hhead.imp fun _ _ h => ⟨hxy, h⟩))

/-- A step is new on both sides, or on neither. -/
theorem forall₂_choose (hS : Matches S) {chosen : List α} {chosen' : List β}
    (h : List.Forall₂ S chosen chosen') {s : α} {t : β} (hst : S s t) :
    List.Forall₂ S (choose chosen s) (choose chosen' t) := by
  rw [choose, choose, Index.contains_eq_of_forall₂ hS h hst]
  split
  · exact h
  · exact List.rel_append h (.cons hst .nil)

theorem forall₂_eraseDups (hS : Matches S) {xs : List α} {ys : List β}
    (h : List.Forall₂ S xs ys) : List.Forall₂ S xs.eraseDups ys.eraseDups := by
  rw [← foldl_choose_eq_eraseDups, ← foldl_choose_eq_eraseDups]
  -- what was collected before corresponds too
  suffices ∀ {seen : List α} {seen' : List β}, List.Forall₂ S seen seen' →
      List.Forall₂ S (xs.foldl choose seen) (ys.foldl choose seen') from this .nil
  induction h with
  | nil => exact id
  | cons hxy _ ih => exact fun hseen => ih (forall₂_choose hS hseen hxy)

/-- Corresponding no-goods forbid corresponding facts. -/
theorem containsNoGood_eq_of_forall₂ (hK : Matches K) {noGoods : List (List φ)}
    {noGoods' : List (List ψ)} (h : List.Forall₂ (List.Forall₂ K) noGoods noGoods')
    {facts : List φ} {facts' : List ψ} (hfacts : List.Forall₂ K facts facts') :
    containsNoGood noGoods facts = containsNoGood noGoods' facts' :=
  any_eq_of_forall₂ (fun _ _ hset => all_eq_of_forall₂
    (fun _ _ hxy => Index.contains_eq_of_forall₂ hK hfacts hxy) hset) h

/-! ### Covers -/

/-- Corresponding questions to two stages have corresponding answers. -/
structure Stage.Corresponds (K : φ → ψ → Prop) (S : α → β → Prop) (stage : Stage φ α)
    (stage' : Stage ψ β) : Prop where
  supports : ∀ {facts facts'}, List.Forall₂ K facts facts' →
    stage.supports facts = stage'.supports facts'
  isMutex : ∀ {s t s' t'}, S s s' → S t t' → stage.isMutex s t = stage'.isMutex s' t'
  support : ∀ {f f'}, K f f' → List.Forall₂ S (stage.support f) (stage'.support f')

omit [BEq φ] [BEq ψ] in
/-- **The covers correspond**, one by one. -/
theorem Stage.Corresponds.forall₂_covers (hS : Matches S) {stage : Stage φ α}
    {stage' : Stage ψ β} (hstage : stage.Corresponds K S stage') {facts : List φ} {facts' : List ψ}
    (hfacts : List.Forall₂ K facts facts') {chosen : List α} {chosen' : List β}
    (hchosen : List.Forall₂ S chosen chosen') :
    List.Forall₂ (List.Forall₂ S) (covers stage.isMutex stage.support chosen facts)
      (covers stage'.isMutex stage'.support chosen' facts') := by
  induction hfacts generalizing chosen chosen' with
  | nil => exact .cons hchosen .nil
  | @cons f f' _ _ hf _ ih =>
    have hadmits : ∀ {s t}, S s t →
        (admits stage.isMutex chosen s = true ↔ admits stage'.isMutex chosen' t = true) := by
      intro s t hst
      rw [admits, admits, any_eq_of_forall₂ (fun _ _ huv => hstage.isMutex hst huv) hchosen]
    have hfits : List.Forall₂ S ((stage.support f).filter (admits stage.isMutex chosen))
        ((stage'.support f').filter (admits stage'.isMutex chosen')) :=
      List.rel_filter (fun _ _ hst => hadmits hst) (hstage.support hf)
    exact List.rel_flatMap hfits fun _ _ hst => ih (forall₂_choose hS hchosen hst)

/-! ### Searches -/

/-- Two searches found corresponding plans, or none, and have corresponding no-goods. -/
inductive OutcomesMatch (K : φ → ψ → Prop) (S : α → β → Prop) :
    Option (List α) × NoGoods φ → Option (List β) × NoGoods ψ → Prop
  | found {plan plan' noGoods noGoods'} (hplan : List.Forall₂ S plan plan')
      (hnoGoods : List.Forall₂ (List.Forall₂ (List.Forall₂ K)) noGoods noGoods') :
      OutcomesMatch K S (some plan, noGoods) (some plan', noGoods')
  | failed {noGoods noGoods'}
      (hnoGoods : List.Forall₂ (List.Forall₂ (List.Forall₂ K)) noGoods noGoods') :
      OutcomesMatch K S (none, noGoods) (none, noGoods')

omit [BEq φ] [BEq ψ] [BEq α] [BEq β] in
/-- Trying corresponding covers. -/
theorem firstOutcome_corresponds {attempt : List α → NoGoods φ → Option (List α) × NoGoods φ}
    {attempt' : List β → NoGoods ψ → Option (List β) × NoGoods ψ}
    (hattempt : ∀ {chosen chosen'}, List.Forall₂ S chosen chosen' → ∀ {older older'},
      List.Forall₂ (List.Forall₂ (List.Forall₂ K)) older older' →
        OutcomesMatch K S (attempt chosen older) (attempt' chosen' older'))
    {visited : List (List α)} {visited' : List (List β)}
    (h : List.Forall₂ (List.Forall₂ S) visited visited') {older : NoGoods φ} {older' : NoGoods ψ}
    (holder : List.Forall₂ (List.Forall₂ (List.Forall₂ K)) older older') :
    OutcomesMatch K S (firstOutcome attempt visited older)
      (firstOutcome attempt' visited' older') := by
  induction h generalizing older older' with
  | nil => exact .failed holder
  | @cons chosen chosen' _ _ hchosen _ ih =>
    have hfirst := hattempt hchosen holder
    rw [firstOutcome, firstOutcome]
    generalize attempt chosen older = outcome at hfirst ⊢
    generalize attempt' chosen' older' = outcome' at hfirst ⊢
    cases hfirst with
    | found hplan hlast => exact .found hplan hlast
    | failed hlast => exact ih hlast

section Search

variable (hK : Matches K) (hS : Matches S) {needs : α → List φ} {needs' : β → List ψ}
  (hneeds : ∀ s t, S s t → List.Forall₂ K (needs s) (needs' t))

include hK hneeds

omit [BEq α] [BEq β] in
/-- The facts to go on with correspond. -/
theorem forall₂_preconditionsOf {chosen : List α} {chosen' : List β}
    (h : List.Forall₂ S chosen chosen') :
    List.Forall₂ K (preconditionsOf needs chosen) (preconditionsOf needs' chosen') :=
  forall₂_eraseDups hK (List.rel_flatMap h hneeds)

include hS

/-- **The searches correspond.** -/
theorem search_corresponds {stages : List (Stage φ α)} {stages' : List (Stage ψ β)}
    (hstages : List.Forall₂ (Stage.Corresponds K S) stages stages') :
    ∀ {facts facts'}, List.Forall₂ K facts facts' → ∀ {noGoods noGoods'},
      List.Forall₂ (List.Forall₂ (List.Forall₂ K)) noGoods noGoods' →
      OutcomesMatch K S (search needs stages facts noGoods)
        (search needs' stages' facts' noGoods') := by
  induction hstages with
  | nil => exact fun _ _ _ h => .failed h
  | @cons stage stage' rest rest' hstage hrest ih =>
    intro facts facts' hfacts noGoods noGoods' hnoGoods
    have hsupports := hstage.supports hfacts
    obtain ⟨hown, holder⟩ : List.Forall₂ (List.Forall₂ K) (noGoods.headD []) (noGoods'.headD []) ∧
        List.Forall₂ (List.Forall₂ (List.Forall₂ K)) noGoods.tail noGoods'.tail := by
      cases hnoGoods with
      | nil => exact ⟨.nil, .nil⟩
      | cons hown holder => exact ⟨hown, holder⟩
    cases hrest with
    | nil =>
      rw [search, search, hsupports]
      split
      · exact .found .nil hnoGoods
      · exact .failed hnoGoods
    | @cons next next' rest rest' hnext hrest =>
      rw [search_cons, search_cons, hsupports, containsNoGood_eq_of_forall₂ hK hown hfacts]
      split
      · exact .failed hnoGoods
      · have hgoOn : ∀ {chosen chosen'}, List.Forall₂ S chosen chosen' → ∀ {older older'},
            List.Forall₂ (List.Forall₂ (List.Forall₂ K)) older older' →
            OutcomesMatch K S (goOn needs (next :: rest) chosen older)
              (goOn needs' (next' :: rest') chosen' older') := by
          intro chosen chosen' hchosen older older' holder
          have hbefore := ih (forall₂_preconditionsOf hK hneeds hchosen) holder
          rw [goOn, goOn]
          generalize search needs (next :: rest) _ older = outcome at hbefore ⊢
          generalize search needs' (next' :: rest') _ older' = outcome' at hbefore ⊢
          cases hbefore with
          | found hbefore hlast => exact .found (List.rel_append hbefore hchosen) hlast
          | failed hlast => exact .failed hlast
        have hfirst :=
          firstOutcome_corresponds hgoOn (hstage.forall₂_covers hS hfacts .nil) holder
        generalize firstOutcome (goOn needs (next :: rest)) _ noGoods.tail = outcome at hfirst ⊢
        generalize firstOutcome (goOn needs' (next' :: rest')) _ noGoods'.tail = outcome'
          at hfirst ⊢
        cases hfirst with
        | found hplan hlast => exact .found hplan (.cons hown hlast)
        | failed hlast =>
          exact .failed (.cons (List.rel_append hown (.cons (forall₂_eraseDups hK hfacts) .nil))
            hlast)

end Search

/-! ### Levels stay in step with their no-goods

What a search has learnt is a list with an entry for each level. It is written back level by level,
so no level must be left without an entry. -/

/-- What each attempt keeps is kept up to the first outcome. -/
theorem firstOutcome_keeps {σ γ δ : Type} {attempt : γ → σ → Option δ × σ} {kept : σ → Prop}
    (hattempt : ∀ x s, kept s → kept (attempt x s).2) (xs : List γ) {s : σ} (hs : kept s) :
    kept (firstOutcome attempt xs s).2 := by
  induction xs generalizing s with
  | nil => exact hs
  | cons x xs ih =>
    have hx := hattempt x s hs
    rw [firstOutcome]
    generalize attempt x s = outcome at hx ⊢
    obtain ⟨_ | result, s'⟩ := outcome
    · exact ih hx
    · exact hx

/-- **There are no-goods for each level after a search** if there were before. -/
theorem length_search {needs : α → List φ} {stages : List (Stage φ α)} {facts : List φ}
    {noGoods : NoGoods φ} (h : noGoods.length = stages.length) :
    (search needs stages facts noGoods).2.length = stages.length := by
  induction stages generalizing facts noGoods with
  | nil => exact h
  | cons stage rest ih =>
    cases rest with
    | nil =>
      rw [search]
      exact h
    | cons next rest =>
      rw [search_cons]
      split
      · exact h
      · have hgoOn : ∀ chosen (older : NoGoods φ), older.length = (next :: rest).length →
            (goOn needs (next :: rest) chosen older).2.length = (next :: rest).length := by
          intro chosen older holder
          rw [goOn_snd]
          exact ih holder
        have htail : noGoods.tail.length = (next :: rest).length := by
          rw [List.length_tail, h]
          rfl
        have hlast := firstOutcome_keeps hgoOn (covers stage.isMutex stage.support [] facts) htail
        generalize firstOutcome (goOn needs (next :: rest)) _ noGoods.tail = outcome at hlast ⊢
        obtain ⟨_ | plan, older⟩ := outcome
        all_goals exact congrArg (· + 1) hlast

end Strips
