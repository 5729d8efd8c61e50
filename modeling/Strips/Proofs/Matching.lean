import Strips.Proofs.Cells
import Strips.Proofs.Substitution
import Mathlib.Data.List.Forall2

/-!
# Matching preconditions with facts

The preconditions of a schema are unified with facts of a layer, from left to right. In a loose
arena this is matching, and matching is a function on assignments: `Arena.matchTerm` for a term,
`Arena.matchTerms` for the terms of a literal, and `Schema.assignments` for all preconditions.

At each of these stations there are two statements. Soundness carries that the assignment has grown
(`Arena.Grows`), completeness that it agrees with a given substitution (`Arena.Agrees`).

## Main definitions

* `Arena.matchTerm`, `Arena.matchTerms` – matching under an assignment.
* `Literal.Says` – a literal says a fact under an assignment.

## Main results

* `Arena.Loose.unify_withValues` – unifying is matching.
* `Arena.Loose.assignments_sound` – what the search finds makes the preconditions facts of a layer.
* `Arena.Loose.assignments_complete` – every separating substitution that does so is found.
-/

namespace Strips

/-! ### Lists side by side -/

section Forall₂

variable {α β : Type} {R : α → β → Prop} {xs : List α} {ys : List β}

/-- Each element on one side has one on the other. -/
theorem exists_of_mem_right (h : List.Forall₂ R xs ys) {y : β} (hy : y ∈ ys) :
    ∃ x ∈ xs, R x y := by
  induction h with
  | nil => cases hy
  | cons hxy _ ih =>
    rcases List.mem_cons.1 hy with rfl | hy
    · exact ⟨_, List.mem_cons_self, hxy⟩
    · obtain ⟨x, hx, hxy⟩ := ih hy
      exact ⟨x, List.mem_cons_of_mem _ hx, hxy⟩

theorem exists_of_mem_left (h : List.Forall₂ R xs ys) {x : α} (hx : x ∈ xs) :
    ∃ y ∈ ys, R x y := exists_of_mem_right h.flip hx

end Forall₂

/-! ### Terms -/

/-- The value of a term under an assignment. -/
def Term.at (ρ : Nat → Option String) : Term → Option String
  | const value => some value
  | cell i => ρ i

/-- All cells of a list of terms are cells of the arena. -/
def Arena.Holds (a : Arena) (ts : List Term) : Prop := ∀ i, Term.cell i ∈ ts → i < a.size

/-- The assignment gives each term the value that stands in the same place. -/
def Term.Matches (ρ : Nat → Option String) (ts : List Term) (vs : List String) : Prop :=
  ts.map (Term.at ρ) = vs.map some

namespace Arena

variable {a : Arena}

theorem Holds.head {t : Term} {ts : List Term} (h : a.Holds (t :: ts)) : a.Holds [t] :=
  fun i hi => h i (List.mem_cons.2 (.inl (List.mem_singleton.1 hi)))

theorem Holds.tail {t : Term} {ts : List Term} (h : a.Holds (t :: ts)) : a.Holds ts :=
  fun i hi => h i (List.mem_cons_of_mem t hi)

/-- What a term says depends only on the value of its own cell. -/
theorem Loose.value?_term (h : a.Loose) (ρ : Nat → Option String) {t : Term} (ht : a.Holds [t]) :
    t.value? (a.withValues ρ) = t.at ρ := by
  cases t with
  | const v => rfl
  | cell i =>
    rw [Term.value?, h.value?_withValues, if_pos (ht i (List.mem_singleton.2 rfl))]
    rfl

theorem Grows.at_eq {vs : List String} {ρ ρ' : Nat → Option String} (h : a.Grows vs ρ ρ')
    {t : Term} {v : String} (ht : t.at ρ = some v) : t.at ρ' = some v := by
  cases t with
  | const w => exact ht
  | cell i => exact h.keeps i v ht

theorem Grows.matches {ws : List String} {ρ ρ' : Nat → Option String} (h : a.Grows ws ρ ρ') :
    ∀ {ts : List Term} {vs : List String}, Term.Matches ρ ts vs → Term.Matches ρ' ts vs
  | [], [], _ => rfl
  | t :: ts, v :: vs, hm => by
    obtain ⟨ht, hts⟩ := List.cons.inj hm
    exact List.cons_eq_cons.2 ⟨h.at_eq ht, h.matches hts⟩

/-! ### Matching, as a function on assignments -/

/-- Bind a term to a value, if that is possible. -/
def matchTerm (a : Arena) (ρ : Nat → Option String) (t : Term) (w : String) :
    Option (Nat → Option String) :=
  match t.at ρ, t with
  | some v, _ => if v = w then some ρ else none
  | none, .cell i =>
    if (a.withValues ρ).isExcluded i w then none else some (Function.update ρ i (some w))
  | none, .const _ => none

theorem matchTerm_of_bound {a : Arena} {ρ : Nat → Option String} {t : Term} {v : String}
    (hv : t.at ρ = some v) (w : String) : a.matchTerm ρ t w = if v = w then some ρ else none := by
  simp only [matchTerm, hv]

theorem matchTerm_cell {a : Arena} {ρ : Nat → Option String} {i : Nat} (hi : ρ i = none)
    (w : String) :
    a.matchTerm ρ (.cell i) w =
      if (a.withValues ρ).isExcluded i w then none else some (Function.update ρ i (some w)) := by
  simp only [matchTerm, Term.at, hi]

/-- Bind terms to values, from left to right. -/
def matchTerms (a : Arena) (ρ : Nat → Option String) :
    List Term → List String → Option (Nat → Option String)
  | t :: ts, w :: ws => (a.matchTerm ρ t w).bind fun ρ => a.matchTerms ρ ts ws
  | _, _ => some ρ

end Arena

/-- The arena after an attempt to unify that was successful. -/
def Literal.unified? : Literal.Match × Arena → Option Arena
  | (.matched _, a) => some a
  | _ => none

namespace Arena

variable {a : Arena}

/-- Unifying terms with constants is matching them. -/
theorem Loose.unifyTerms_withValues (h : a.Loose) (target : Literal) :
    ∀ {ts : List Term}, a.Holds ts → ∀ (ws : List String) (bound : List Nat)
      (ρ : Nat → Option String),
      Literal.unified? (Literal.unifyTerms target bound (a.withValues ρ)
        (ts.zip (ws.map Term.const))) = (a.matchTerms ρ ts ws).map a.withValues
  | [], _, _, _, _ => rfl
  | _ :: _, _, [], _, _ => rfl
  | t :: ts, hts, w :: ws, bound, ρ => by
    have hval := h.value?_term ρ hts.head
    have ih := h.unifyTerms_withValues target hts.tail ws
    rw [List.map_cons, List.zip_cons_cons, Literal.unifyTerms, hval, matchTerms]
    simp only [Term.value?]
    cases hv : t.at ρ with
    | some v =>
      rw [matchTerm_of_bound hv]
      by_cases hvw : v = w
      · simp [hvw, ih]
      · simp [hvw, Literal.unified?]
    | none =>
      cases t with
      | const v => cases hv
      | cell i =>
        rw [hv] at hval
        simp only [h.bind_withValues hval, matchTerm_cell hv]
        by_cases hex : (a.withValues ρ).isExcluded i w = true
        · simp [hex, Literal.unified?]
        · simp [hex, ih]

/-- Unifying a literal with a fact is matching its terms with the arguments. -/
theorem Loose.unify_withValues (h : a.Loose) {l : Literal} (hl : a.Holds l.terms) (f : Fact)
    (ρ : Nat → Option String) :
    Literal.unified? (l.unify (a.withValues ρ) f.literal) =
      if l.name = f.name ∧ l.arity = f.arguments.length then
        (a.matchTerms ρ l.terms f.arguments).map a.withValues
      else none := by
  have harity : f.literal.arity = f.arguments.length := List.length_map _
  rw [Literal.unify, harity]
  by_cases hnl : l.name = f.name ∧ l.arity = f.arguments.length
  · rw [if_pos hnl, ← h.unifyTerms_withValues f.literal hl f.arguments []]
    simp [hnl.1, hnl.2, Fact.literal]
  · rw [if_neg hnl]
    rw [if_neg (by rwa [Bool.and_eq_true, decide_eq_true_iff, decide_eq_true_iff])]
    rfl

/-! ### What a match does, and when there is one -/

theorem Loose.grows_matchTerm (h : a.Loose) {ρ ρ' : Nat → Option String} {t : Term} {w : String}
    (hm : a.matchTerm ρ t w = some ρ') : a.Grows [w] ρ ρ' ∧ t.at ρ' = some w := by
  cases hv : t.at ρ with
  | some v =>
    rw [matchTerm_of_bound hv] at hm
    split at hm
    · rename_i hvw
      cases hm
      exact ⟨.refl a [w] ρ, hvw ▸ hv⟩
    · cases hm
  | none =>
    cases t with
    | const v => cases hv
    | cell i =>
      rw [matchTerm_cell hv] at hm
      split at hm
      · cases hm
      · rename_i hex
        cases hm
        exact ⟨h.grows_bind hv (Bool.eq_false_iff.2 hex), Function.update_self ..⟩

/-- A match makes the terms say the values. -/
theorem Loose.grows_matchTerms (h : a.Loose) : ∀ {ts : List Term} {ws : List String}
    {ρ ρ' : Nat → Option String}, ts.length = ws.length → a.matchTerms ρ ts ws = some ρ' →
      a.Grows ws ρ ρ' ∧ Term.Matches ρ' ts ws
  | [], [], ρ, _, _, hm => by
    cases hm
    exact ⟨.refl a [] ρ, rfl⟩
  | t :: ts, w :: ws, ρ, ρ', hlen, hm => by
    rw [matchTerms] at hm
    obtain ⟨ρ₁, ht, hts⟩ := Option.bind_eq_some_iff.1 hm
    obtain ⟨hg, hat⟩ := h.grows_matchTerm ht
    obtain ⟨hg', hmatch⟩ := h.grows_matchTerms (Nat.succ.inj hlen) hts
    refine ⟨(hg.mono fun v hv => ?_).trans (hg'.mono fun v hv => List.mem_cons_of_mem w hv),
      List.cons_eq_cons.2 ⟨hg'.at_eq hat, hmatch⟩⟩
    rw [List.mem_singleton.1 hv]
    exact List.mem_cons_self

/-- Constants are bound. -/
def BindsConstants (a : Arena) (ρ : Nat → Option String) : Prop :=
  ∀ i, a.isConstant i = true → (ρ i).isSome = true

theorem Grows.bindsConstants {vs : List String} {ρ ρ' : Nat → Option String}
    (h : a.Grows vs ρ ρ') (hc : a.BindsConstants ρ) : a.BindsConstants ρ' := by
  intro i hi
  obtain ⟨v, hv⟩ := Option.isSome_iff_exists.1 (hc i hi)
  rw [h.keeps i v hv]
  rfl

theorem Loose.matchTerm_of_agrees (h : a.Loose) {ρ : Nat → Option String} {σ : Nat → String}
    (hσ : a.Separates σ) (hρ : Agrees ρ σ) (hc : a.BindsConstants ρ) (t : Term) :
    ∃ ρ', a.matchTerm ρ t (t.under σ) = some ρ' ∧ Agrees ρ' σ := by
  cases hv : t.at ρ with
  | some v =>
    have hvσ : v = t.under σ := by
      cases t with
      | const w => exact (Option.some.inj hv).symm
      | cell i => exact (hρ i v hv).symm
    exact ⟨ρ, by rw [matchTerm_of_bound hv, if_pos hvσ], hρ⟩
  | none =>
    cases t with
    | const v => cases hv
    | cell i =>
      have hi : a.isConstant i = false := by
        rw [Bool.eq_false_iff]
        intro hconst
        have := hc i hconst
        rw [show ρ i = none from hv] at this
        cases this
      have hex : ¬(a.withValues ρ).isExcluded i (σ i) = true :=
        Bool.eq_false_iff.1 (h.isExcluded_of_agrees hσ hρ hi)
      exact ⟨_, by rw [matchTerm_cell hv, Term.under, if_neg hex], hρ.update i⟩

/-- Terms match what a separating substitution makes of them. -/
theorem Loose.matchTerms_of_agrees (h : a.Loose) {σ : Nat → String} (hσ : a.Separates σ) :
    ∀ (ts : List Term) {ρ : Nat → Option String}, Agrees ρ σ → a.BindsConstants ρ →
      ∃ ρ', a.matchTerms ρ ts (ts.map (Term.under σ)) = some ρ' ∧ Agrees ρ' σ
  | [], ρ, hρ, _ => ⟨ρ, rfl, hρ⟩
  | t :: ts, ρ, hρ, hc => by
    obtain ⟨ρ₁, hm₁, hρ₁⟩ := h.matchTerm_of_agrees hσ hρ hc t
    obtain ⟨ρ₂, hm₂, hρ₂⟩ :=
      h.matchTerms_of_agrees hσ ts hρ₁ ((h.grows_matchTerm hm₁).1.bindsConstants hc)
    refine ⟨ρ₂, ?_, hρ₂⟩
    rw [List.map_cons, matchTerms, hm₁]
    exact hm₂

/-! ### The preconditions of a schema -/

end Arena

/-- A literal says a fact under an assignment. -/
structure Literal.Says (ρ : Nat → Option String) (l : Literal) (f : Fact) : Prop where
  name : l.name = f.name
  terms : Term.Matches ρ l.terms f.arguments

namespace Arena

variable {a : Arena} {layer : FactLayer} {strict : Bool}

/-- The facts matched so far, in the order of matching; in strict mode no fact may exclude one that
was matched before it. -/
def Free (layer : FactLayer) (fs : List Fact) : Prop :=
  fs.Pairwise fun earlier f => layer.isMutex f earlier = false

theorem assignments_cons (l : Literal) (rest : List Literal) (chosen : List Fact) (b : Arena) :
    Schema.assignments layer strict (l :: rest) chosen b =
      (layer.named l.name).flatMap fun f =>
        if strict && chosen.any (layer.isMutex f) then []
        else ((Literal.unified? (l.unify b f.literal)).map
          (Schema.assignments layer strict rest (chosen ++ [f]))).getD [] := by
  rw [Schema.assignments]
  congr
  funext f
  rcases l.unify b f.literal with ⟨_ | _ | _, c⟩ <;> rfl

/-- One step of the search: the first precondition is matched with a fact of its name. -/
theorem Loose.mem_assignments_cons (h : a.Loose) {l : Literal} (hl : a.Holds l.terms)
    {rest : List Literal} {chosen : List Fact} {ρ : Nat → Option String} {b : Arena} :
    b ∈ Schema.assignments layer strict (l :: rest) chosen (a.withValues ρ) ↔
      ∃ f ∈ layer.facts, (strict = true → ∀ g ∈ chosen, layer.isMutex f g = false) ∧
        l.name = f.name ∧ l.arity = f.arguments.length ∧
        ∃ ρ', a.matchTerms ρ l.terms f.arguments = some ρ' ∧
          b ∈ Schema.assignments layer strict rest (chosen ++ [f]) (a.withValues ρ') := by
  rw [assignments_cons, List.mem_flatMap]
  refine exists_congr fun f => ?_
  have hskip : (strict && chosen.any (layer.isMutex f)) = true ↔
      ¬(strict = true → ∀ g ∈ chosen, layer.isMutex f g = false) := by
    cases strict <;> simp
  rw [FactLayer.named, List.mem_filter, beq_iff_eq, h.unify_withValues hl f ρ]
  constructor
  · rintro ⟨⟨hf, hn⟩, hb⟩
    split at hb
    · cases hb
    · rename_i hsk
      split at hb
      · rename_i hcond
        cases hm : a.matchTerms ρ l.terms f.arguments with
        | none =>
          rw [hm] at hb
          cases hb
        | some ρ' =>
          rw [hm] at hb
          exact ⟨hf, not_not.1 fun hn => hsk (hskip.2 hn), hn.symm, hcond.2, ρ', rfl, hb⟩
      · cases hb
  · rintro ⟨hf, hfree, hn, har, ρ', hρ', hb⟩
    refine ⟨⟨hf, hn.symm⟩, ?_⟩
    rw [if_neg fun hs => hskip.1 hs hfree, if_pos ⟨hn, har⟩, hρ']
    exact hb

/-- What the search finds: all preconditions say facts of the layer, and in strict mode none of
these excludes another one. -/
theorem Loose.assignments_sound (h : a.Loose) : ∀ {ls : List Literal},
    (∀ l ∈ ls, a.Holds l.terms) → ∀ {chosen : List Fact} {ρ : Nat → Option String} {b : Arena},
      b ∈ Schema.assignments layer strict ls chosen (a.withValues ρ) →
      ∃ ρ' fs, b = a.withValues ρ' ∧ a.Grows (layer.facts.flatMap Fact.arguments) ρ ρ' ∧
        List.Forall₂ (Literal.Says ρ') ls fs ∧ (∀ f ∈ fs, f ∈ layer.facts) ∧
        (strict = true → Free layer chosen → Free layer (chosen ++ fs))
  | [], _, chosen, ρ, b, hb => by
    rw [Schema.assignments, List.mem_singleton] at hb
    refine ⟨ρ, [], hb, .refl a _ ρ, .nil, fun f hf => absurd hf List.not_mem_nil, fun _ hfree => ?_⟩
    rwa [List.append_nil]
  | l :: rest, hls, chosen, ρ, b, hb => by
    obtain ⟨f, hf, hfree, hn, har, ρ₁, hm, hb⟩ :=
      (h.mem_assignments_cons (hls l List.mem_cons_self)).1 hb
    obtain ⟨hg, hterms⟩ := h.grows_matchTerms har hm
    obtain ⟨ρ', fs, hb, hg', hsaid, hfs, hpair⟩ :=
      h.assignments_sound (fun m hm => hls m (List.mem_cons_of_mem l hm)) hb
    have hargs : ∀ v ∈ f.arguments, v ∈ layer.facts.flatMap Fact.arguments :=
      fun v hv => List.mem_flatMap.2 ⟨f, hf, hv⟩
    refine ⟨ρ', f :: fs, hb, (hg.mono hargs).trans hg', .cons ⟨hn, hg'.matches hterms⟩ hsaid,
      List.forall_mem_cons.2 ⟨hf, hfs⟩, fun hs hch => ?_⟩
    have hch' : Free layer (chosen ++ [f]) := by
      refine List.pairwise_append.2 ⟨hch, List.pairwise_singleton _ f, fun g hg e he => ?_⟩
      rw [List.mem_singleton.1 he]
      exact hfree hs g hg
    simpa using hpair hs hch'

/-- The search finds every separating substitution that puts the preconditions into the layer. -/
theorem Loose.assignments_complete (h : a.Loose) {σ : Nat → String} (hσ : a.Separates σ) :
    ∀ {ls : List Literal}, (∀ l ∈ ls, a.Holds l.terms) → (∀ l ∈ ls, l.under σ ∈ layer.facts) →
      ∀ {chosen : List Fact} {ρ : Nat → Option String},
      (strict = true → Free layer (chosen ++ ls.map (Literal.under σ))) → Agrees ρ σ →
      a.BindsConstants ρ →
      ∃ ρ', a.withValues ρ' ∈ Schema.assignments layer strict ls chosen (a.withValues ρ) ∧
        Agrees ρ' σ ∧ a.Grows (layer.facts.flatMap Fact.arguments) ρ ρ' ∧
        ∀ l ∈ ls, l.Says ρ' (l.under σ)
  | [], _, _, chosen, ρ, _, hρ, _ => by
    refine ⟨ρ, ?_, hρ, .refl a _ ρ, fun l hl => absurd hl List.not_mem_nil⟩
    rw [Schema.assignments]
    exact List.mem_cons_self
  | l :: rest, hls, hfacts, chosen, ρ, hfree, hρ, hc => by
    have hl := hls l List.mem_cons_self
    have hf := hfacts l List.mem_cons_self
    obtain ⟨ρ₁, hm, hρ₁⟩ := h.matchTerms_of_agrees hσ l.terms hρ hc
    have har : l.arity = (l.under σ).arguments.length := (List.length_map _).symm
    obtain ⟨hg, hterms⟩ := h.grows_matchTerms har hm
    have hfree' : strict = true →
        Free layer ((chosen ++ [l.under σ]) ++ rest.map (Literal.under σ)) := by
      intro hs
      simpa using hfree hs
    obtain ⟨ρ', hmem, hρ', hg', hsaid⟩ :=
      h.assignments_complete hσ (fun m hm => hls m (List.mem_cons_of_mem l hm))
        (fun m hm => hfacts m (List.mem_cons_of_mem l hm)) hfree' hρ₁ (hg.bindsConstants hc)
    have hargs : ∀ v ∈ (l.under σ).arguments, v ∈ layer.facts.flatMap Fact.arguments :=
      fun v hv => List.mem_flatMap.2 ⟨_, hf, hv⟩
    refine ⟨ρ', (h.mem_assignments_cons hl).2 ⟨l.under σ, hf, fun hs g hg => ?_, rfl, har, ρ₁, hm,
      hmem⟩, hρ', (hg.mono hargs).trans hg',
      List.forall_mem_cons.2 ⟨⟨rfl, hg'.matches hterms⟩, hsaid⟩⟩
    exact (List.pairwise_append.1 (hfree hs)).2.2 g hg _ List.mem_cons_self

end Arena

end Strips
