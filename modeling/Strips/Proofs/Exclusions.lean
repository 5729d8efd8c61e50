import Strips.Proofs.Hosting
import Strips.Workbench.Lookup

/-!
# Exclusions of constant literals

On a workbench, the pairs that exclude each other are noted with the marks that their members had at
the time. A constant literal says one fact for ever, so nothing that happens on the workbench makes
a difference for it: which constant literals exclude each other is a symmetric relation on facts.

## Main definitions

* `Workbench.Keeps` – a workbench on which the constants of an arena have their values.
* `Exclusions.Says` – exclusions that were noted for constant literals, and the relation that they
  are.

## Main results

* `Exclusions.Says.contains` – two constant literals exclude each other if the facts that they say
  are related.
-/

namespace Strips

/-- The constant cells of an arena have their values on a workbench. -/
def Workbench.Keeps (c : Workbench) (a : Arena) : Prop :=
  ∀ k, a.isConstant k = true → (a.value? k).isSome = true ∧ c.arena.value? k = a.value? k

namespace Literal

variable {c : Workbench} {a : Arena} (hc : c.Keeps a) {l m : Literal}

include hc

/-- A constant literal says a fact. -/
theorem resolve_of_isConstant (hl : l.isConstant a = true) :
    l.resolve c.arena = (l.shown a).literal := by
  rw [resolve, shown, Fact.literal, values, List.map_map, List.map_map]
  refine congrArg (Literal.mk l.name) (List.map_congr_left fun t ht => ?_)
  have ht := List.all_eq_true.1 hl t ht
  cases t with
  | const v => rfl
  | cell k =>
    obtain ⟨hsome, hvalue⟩ := hc k ht
    obtain ⟨v, hv⟩ := Option.isSome_iff_exists.1 hsome
    have hterm : Term.value? a (.cell k) = some v := hv
    rw [Term.resolve, hvalue, hv, Function.comp_apply, Function.comp_apply, hterm]
    rfl

theorem key_of_isConstant (hl : l.isConstant a = true) :
    l.key c.arena = (l.name, (l.shown a).arguments.map some) := by
  rw [key, shown, values, values, List.map_map, List.map_map]
  refine congrArg (Prod.mk l.name) (List.map_congr_left fun t ht => ?_)
  have ht := List.all_eq_true.1 hl t ht
  cases t with
  | const v => rfl
  | cell k =>
    obtain ⟨hsome, hvalue⟩ := hc k ht
    obtain ⟨v, hv⟩ := Option.isSome_iff_exists.1 hsome
    have hterm : Term.value? a (.cell k) = some v := hv
    have hterm' : Term.value? c.arena (.cell k) = some v := hvalue.trans hv
    rw [Function.comp_apply, Function.comp_apply, hterm, hterm']
    rfl

theorem same_iff_shown (hl : l.isConstant a = true) (hm : m.isConstant a = true) :
    l.same c.arena m = true ↔ l.shown a = m.shown a := by
  rw [same, beq_iff_eq, resolve_of_isConstant hc hl, resolve_of_isConstant hc hm]
  refine ⟨fun heq => ?_, fun heq => by rw [heq]⟩
  have hname := congrArg Literal.name heq
  have hterms := congrArg Literal.terms heq
  rw [Fact.literal, Fact.literal] at hterms
  have harguments := List.map_injective_iff.2 (fun _ _ => Term.const.inj) hterms
  cases hshown : l.shown a
  cases hshown' : m.shown a
  rw [hshown, hshown'] at hname harguments
  exact congrArg₂ Fact.mk hname harguments

end Literal

namespace Fact

/-- The mark of what says a fact. -/
def mark (f : Fact) : Mark := .literal (f.name, f.arguments.map some)

theorem mark_same_iff {f g : Fact} : f.mark.same g.mark = true ↔ f = g := by
  rw [mark, mark, Mark.same, beq_iff_eq, Prod.mk.injEq]
  refine ⟨fun ⟨hname, harguments⟩ => ?_, fun heq => by rw [heq]; exact ⟨rfl, rfl⟩⟩
  have harguments := List.map_injective_iff.2 (fun _ _ => Option.some.inj) harguments
  cases f
  cases g
  exact congrArg₂ Fact.mk hname harguments

end Fact

/-! ### Pairs -/

/-- A constant literal as it is noted. -/
def Literal.noted (a : Arena) (l : Literal) : Noted := ⟨.literal l, (l.shown a).mark⟩

/-- A pair of constant literals as it is noted. -/
def Literal.pair (a : Arena) (l m : Literal) : Exclusion :=
  if l.shown a = m.shown a then [l.noted a] else [l.noted a, m.noted a]

namespace Workbench

variable {c : Workbench} {a : Arena} (hc : c.Keeps a) {l m l' m' : Literal}

include hc

theorem note_literal (hl : l.isConstant a = true) : c.note (.literal l) = l.noted a := by
  rw [note, mark, Literal.key_of_isConstant hc hl]
  rfl

theorem finds_noted (hl : l.isConstant a = true) (hm : m.isConstant a = true) :
    c.finds (l.noted a) (m.noted a) = true ↔ l.shown a = m.shown a := by
  rw [finds, Bool.and_eq_true]
  have hsame := Literal.same_iff_shown hc hl hm
  exact ⟨fun h => hsame.1 h.2, fun h => ⟨Fact.mark_same_iff.2 h, hsame.2 h⟩⟩

theorem exclusion_literal (hl : l.isConstant a = true) (hm : m.isConstant a = true) :
    c.exclusion (.literal l) (.literal m) = Literal.pair a l m := by
  rw [exclusion, note_literal hc hl, note_literal hc hm, Literal.pair]
  exact if_congr (finds_noted hc hl hm) rfl rfl

/-- A pair is found by one that says the same facts, in whatever order. -/
theorem findsPair_pair (hl : l.isConstant a = true) (hm : m.isConstant a = true)
    (hl' : l'.isConstant a = true) (hm' : m'.isConstant a = true) :
    c.findsPair (Literal.pair a l m) (Literal.pair a l' m') = true ↔
      l.shown a = l'.shown a ∧ m.shown a = m'.shown a ∨
        m.shown a = l'.shown a ∧ l.shown a = m'.shown a := by
  have hmark : ∀ {x y : Literal}, (x.noted a).mark.same (y.noted a).mark = true ↔
      x.shown a = y.shown a := Fact.mark_same_iff
  rw [Literal.pair, Literal.pair, findsPair]
  split <;> split
  all_goals
    simp only [List.length_cons, List.length_nil, List.all_cons, List.all_nil, List.any_cons,
      List.any_nil, Bool.and_eq_true, Bool.or_eq_true, Bool.or_false, Bool.and_true, hmark,
      finds_noted hc hl hl', finds_noted hc hl hm', finds_noted hc hm hl', finds_noted hc hm hm',
      beq_iff_eq]
    grind

end Workbench

namespace Exclusions

/-! ### Rows -/

/-- The pairs in the row of a mark. -/
def rowOf (rows : List (Mark × List Exclusion)) (mark : Mark) : List Exclusion :=
  ((rows.find? (·.1.same mark)).map Prod.snd).getD []

theorem mark_same_fact {mark : Mark} {f : Fact} (h : mark.same f.mark = true) : mark = f.mark := by
  cases mark with
  | literal key =>
    rw [Fact.mark, Mark.same, beq_iff_eq] at h
    rw [h, Fact.mark]
  | key _ | object _ => cases h

theorem rowOf_addToRow (pair : Exclusion) (f g : Fact) : ∀ rows : List (Mark × List Exclusion),
    rowOf (addToRow pair f.mark rows) g.mark =
      if f = g then pair :: rowOf rows g.mark else rowOf rows g.mark
  | [] => by
    rw [addToRow, rowOf, List.find?_cons]
    by_cases hfg : f = g
    · rw [if_pos hfg, Fact.mark_same_iff.2 hfg]
      rfl
    · rw [if_neg hfg, Bool.eq_false_iff.2 (mt Fact.mark_same_iff.1 hfg)]
      rfl
  | (mark, pairs) :: rest => by
    have ih := rowOf_addToRow pair f g rest
    rw [addToRow]
    by_cases hf : mark.same f.mark = true
    · obtain rfl := mark_same_fact hf
      rw [if_pos hf]
      simp only [rowOf, List.find?_cons]
      by_cases hfg : f = g
      · rw [if_pos hfg, Fact.mark_same_iff.2 hfg]
        rfl
      · rw [if_neg hfg, Bool.eq_false_iff.2 (mt Fact.mark_same_iff.1 hfg)]
    · rw [if_neg hf]
      by_cases hg : mark.same g.mark = true
      · have hfg : f ≠ g := by
          rintro rfl
          exact hf hg
        rw [if_neg hfg]
        simp only [rowOf, List.find?_cons, hg]
      · simp only [rowOf, List.find?_cons, hg]
        exact ih

/-- Two facts are excluded: a pair that says them stands in the row of the first one. -/
def Excludes (a : Arena) (x : Exclusions) (f g : Fact) : Prop :=
  ∃ l m : Literal, Literal.pair a l m ∈ rowOf x.rows f.mark ∧ l.isConstant a = true ∧
    m.isConstant a = true ∧ (l.shown a = f ∧ m.shown a = g ∨ m.shown a = f ∧ l.shown a = g)

/-- Exclusions that were noted for constant literals, and the relation of the facts that they
say. -/
inductive Says (a : Arena) : Exclusions → PairRelation Fact → Prop
  | empty : Says a {} {}
  | insert {x : Exclusions} {r : PairRelation Fact} {c : Workbench} {l m : Literal} :
      Says a x r → c.Keeps a → l.isConstant a = true → m.isConstant a = true →
      Says a (x.insert c (.literal l) (.literal m)) (r.add (l.shown a) (m.shown a))

/-- What is kept while pairs are noted. -/
structure Tidy (a : Arena) (x : Exclusions) (r : PairRelation Fact) : Prop where
  isSymm : r.IsSymm
  rows : ∀ f : Fact, ∀ pair ∈ rowOf x.rows f.mark, ∃ l m : Literal, pair = Literal.pair a l m ∧
    l.isConstant a = true ∧ m.isConstant a = true
  excludes : ∀ f g, x.Excludes a f g ↔ r.contains f g = true

/-- A question about two constant literals. -/
theorem Tidy.contains {a : Arena} {x : Exclusions} {r : PairRelation Fact} (h : x.Tidy a r)
    {c : Workbench} (hc : c.Keeps a) {l m : Literal} (hl : l.isConstant a = true)
    (hm : m.isConstant a = true) :
    x.contains c (.literal l) (.literal m) = r.contains (l.shown a) (m.shown a) := by
  have hhead : (Literal.pair a l m).head? = some (l.noted a) := by
    rw [Literal.pair]
    split <;> rfl
  rw [Bool.eq_iff_iff, ← h.excludes, Exclusions.contains, Workbench.exclusion_literal hc hl hm,
    finds, hhead]
  change (rowOf x.rows (l.shown a).mark).any (c.findsPair (Literal.pair a l m)) = true ↔ _
  rw [List.any_eq_true]
  constructor
  · rintro ⟨pair, hpair, hfinds⟩
    obtain ⟨l', m', rfl, hl', hm'⟩ := h.rows _ pair hpair
    refine ⟨l', m', hpair, hl', hm', ?_⟩
    rcases (Workbench.findsPair_pair hc hl hm hl' hm').1 hfinds with ⟨h₁, h₂⟩ | ⟨h₁, h₂⟩
    · exact .inl ⟨h₁.symm, h₂.symm⟩
    · exact .inr ⟨h₂.symm, h₁.symm⟩
  · rintro ⟨l', m', hpair, hl', hm', hsays⟩
    refine ⟨_, hpair, (Workbench.findsPair_pair hc hl hm hl' hm').2 ?_⟩
    rcases hsays with ⟨h₁, h₂⟩ | ⟨h₁, h₂⟩
    · exact .inl ⟨h₁.symm, h₂.symm⟩
    · exact .inr ⟨h₂.symm, h₁.symm⟩

theorem tidy_empty (a : Arena) : Tidy a {} {} where
  isSymm := PairRelation.isSymm_empty
  rows f pair hpair := by cases hpair
  excludes f g := by
    refine iff_of_false ?_ Bool.false_ne_true
    rintro ⟨l, m, hpair, -⟩
    cases hpair

/-- The rows after a pair was noted. -/
theorem rowOf_insert {x : Exclusions} {c : Workbench} {a : Arena} (hc : c.Keeps a) {l m : Literal}
    (hl : l.isConstant a = true) (hm : m.isConstant a = true)
    (hnew : x.contains c (.literal l) (.literal m) = false) (f : Fact) :
    rowOf (x.insert c (.literal l) (.literal m)).rows f.mark =
      if l.shown a = f ∨ m.shown a = f then Literal.pair a l m :: rowOf x.rows f.mark
      else rowOf x.rows f.mark := by
  have hnew' : x.finds c (c.exclusion (.literal l) (.literal m)) = false := hnew
  rw [insert, hnew', if_neg Bool.false_ne_true, Workbench.exclusion_literal hc hl hm]
  by_cases hlm : l.shown a = m.shown a
  · have hpair : Literal.pair a l m = [l.noted a] := if_pos hlm
    rw [hpair]
    change rowOf (addToRow _ (l.shown a).mark x.rows) f.mark = _
    rw [rowOf_addToRow, ← hlm]
    exact if_congr (or_self_iff).symm rfl rfl
  · have hpair : Literal.pair a l m = [l.noted a, m.noted a] := if_neg hlm
    rw [hpair]
    change rowOf (addToRow _ (m.shown a).mark (addToRow _ (l.shown a).mark x.rows)) f.mark = _
    rw [rowOf_addToRow, rowOf_addToRow]
    by_cases hlf : l.shown a = f <;> by_cases hmf : m.shown a = f
    · exact absurd (hlf.trans hmf.symm) hlm
    all_goals simp [hlf, hmf]

theorem Says.tidy {a : Arena} {x : Exclusions} {r : PairRelation Fact} (h : x.Says a r) :
    x.Tidy a r := by
  induction h with
  | empty => exact tidy_empty a
  | @insert x r c l m _ hc hl hm ih =>
    have hcontains := ih.contains hc hl hm
    cases hnew : x.contains c (.literal l) (.literal m) with
    | true =>
      have hx : x.insert c (.literal l) (.literal m) = x := if_pos hnew
      have hr : r.add (l.shown a) (m.shown a) = r := if_pos (hcontains.symm.trans hnew)
      rw [hx, hr]
      exact ih
    | false =>
      have hrow := rowOf_insert hc hl hm hnew
      refine ⟨ih.isSymm.add _ _, fun f pair hpair => ?_, fun f g => ?_⟩
      · rw [hrow] at hpair
        split at hpair
        · rcases List.mem_cons.1 hpair with rfl | hpair
          · exact ⟨l, m, rfl, hl, hm⟩
          · exact ih.rows f pair hpair
        · exact ih.rows f pair hpair
      · rw [PairRelation.contains_add r ih.isSymm, Bool.or_eq_true, Bool.or_eq_true,
          Bool.and_eq_true, Bool.and_eq_true, beq_iff_eq, beq_iff_eq, beq_iff_eq, beq_iff_eq,
          ← ih.excludes]
        constructor
        · rintro ⟨l', m', hpair, hl', hm', hsays⟩
          rw [hrow] at hpair
          split at hpair
          · rcases List.mem_cons.1 hpair with heq | hold
            · -- the new pair says the facts of `l` and `m`
              have hself := (Workbench.findsPair_pair hc hl hm hl hm).2 (.inl ⟨rfl, rfl⟩)
              have hfacts := (Workbench.findsPair_pair hc hl hm hl' hm').1 (heq ▸ hself)
              grind
            · exact .inl (.inl ⟨l', m', hold, hl', hm', hsays⟩)
          · exact .inl (.inl ⟨l', m', hpair, hl', hm', hsays⟩)
        · rintro ((⟨l', m', hpair, hl', hm', hsays⟩ | hsays) | hsays)
          · refine ⟨l', m', ?_, hl', hm', hsays⟩
            rw [hrow]
            split
            · exact List.mem_cons_of_mem _ hpair
            · exact hpair
          · refine ⟨l, m, ?_, hl, hm, .inl hsays⟩
            rw [hrow, if_pos (.inl hsays.1)]
            exact List.mem_cons_self
          · refine ⟨l, m, ?_, hl, hm, .inr hsays⟩
            rw [hrow, if_pos (.inr hsays.1)]
            exact List.mem_cons_self

/-- **What exclusions of constant literals say** does not depend on the workbench. -/
theorem Says.contains {a : Arena} {x : Exclusions} {r : PairRelation Fact} (h : x.Says a r)
    {c : Workbench} (hc : c.Keeps a) {l m : Literal} (hl : l.isConstant a = true)
    (hm : m.isConstant a = true) :
    x.contains c (.literal l) (.literal m) = r.contains (l.shown a) (m.shown a) :=
  h.tidy.contains hc hl hm

end Exclusions

end Strips
