import Strips.Proofs.Consistency
import Strips.Proofs.Ladder
import Strips.Proofs.Names
import Strips.Proofs.Rounds
import Strips.Proofs.Spelling

/-!
# Printed instances are read back

A step that is printed as a statement, and given a dot, is a problem text. It is read as one schema
without variables that says just what the step does, in the same order.

Not every step can be written down. What would be misread is a name that is no word, an argument
that is a variable, a precondition called `distinct`, an added fact called `not`, and what is said
twice. The proof has two halves that meet at the steps without all this: writable steps are read
back, and the instances that a search finds are writable. The second half needs to know where facts
come from, since the search puts their arguments in for variables.

A keyword in place of the name is another matter: an action can be called `goal`, but only after a
keyword.

## Main definitions

* `Fact.Writable`, `Step.Writable` – what can be written down as it is.
* `Schema.Restates` – a schema without variables says what a step does.
* `Schema.Writable` – a schema whose instances over writable facts are writable.
* `Fact.Arises` – the facts that layers are made of: those of texts and those that are derived.

## Main results

* `Step.Writable.exists_parse` – a writable step is read back.
* `Schema.Writable.of_mem_instances` – instances over writable facts are writable.
* `Graph.arises_of_level?` – the facts of planning graphs arise.
* `Problem.parse_describe` – printed instances are read back.
-/

namespace Strips

/-! ### What can be written down -/

/-- A fact of words, none of its arguments a variable. -/
structure Fact.Writable (f : Fact) : Prop where
  worded : f.IsWorded
  closed : ∀ x ∈ f.arguments, isVariable x = false

/-- A step that nothing in the grammar takes for something else. -/
structure Step.Writable (a : Step) : Prop where
  name : IsWord a.name.toList
  facts : ∀ f ∈ a.preconditions ++ a.deleted ++ a.added, f.Writable
  needed : ∀ f ∈ a.preconditions, f.name ≠ distinctName
  affirmed : ∀ f ∈ a.added, f.name ≠ "not"
  preconditions : a.preconditions.Nodup
  deleted : a.deleted.Nodup
  added : a.added.Nodup

/-- The schema has no variables and no constraints, and says what the step does, in its order. -/
structure Schema.Restates (s : Schema) (a : Step) : Prop where
  name : s.action.name = a.name
  parameters : s.action.parameters = []
  constant : ∀ l ∈ s.action.literals, l.isConstant s.arena = true
  distinct : s.action.distinct = []
  preconditions : s.action.preconditions.members.map (·.fact? s.arena) = a.preconditions.map some
  negative : s.action.negative.members.map (·.fact? s.arena) = a.deleted.map some
  positive : s.action.positive.members.map (·.fact? s.arena) = a.added.map some

/-! ### Writable steps are read back -/

namespace Fact.Writable

variable {f : Fact} (h : f.Writable)

include h

theorem vars_written : f.written.vars = [] := by
  rw [WrittenLiteral.vars, f.arguments_written, List.filter_eq_nil_iff]
  intro x hx
  rw [h.closed x hx]
  exact Bool.false_ne_true

/-- Whatever cells there are, the written fact is the fact. -/
theorem over_written (cell : String → Nat) : f.written.over cell = f.literal := by
  rw [WrittenLiteral.over, f.arguments_written]
  refine congrArg (Literal.mk f.name) (List.map_congr_left fun x hx => ?_)
  rw [writtenTerm, h.closed x hx]
  exact if_neg Bool.false_ne_true

end Fact.Writable

/-- Facts that are written once each are read as they are. -/
theorem eraseDups_map_over {facts : List Fact} (hfacts : ∀ f ∈ facts, f.Writable)
    (hnodup : facts.Nodup) (cell : String → Nat) :
    ((facts.map Fact.written).map (·.over cell)).eraseDups = facts.map Fact.literal := by
  have hover : (facts.map Fact.written).map (·.over cell) = facts.map Fact.literal := by
    rw [List.map_map]
    exact List.map_congr_left fun f hf => (hfacts f hf).over_written cell
  rw [hover, eraseDups_eq_self (hnodup.map Fact.literal_injective)]

theorem Term.value?_of_resolve_eq {arena : Arena} {t : Term} {x : String}
    (h : t.resolve arena = .const x) : t.value? arena = some x := by
  cases t with
  | const v => exact congrArg some (Term.const.inj h)
  | cell i =>
    rw [resolve] at h
    split at h
    · rename_i v hv
      exact hv.trans (congrArg some (Term.const.inj h))
    · cases h

/-- Lists with equal images under two functions have equal images under others that are equal
wherever the first ones are. -/
theorem map_eq_map_of_imp {α β γ δ : Type} {f : α → γ} {g : β → γ} {f' : α → δ} {g' : β → δ}
    (h : ∀ a b, f a = g b → f' a = g' b) {as : List α} {bs : List β} (heq : as.map f = bs.map g) :
    as.map f' = bs.map g' := by
  rw [← List.forall₂_eq_eq_eq, List.forall₂_map_left_iff, List.forall₂_map_right_iff] at heq ⊢
  exact heq.imp h

/-- A literal with the values of a fact says the fact. -/
theorem Literal.fact?_of_resolve_eq {arena : Arena} {l : Literal} {f : Fact}
    (h : l.resolve arena = f.literal) : l.fact? arena = some f := by
  obtain ⟨hname, hterms⟩ := Literal.mk.inj h
  have hvalues : l.values arena = f.literal.values .empty := by
    rw [values, values, Fact.literal, List.map_map]
    exact map_eq_map_of_imp (fun _ _ => Term.value?_of_resolve_eq) hterms
  rw [fact?, hvalues, hname]
  exact f.fact?_literal

/-- In a regular schema it has no variables. -/
theorem Schema.Regular.isConstant_of_resolve_eq {s : Schema} (h : s.Regular) {l : Literal}
    {f : Fact} (hl : l.resolve s.arena = f.literal) : l.isConstant s.arena = true := by
  refine List.all_eq_true.2 fun t ht => ?_
  have hmem : t.resolve s.arena ∈ f.literal.terms := hl ▸ List.mem_map_of_mem ht
  obtain ⟨x, -, hx⟩ := List.mem_map.1 hmem
  have hvalue := Term.value?_of_resolve_eq hx.symm
  cases t with
  | const v => rfl
  | cell i =>
    change s.arena.value? i = some x at hvalue
    rw [Term.isConstant, ← h.isSome_value?, hvalue]
    rfl

namespace Step

theorem effectsWith_written_true (a : Step) :
    a.written.effectsWith true = a.deleted.map Fact.written := by
  simp [written, effects, WrittenAction.effectsWith, List.filter_map, Function.comp_def]

theorem effectsWith_written_false (a : Step) :
    a.written.effectsWith false = a.added.map Fact.written := by
  simp [written, effects, WrittenAction.effectsWith, List.filter_map, Function.comp_def]

namespace Writable

variable {a : Step} (h : a.Writable)

include h

theorem writable_preconditions : ∀ f ∈ a.preconditions, f.Writable :=
  fun f hf => h.facts f (by simp [hf])

theorem writable_deleted : ∀ f ∈ a.deleted, f.Writable := fun f hf => h.facts f (by simp [hf])

theorem writable_added : ∀ f ∈ a.added, f.Writable := fun f hf => h.facts f (by simp [hf])

theorem constraints_written : a.written.constraints = [] := by
  refine List.filter_eq_nil_iff.2 fun l hl => ?_
  obtain ⟨f, hf, rfl⟩ := List.mem_map.1 hl
  exact fun hname => h.needed f hf (beq_iff_eq.1 hname)

theorem needed_written : a.written.needed = a.preconditions.map Fact.written := by
  refine List.filter_eq_self.2 fun l hl => ?_
  obtain ⟨f, hf, rfl⟩ := List.mem_map.1 hl
  exact bne_iff_ne.2 (h.needed f hf)

theorem vars_written : a.written.vars = [] := by
  have hnone : ∀ f ∈ a.preconditions ++ a.deleted ++ a.added, f.written.vars = [] :=
    fun f hf => (h.facts f hf).vars_written
  rw [WrittenAction.vars, h.needed_written, effectsWith_written_true, effectsWith_written_false,
    ← List.map_append, ← List.map_append, List.flatMap_map,
    List.flatMap_eq_nil_iff.2 hnone]
  rfl

/-- **What is read from a writable step** restates it. -/
theorem restates {s : Schema} (hs : s.Regular) {cell : String → Nat}
    (hstated : s.Says a.written cell) : s.Restates a := by
  have hpreconditions := hstated.preconditions
  rw [h.needed_written, eraseDups_map_over h.writable_preconditions h.preconditions]
    at hpreconditions
  have hnegative := hstated.negative
  rw [effectsWith_written_true, eraseDups_map_over h.writable_deleted h.deleted] at hnegative
  have hpositive := hstated.positive
  rw [effectsWith_written_false, eraseDups_map_over h.writable_added h.added] at hpositive
  have hsaid : ∀ {ls : List Literal} {facts : List Fact},
      ls.map (·.resolve s.arena) = facts.map Fact.literal →
        ls.map (·.fact? s.arena) = facts.map some ∧ ∀ l ∈ ls, l.isConstant s.arena = true := by
    intro ls facts heq
    refine ⟨map_eq_map_of_imp (fun _ _ => Literal.fact?_of_resolve_eq) heq, fun l hl => ?_⟩
    have hmem : l.resolve s.arena ∈ facts.map Fact.literal := heq ▸ List.mem_map_of_mem hl
    obtain ⟨f, -, hf⟩ := List.mem_map.1 hmem
    exact hs.isConstant_of_resolve_eq hf.symm
  refine ⟨hstated.name, ?_, fun l hl => ?_, ?_, (hsaid hpreconditions).1, (hsaid hnegative).1,
    (hsaid hpositive).1⟩
  · rw [hstated.parameters, h.vars_written]
    rfl
  · rcases Action.mem_literals.1 hl with hl | hl | hl
    · exact (hsaid hpreconditions).2 l hl
    · exact (hsaid hnegative).2 l hl
    · exact (hsaid hpositive).2 l hl
  · have hdistinct := hstated.distinct
    rw [h.constraints_written] at hdistinct
    exact List.map_eq_nil_iff.1 hdistinct

/-- The statement is one of the grammar, unless the name is a keyword. -/
theorem grammatical (hname : ∀ k : Keyword, a.name ≠ k.word) :
    (⟨none, .action a.written⟩ : WrittenStatement).Grammatical := by
  refine ⟨⟨fun _ => hname, ?_⟩, nofun⟩
  rintro _ ⟨⟩ e he hdenied
  obtain ⟨⟨denied, f⟩, hf, rfl⟩ := List.mem_map.1 he
  obtain rfl : denied = false := hdenied
  have hadded : f ∈ a.added := by simpa [effects] using hf
  exact h.affirmed f hadded

theorem admissible : (⟨none, .action a.written⟩ : WrittenStatement).Admissible := by
  refine ⟨fun l hl => ?_, fun e he x hx => ?_⟩
  · rw [h.constraints_written] at hl
    exact absurd hl List.not_mem_nil
  · obtain ⟨⟨denied, f⟩, hf, rfl⟩ := List.mem_map.1 he
    have hwritable : f ∈ a.preconditions ++ a.deleted ++ a.added := by
      rcases List.mem_append.1 hf with hf | hf
      all_goals
        obtain ⟨g, hg, heq⟩ := List.mem_map.1 hf
        obtain ⟨-, rfl⟩ := Prod.mk.inj heq
        simp [hg]
    rw [(h.facts f hwritable).vars_written] at hx
    exact absurd hx List.not_mem_nil

/-- **A writable step is read back**, unless its name is a keyword. -/
theorem exists_parse (hname : ∀ k : Keyword, a.name ≠ k.word) :
    ∃ s, Problem.parse (a.describe ++ ".") = .ok { schemas := [s] } ∧ s.Restates a := by
  obtain ⟨tokens, htokens, hlexemes⟩ :=
    exists_tokenize_describe h.name fun f hf => (h.facts f hf).worded
  obtain ⟨ss, haccepted⟩ := WrittenStatement.exists_accepted false
    (List.forall_mem_singleton.2 ⟨h.grammatical hname, h.admissible⟩)
  have hparse : Problem.parse (a.describe ++ ".") = .ok (ss.foldl Problem.add {}) := by
    rw [Problem.parse, htokens]
    exact Problem.ofTokens_eq_ok_iff.2 ⟨_, ss, haccepted, by simpa using hlexemes, rfl⟩
  have hlists := Problem.lists_foldl haccepted
  have hregular := Problem.regular_of_parse hparse
  generalize ss.foldl Problem.add {} = p at hparse hlists hregular
  obtain ⟨schemas, initial, goals⟩ := p
  obtain ⟨hschemas, rfl, rfl⟩ := hlists
  obtain ⟨s, rest, ⟨cell, hstated⟩, hrest, rfl⟩ := List.forall₂_cons_right_iff.1 hschemas
  obtain rfl := List.forall₂_nil_right_iff.1 hrest
  exact ⟨s, hparse, h.restates (hregular s List.mem_cons_self) hstated⟩

end Writable

end Step

/-! ### Texts are made of writable parts -/

/-- A schema whose instances over writable facts can be written down. -/
structure Schema.Writable (s : Schema) : Prop where
  regular : s.Regular
  worded : s.EachName fun x => IsWord x.toList
  closed : ∀ l ∈ s.action.literals, ∀ v, .const v ∈ (l.resolve s.arena).terms →
    isVariable v = false
  needed : ∀ l ∈ s.action.preconditions.members, l.name ≠ distinctName
  affirmed : ∀ l ∈ s.action.positive.members, l.name ≠ "not"

/-- A schema says what was written, without constants that are variables and without keywords in
place of names. -/
theorem Schema.Says.writable {s : Schema} {a : WrittenAction} {cell : String → Nat}
    (h : s.Says a cell) (hregular : s.Regular) (hworded : s.EachName fun x => IsWord x.toList)
    (hleads : ∀ e ∈ a.effects, e.Leads) : s.Writable := by
  refine ⟨hregular, hworded, fun l hl v hv => ?_, fun l hl => ?_, fun l hl => ?_⟩
  · have hwritten : ∃ m : WrittenLiteral, m.over cell = l.resolve s.arena := by
      rcases Action.mem_literals.1 hl with hl | hl | hl
      · exact (exists_over_of_mem h.preconditions hl).imp fun _ => And.right
      · exact (exists_over_of_mem h.negative hl).imp fun _ => And.right
      · exact (exists_over_of_mem h.positive hl).imp fun _ => And.right
    obtain ⟨m, hm⟩ := hwritten
    exact (WrittenLiteral.mem_of_const_mem_over (hm ▸ hv)).2
  · obtain ⟨m, hm, heq⟩ := exists_over_of_mem h.preconditions hl
    have hname : m.name = l.name := congrArg Literal.name heq
    exact hname ▸ bne_iff_ne.1 (List.mem_filter.1 hm).2
  · obtain ⟨m, hm, heq⟩ := exists_over_of_mem h.positive hl
    have hname : m.name = l.name := congrArg Literal.name heq
    obtain ⟨e, he, rfl⟩ := List.mem_map.1 hm
    obtain ⟨he, hdenied⟩ := List.mem_filter.1 he
    exact hname ▸ hleads e he (beq_iff_eq.1 hdenied)

theorem WrittenStatement.Accepted.leads_admissible {mode : Bool} {ws : List WrittenStatement}
    {ss : List Statement} (h : Accepted mode ws ss) : ∀ w ∈ ws, w.Leads ∧ w.Admissible := by
  induction h with
  | nil => exact fun w hw => absurd hw List.not_mem_nil
  | cons hleads _ hmeans _ ih =>
    exact List.forall_mem_cons.2 ⟨⟨hleads, (exists_means_iff _).1 ⟨_, hmeans⟩⟩, ih⟩

/-- The facts of statements are written there. -/
theorem WrittenStatement.exists_of_mem_facts : ∀ {mode : Bool} {ws : List WrittenStatement}
    {f : Bool × Fact}, f ∈ facts mode ws → ∃ w ∈ ws, ∃ l, w.body = .fact l ∧ f.2 = l.fact
  | _, [], _, hf => absurd hf List.not_mem_nil
  | mode, w :: ws, f, hf => by
    obtain ⟨k, l | a⟩ := w
    · rcases List.mem_cons.1 hf with rfl | hf
      · exact ⟨_, List.mem_cons_self, l, rfl, rfl⟩
      · obtain ⟨w, hw, hl⟩ := exists_of_mem_facts hf
        exact ⟨w, List.mem_cons_of_mem _ hw, hl⟩
    · have hlater : f ∈ facts ((⟨k, .action a⟩ : WrittenStatement).modeAfter mode) ws := hf
      obtain ⟨w, hw, hl⟩ := exists_of_mem_facts hlater
      exact ⟨w, List.mem_cons_of_mem _ hw, hl⟩

namespace Problem

variable {text : String} {p : Problem}

theorem writable_of_parse (h : parse text = .ok p) : ∀ s ∈ p.schemas, s.Writable := by
  intro s hs
  obtain ⟨-, ws, _, -, -, haccepted, hlists⟩ := exists_accepted_of_parse h
  obtain ⟨a, ha, cell, hstated⟩ := exists_of_mem_left hlists.schemas hs
  obtain ⟨⟨k, _ | b⟩, hw, hwa⟩ := List.mem_filterMap.1 ha
  · cases hwa
  · obtain rfl : b = a := Option.some.inj hwa
    exact hstated.writable (regular_of_parse h s hs) ((isWord_of_parse h).schemas s hs)
      ((haccepted.leads_admissible _ hw).1.effects b rfl)

theorem writable_fact_of_parse (h : parse text = .ok p) :
    ∀ f ∈ p.initial ++ p.goals, f.Writable := by
  intro f hf
  refine ⟨(isWord_of_parse h).facts f hf, ?_⟩
  obtain ⟨-, ws, _, -, -, haccepted, hlists⟩ := exists_accepted_of_parse h
  obtain ⟨b, hb, rfl⟩ := hlists.exists_of_mem hf
  obtain ⟨⟨k, body⟩, hw, l, rfl, hl⟩ := WrittenStatement.exists_of_mem_facts hb
  have hvars : l.vars = [] := (haccepted.leads_admissible _ hw).2
  rw [hl]
  exact fun x hx => Bool.eq_false_iff.2 (List.filter_eq_nil_iff.1 hvars x hx)

end Problem

/-! ### Instances are writable -/

/-- An argument of a literal under a substitution is a constant of it, or the value of a
variable. -/
theorem Schema.Admits.const_mem_or {s : Schema} {σ : Nat → String} (hσ : s.Admits σ)
    (hs : s.Regular) {l : Literal} {x : String} (hx : x ∈ (l.under σ).arguments) :
    .const x ∈ (l.resolve s.arena).terms ∨
      ∃ i, .cell i ∈ l.terms ∧ s.arena.isConstant i = false ∧ σ i = x := by
  obtain ⟨t, ht, rfl⟩ := List.mem_map.1 hx
  cases t with
  | const v => exact .inl (List.mem_map.2 ⟨_, ht, rfl⟩)
  | cell i =>
    cases hi : s.arena.isConstant i with
    | false => exact .inr ⟨i, ht, hi, rfl⟩
    | true =>
      obtain ⟨v, hv⟩ := Option.isSome_iff_exists.1 ((hs.isSome_value? i).trans hi)
      refine .inl (List.mem_map.2 ⟨_, ht, ?_⟩)
      rw [Term.resolve, hv, Term.under, hσ.constants i v hi hv]

/-- **Instances over writable facts are writable.** -/
theorem Schema.Writable.of_mem_instances {s : Schema} (h : s.Writable) {layer : FactLayer}
    (hlayer : ∀ f ∈ layer.facts, f.Writable) {strict : Bool} {a : Step}
    (ha : a ∈ s.instances layer strict) : a.Writable := by
  obtain ⟨σ, hσ, rfl, -, -, hsource⟩ := h.regular.exists_under ha
  have hargument : ∀ l ∈ s.action.literals, ∀ x ∈ (l.under σ).arguments,
      IsWord x.toList ∧ isVariable x = false := by
    intro l hl x hx
    rcases hσ.const_mem_or h.regular hx with hconst | ⟨i, hi, hfree, rfl⟩
    · exact ⟨(h.worded.literals l hl).constants x hconst, h.closed l hl x hconst⟩
    · obtain ⟨f, hf, hx⟩ := List.mem_flatMap.1 (hsource l hl i hi hfree)
      exact ⟨(hlayer f hf).worded _ (List.mem_cons_of_mem _ hx), (hlayer f hf).closed _ hx⟩
  have hwritable : ∀ l ∈ s.action.literals, (l.under σ).Writable := fun l hl =>
    ⟨List.forall_mem_cons.2 ⟨(h.worded.literals l hl).name, fun x hx => (hargument l hl x hx).1⟩,
      fun x hx => (hargument l hl x hx).2⟩
  refine ⟨h.worded.name, fun f hf => ?_, fun f hf => ?_, fun f hf => ?_, nodup_eraseDups _,
    nodup_eraseDups _, nodup_eraseDups _⟩
  · have hunder : ∃ l ∈ s.action.literals, l.under σ = f := by
      rcases List.mem_append.1 hf with hf | hf
      · rcases List.mem_append.1 hf with hf | hf
        · obtain ⟨l, hl, rfl⟩ := LiteralSet.mem_under.1 hf
          exact ⟨l, Action.mem_literals.2 (.inl hl), rfl⟩
        · obtain ⟨l, hl, rfl⟩ := LiteralSet.mem_under.1 hf
          exact ⟨l, Action.mem_literals.2 (.inr (.inl hl)), rfl⟩
      · obtain ⟨l, hl, rfl⟩ := LiteralSet.mem_under.1 hf
        exact ⟨l, Action.mem_literals.2 (.inr (.inr hl)), rfl⟩
    obtain ⟨l, hl, rfl⟩ := hunder
    exact hwritable l hl
  · obtain ⟨l, hl, rfl⟩ := LiteralSet.mem_under.1 hf
    exact h.needed l hl
  · obtain ⟨l, hl, rfl⟩ := LiteralSet.mem_under.1 hf
    exact h.affirmed l hl

/-- The facts that layers are made of: the facts of texts, and what instances over such facts
add. -/
inductive Fact.Arises : Fact → Prop
  | read {text : String} {p : Problem} {f : Fact} (hp : Problem.parse text = .ok p)
      (hf : f ∈ p.initial ++ p.goals) : f.Arises
  | derived {text : String} {p : Problem} {s : Schema} {layer : FactLayer} {strict : Bool}
      {a : Step} {f : Fact} (hp : Problem.parse text = .ok p) (hs : s ∈ p.schemas)
      (hlayer : ∀ g ∈ layer.facts, g.Arises) (ha : a ∈ s.instances layer strict)
      (hf : f ∈ a.added) : f.Arises

theorem Fact.Arises.writable {f : Fact} (h : f.Arises) : f.Writable := by
  induction h with
  | read hp hf => exact Problem.writable_fact_of_parse hp _ hf
  | derived hp hs _ ha hf ih =>
    exact ((Problem.writable_of_parse hp _ hs).of_mem_instances ih ha).writable_added _ hf

/-- The facts of all levels of a planning graph arise. -/
theorem Ladder.arises {text : String} {p : Problem} (hp : Problem.parse text = .ok p)
    {strict : Bool} {levels : List Level} (h : Ladder p strict levels) :
    ∀ level ∈ levels, ∀ f ∈ level.facts.facts, f.Arises := by
  induction h with
  | start _ hmem _ _ =>
    intro level hlevel f hf
    obtain rfl := List.mem_singleton.1 hlevel
    exact .read hp (List.mem_append_left _ ((hmem f).1 hf))
  | @step newer older rest hfollows _ ih =>
    obtain ⟨actions, -, hover, hafter⟩ := hfollows
    refine List.forall_mem_cons.2 ⟨fun f hf => ?_, ih⟩
    obtain ⟨a, ha, hadded⟩ := (hafter.mem_facts f).1 hf
    have holder := ih older List.mem_cons_self
    rcases hover.origin a ha with ⟨g, hg, hkeep⟩ | ⟨s, hs, ha⟩
    · obtain ⟨-, -, hadd, -⟩ := Step.keep_eq_ok hkeep
      rw [hadd, List.mem_singleton] at hadded
      exact hadded ▸ holder g hg
    · exact .derived hp hs holder ha hadded

/-- So the facts of a planning graph arise, whatever was expanded and searched. -/
theorem Graph.arises_of_level? {text : String} {p : Problem} (hp : Problem.parse text = .ok p)
    {strict : Bool} {budget : Int} {g : Graph} (hg : p.graph strict budget = .ok g)
    (calls : List Call) {number : Nat} {level : Level}
    (hlevel : (g.calls calls).level? number = some level) :
    ∀ f ∈ level.facts.facts, f.Arises := by
  have hreg := Problem.regular_of_parse hp
  have hconsistent := (Problem.consistent_of_graph hreg hg).calls hreg calls
  exact hconsistent.ladder.arises hp level
    (List.mem_of_getElem? (getElem?_of_level?_eq hlevel).2)

/-- **Printed instances are read back.** Over facts that were read or derived, whatever excludes
what, each instance of a schema of a text is printed as a statement, if its name is no keyword: with
a dot after it, it is a problem that has one schema and nothing else, and the schema restates the
instance. -/
theorem Problem.parse_describe {text : String} {p : Problem} (hp : parse text = .ok p)
    {s : Schema} (hs : s ∈ p.schemas) {layer : FactLayer} (hlayer : ∀ f ∈ layer.facts, f.Arises)
    {strict : Bool} {a : Step} (ha : a ∈ s.instances layer strict) (hgoal : a.name ≠ "goal")
    (hgoals : a.name ≠ "goals") :
    ∃ t, parse (a.describe ++ ".") = .ok { schemas := [t] } ∧ t.Restates a := by
  have hwritable := (writable_of_parse hp s hs).of_mem_instances
    (fun f hf => (hlayer f hf).writable) ha
  refine hwritable.exists_parse fun k => ?_
  cases k with
  | goal => exact hgoal
  | goals => exact hgoals

/-- Two roads, one after the other. -/
def roadsText : String :=
  "go :: at(X), road(X, Y) => at(Y), not at(X). at(a). road(a, b). road(b, c). goal at(c)."

/-- The second road can be taken from where the first one leads. -/
theorem Problem.parse_describe_roads : ∃ p s g level a t, parse roadsText = .ok p ∧
    s ∈ p.schemas ∧ p.graph true 0 = .ok g ∧ (g.calls [.expand]).level? 1 = some level ∧
    (∀ f ∈ level.facts.facts, f.Arises) ∧ a ∈ s.instances level.facts true ∧
    a.name ≠ "goal" ∧ a.name ≠ "goals" ∧
    a.describe ++ "." = "go :: at(b),road(b,c) => not at(b),at(c)." ∧
    parse (a.describe ++ ".") = .ok { schemas := [t] } ∧ t.Restates a := by
  have hafter : (Problem.graphAfter? roadsText true [.expand]).any (fun g =>
      (g.level? 1).any fun level => g.schemas.any fun s =>
        (s.instances level.facts true).any fun a => a.name == "go" &&
          a.describe ++ "." == "go :: at(b),road(b,c) => not at(b),at(c).") = true := by
    decide +kernel
  obtain ⟨_, hafter, hlevel⟩ := (Option.any_eq_true _ _).1 hafter
  obtain ⟨p, g, hp, hg, rfl⟩ := Problem.exists_of_graphAfter?_eq_some hafter
  obtain ⟨level, hlevel, hs⟩ := (Option.any_eq_true _ _).1 hlevel
  obtain ⟨s, hs, ha⟩ := List.any_eq_true.1 hs
  obtain ⟨a, ha, hdescribe⟩ := List.any_eq_true.1 ha
  obtain ⟨hname, hdescribe⟩ := Bool.and_eq_true_iff.1 hdescribe
  have hreg := regular_of_parse hp
  have hschemas := ((consistent_of_graph hreg hg).calls hreg [.expand]).schemas_eq
  have harises := Graph.arises_of_level? hp hg [.expand] hlevel
  have hgo : a.name = "go" := beq_iff_eq.1 hname
  have hgoal : a.name ≠ "goal" := by
    rw [hgo]
    decide
  have hgoals : a.name ≠ "goals" := by
    rw [hgo]
    decide
  obtain ⟨t, hparse, hrestates⟩ := parse_describe hp (hschemas ▸ hs) harises ha hgoal hgoals
  exact ⟨p, s, g, level, a, t, hp, hschemas ▸ hs, hg, hlevel, harises, ha, hgoal, hgoals,
    beq_iff_eq.1 hdescribe, hparse, hrestates⟩

end Strips
