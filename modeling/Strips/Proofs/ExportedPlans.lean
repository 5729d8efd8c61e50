import Strips.Pddl.Reference
import Strips.Proofs.Exporting
import Strips.Plan

/-!
# Plans of exported problems

The files of a problem are read as a STRIPS task: a state is a set of texts of atoms, the parameters
of an operator take declared constants and objects as values, and what is deleted goes before what
is added comes. The task has plans of the same lengths as the problem, as long as the export gives
different names to different constants, and to different predicates of one arity.

A state of the problem and the texts of its exported facts go together. An instance that applies is
an operator that applies, with the exported forms of the constants as values of the parameters: they
are declared because a variable is in a precondition. The other way round the values of an operator
are exported forms of constants, which give the instance. Both lead to states that go together
again, because an atom that is deleted is the exported form of one fact only.

Names can meet in lower case. Then a fact that does not hold has the text of one that does, and the
task can have a plan that the problem does not have.

## Main definitions

* `Pddl.Task.Takes`, `Pddl.Task.HasPlan` – the task read as STRIPS, and plans of a given length.
* `Problem.Apart` – the export keeps names apart.

## Main results

* `Pddl.takes_of_instance`, `Pddl.exists_instance_of_takes` – steps go together.
* `Pddl.hasPlan_iff` – plans go together.
* `Pddl.hasPlan_doors` – a problem without a plan whose task has one.
-/

namespace Strips

namespace Pddl

/-! ### Tasks read as STRIPS -/

/-- The texts of atoms. -/
def texts (atoms : List (Atom String)) : Set String := {x | ∃ a ∈ atoms, a.text = x}

namespace Task

/-- An operator is taken, with declared names as values of its parameters. -/
def Takes (t : Task) (state next : Set String) : Prop :=
  ∃ o ∈ t.operators, ∃ values : List String, values.length = o.arity ∧
    (∀ v ∈ values, v ∈ t.constants ++ t.objects) ∧ o.allows values = true ∧
    texts (o.bind values).preconditions ⊆ state ∧
    next = (state \ texts (o.bind values).deleted) ∪ texts (o.bind values).added

/-- A number of operators is taken, one after the other. -/
inductive Reaches (t : Task) : Nat → Set String → Set String → Prop
  | refl {state} : Reaches t 0 state state
  | step {n state next last} : t.Takes state next → Reaches t n next last →
      Reaches t (n + 1) state last

/-- There is a plan of so many operators. -/
def HasPlan (t : Task) (n : Nat) : Prop :=
  ∃ last, t.Reaches n (texts t.initial) last ∧ texts t.goals ⊆ last

end Task

end Pddl

/-! ### Names that are kept apart -/

namespace Problem

/-- The export keeps different constants apart, and different predicates of one arity. -/
structure Apart (p : Problem) : Prop where
  constants : ∀ v ∈ p.constants, ∀ w ∈ p.constants,
    Pddl.exportName v = Pddl.exportName w → v = w
  predicates : ∀ u ∈ p.predicates, ∀ w ∈ p.predicates, u.2 = w.2 →
    Pddl.exportName u.1 = Pddl.exportName w.1 → u.1 = w.1

instance (p : Problem) : Decidable p.Apart :=
  decidable_of_iff ((∀ v ∈ p.constants, ∀ w ∈ p.constants,
      Pddl.exportName v = Pddl.exportName w → v = w) ∧
    ∀ u ∈ p.predicates, ∀ w ∈ p.predicates, u.2 = w.2 →
      Pddl.exportName u.1 = Pddl.exportName w.1 → u.1 = w.1)
    ⟨fun h => ⟨h.1, h.2⟩, fun h => ⟨h.constants, h.predicates⟩⟩

/-- A fact over the names of a problem. -/
structure Knows (p : Problem) (f : Fact) : Prop where
  predicate : (f.name, f.arguments.length) ∈ p.predicates
  constants : ∀ v ∈ f.arguments, v ∈ p.constants

variable {p : Problem}

/-- The facts of a problem are over its names. -/
theorem knows_of_mem {f : Fact} (hf : f ∈ p.initial ++ p.goals) : p.Knows f :=
  ⟨List.mem_append_right _ (List.mem_map_of_mem hf),
    fun _ hv => List.mem_append_right _ (List.mem_flatMap.2 ⟨f, hf, hv⟩)⟩

end Problem

namespace Pddl

/-- The texts of facts. -/
def factTexts (facts : List Fact) : Set String := texts (facts.map exportFact)

theorem mem_factTexts {facts : List Fact} {x : String} :
    x ∈ factTexts facts ↔ ∃ f ∈ facts, (exportFact f).text = x := by
  constructor
  · rintro ⟨a, ha, rfl⟩
    obtain ⟨f, hf, rfl⟩ := List.mem_map.1 ha
    exact ⟨f, hf, rfl⟩
  · rintro ⟨f, hf, rfl⟩
    exact ⟨_, List.mem_map_of_mem hf, rfl⟩

section

variable {p : Problem} (hnew : ∀ s ∈ p.schemas, s.arena.AllNew)
  (hword : p.EachName fun x => IsWord x.toList) (hapart : p.Apart)

include hnew hword hapart

/-- **Known facts can be told apart** by their texts. -/
theorem eq_of_text_exportFact_eq {f g : Fact} (hf : p.Knows f) (hg : p.Knows g)
    (h : (exportFact f).text = (exportFact g).text) : f = g := by
  have hunbroken : ∀ {e : Fact}, p.Knows e →
      ∀ w ∈ (exportFact e).name :: (exportFact e).arguments, Unbroken w := by
    intro e he
    rw [names_exportFact, List.forall_mem_map, List.forall_mem_cons]
    exact ⟨(plain_exportName (isWord_of_mem_predicates hword he.predicate)).unbroken, fun v hv =>
      (plain_exportName (isWord_of_mem_constants hnew hword (he.constants v hv))).unbroken⟩
  obtain ⟨hname, harguments⟩ := Atom.mk.inj
    (Atom.legible_text.eq_of_text_eq (hunbroken hf) (hunbroken hg) h)
  have hlength : f.arguments.length = g.arguments.length := by
    simpa using congrArg List.length harguments
  have hnames := hapart.predicates _ hf.predicate _ hg.predicate hlength hname
  have hvalues := eq_of_map_eq (P := (· ∈ p.constants))
    (fun v w hv hw => hapart.constants v hv w hw) hf.constants hg.constants harguments
  cases f
  cases g
  cases hnames
  cases hvalues
  rfl

theorem text_mem_factTexts_iff {facts : List Fact} (hfacts : ∀ f ∈ facts, p.Knows f) {f : Fact}
    (hf : p.Knows f) : (exportFact f).text ∈ factTexts facts ↔ f ∈ facts := by
  rw [mem_factTexts]
  constructor
  · rintro ⟨g, hg, htext⟩
    exact eq_of_text_exportFact_eq hnew hword hapart (hfacts g hg) hf htext ▸ hg
  · exact fun h => ⟨f, h, rfl⟩

theorem factTexts_subset_iff {facts others : List Fact} (hfacts : ∀ f ∈ facts, p.Knows f)
    (hothers : ∀ f ∈ others, p.Knows f) : factTexts others ⊆ factTexts facts ↔ others ⊆ facts := by
  constructor
  · intro h f hf
    exact (text_mem_factTexts_iff hnew hword hapart hfacts (hothers f hf)).1
      (h (mem_factTexts.2 ⟨f, hf, rfl⟩))
  · intro h x hx
    obtain ⟨f, hf, rfl⟩ := mem_factTexts.1 hx
    exact mem_factTexts.2 ⟨f, h hf, rfl⟩

/-- **The texts after a step.** -/
theorem factTexts_after {state : State} (hstate : ∀ f ∈ state, p.Knows f) (step : Step)
    (hdeleted : ∀ f ∈ step.deleted, p.Knows f) :
    factTexts (state.after step) =
      (factTexts state \ factTexts step.deleted) ∪ factTexts step.added := by
  ext x
  simp only [Set.mem_union, Set.mem_sdiff, mem_factTexts, State.mem_after]
  constructor
  · rintro ⟨f, ⟨hf, hkept⟩ | hf, rfl⟩
    · refine .inl ⟨⟨f, hf, rfl⟩, fun hdel => hkept ?_⟩
      exact (text_mem_factTexts_iff hnew hword hapart hdeleted (hstate f hf)).1
        (mem_factTexts.2 hdel)
    · exact .inr ⟨f, hf, rfl⟩
  · rintro (⟨⟨f, hf, rfl⟩, hkept⟩ | ⟨f, hf, rfl⟩)
    · exact ⟨f, .inl ⟨hf, fun hdel => hkept ⟨f, hdel, rfl⟩⟩, rfl⟩
    · exact ⟨f, .inr hf, rfl⟩

end

/-! ### Instances and operators -/

section

variable {s : Schema} {o : Operator} {σ : Nat → String}

/-- A substitution leaves the values that have been put in. -/
theorem under_resolve (hs : s.Built) (hσ : s.Admits σ) (l : Literal) :
    (l.resolve s.arena).under σ = l.under σ := by
  have hterm : ∀ t : Term, (t.resolve s.arena).under σ = t.under σ := by
    intro t
    cases t with
    | const v => rfl
    | cell i =>
      rw [Term.resolve]
      cases hvalue : s.arena.value? i with
      | none =>
        rw [hs.marked.allNew.root]
      | some v =>
        have hconstant := hs.marked.allNew.isSome_value? i
        rw [hvalue] at hconstant
        exact (hσ.constants i v hconstant.symm hvalue).symm
  rw [Literal.under, Literal.under, Literal.resolve, List.map_map]
  exact congrArg _ (List.map_congr_left fun t _ => hterm t)

theorem map_eq_map_of_forall₂ {α β γ : Type} {R : α → β → Prop} {f : α → γ} {g : β → γ}
    (hR : ∀ x y, R x y → f x = g y) {xs : List α} {ys : List β} (h : List.Forall₂ R xs ys) :
    xs.map f = ys.map g := by
  induction h with
  | nil => rfl
  | cons hxy _ ih => rw [List.map_cons, List.map_cons, hR _ _ hxy, ih]

/-- The values of the parameters under a substitution. -/
def parameterValues (s : Schema) (σ : Nat → String) : List String :=
  s.action.parameters.map fun i => exportName (σ i)

theorem ExportedTerm.bind_eq {x : Term} {a : Argument} (h : ExportedTerm s x a) :
    a.bind (parameterValues s σ) = exportName (x.under σ) := by
  cases h with
  | const v => rw [Argument.bind, Term.under]
  | @cell i k hi =>
    obtain ⟨hlt, heq, -⟩ := List.idxOf?_eq_some_iff.1 hi
    rw [Argument.bind, parameterValues, List.getD_eq_getElem?_getD, List.getElem?_map,
      List.getElem?_eq_getElem hlt, heq, Option.map_some, Option.getD_some, Term.under]

theorem ExportedLiteral.bind_eq {l : Literal} {a : Atom Argument} (h : ExportedLiteral s l a) :
    a.bind (parameterValues s σ) = exportFact (l.under σ) := by
  have harguments : (l.terms.map fun x => exportName (x.under σ)) =
      a.arguments.map (·.bind (parameterValues s σ)) :=
    map_eq_map_of_forall₂ (fun _ _ hx => hx.bind_eq.symm) h.arguments
  rw [Atom.bind, exportFact, h.name, ← harguments, Literal.under, List.map_map, Function.comp_def]

/-- **The atoms of an operator** under values are those of the instance. -/
theorem texts_bind_eq (hs : s.Built) (hσ : s.Admits σ) {ls : LiteralSet} {as : List (Atom Argument)}
    (h : List.Forall₂ (ExportedLiteral s) (s.said ls) as) :
    texts (as.map (·.bind (parameterValues s σ))) = factTexts (ls.under σ) := by
  have hbind : ((s.said ls).map fun l => exportFact (l.under σ)) =
      as.map (·.bind (parameterValues s σ)) :=
    map_eq_map_of_forall₂ (fun _ _ hl => hl.bind_eq.symm) h
  ext x
  rw [← hbind, mem_factTexts]
  constructor
  · rintro ⟨a, ha, rfl⟩
    obtain ⟨m, hm, rfl⟩ := List.mem_map.1 ha
    obtain ⟨l, hl, rfl⟩ := List.mem_map.1 hm
    exact ⟨l.under σ, LiteralSet.mem_under.2 ⟨l, hl, rfl⟩, by rw [under_resolve hs hσ]⟩
  · rintro ⟨f, hf, rfl⟩
    obtain ⟨l, hl, rfl⟩ := LiteralSet.mem_under.1 hf
    refine ⟨_, List.mem_map_of_mem (List.mem_map_of_mem hl), ?_⟩
    rw [under_resolve hs hσ]

/-- Without constraints an operator allows all values. -/
theorem ExportedSchema.allows (h : ExportedSchema s o) (hplain : s.action.distinct = [])
    (values : List String) : o.allows values = true := by
  have hunequal := h.unequal
  rw [Schema.pairs, hplain, List.map_nil, List.forall₂_nil_left_iff] at hunequal
  rw [Operator.allows, hunequal]
  rfl

/-- The facts of an instance are known if the values of its variables are. -/
theorem knows_under {p : Problem} (hs : s ∈ p.schemas) (hbuilt : s.Built) (hσ : s.Admits σ)
    (hvalues : ∀ i ∈ s.action.parameters, σ i ∈ p.constants) {l : Literal}
    (hl : l ∈ s.action.literals) : p.Knows (l.under σ) := by
  refine ⟨List.mem_append_left _ (List.mem_flatMap.2 ⟨s, hs, List.mem_map.2 ⟨l, hl, ?_⟩⟩),
    fun v hv => ?_⟩
  · rw [Literal.arity, Literal.under, List.length_map]
  · rw [← under_resolve hbuilt hσ] at hv
    obtain ⟨x, hx, rfl⟩ := List.mem_map.1 hv
    cases x with
    | const w =>
      have hw := (mem_constants hbuilt.marked.allNew).2 hx
      exact List.mem_append_left _
        (List.mem_flatMap.2 ⟨s, hs, List.mem_flatMap.2 ⟨l, hl, hw⟩⟩)
    | cell i => exact hvalues i (hbuilt.mem_parameters_iff_resolve.2 ⟨l, hl, hx⟩)

end

/-! ### Steps go together -/

section

variable {p : Problem} (hbuilt : ∀ s ∈ p.schemas, s.Built)
  (hword : p.EachName fun x => IsWord x.toList) (hapart : p.Apart) {state : State}
  (hstate : ∀ f ∈ state, p.Knows f)

include hbuilt hword hapart hstate

/-- An instance over constants of the problem and its operator go together: they apply in the same
states, and lead to the same ones. -/
theorem apply_together {s : Schema} (hs : s ∈ p.schemas) {o : Operator}
    (hso : ExportedSchema s o) {σ : Nat → String} (hσ : s.Admits σ)
    (hvalues : ∀ i ∈ s.action.parameters, σ i ∈ p.constants) :
    (texts (o.bind (parameterValues s σ)).preconditions ⊆ factTexts state ↔
      (s.action.under σ).preconditions ⊆ state) ∧
    (factTexts state \ texts (o.bind (parameterValues s σ)).deleted) ∪
      texts (o.bind (parameterValues s σ)).added = factTexts (state.after (s.action.under σ)) ∧
    ∀ f ∈ state.after (s.action.under σ), p.Knows f := by
  have hnew := fun s hs => (hbuilt s hs).marked.allNew
  have hknows : ∀ {ls : LiteralSet}, ls.members ⊆ s.action.literals →
      ∀ f ∈ ls.under σ, p.Knows f := by
    intro ls hls f hf
    obtain ⟨l, hl, rfl⟩ := LiteralSet.mem_under.1 hf
    exact knows_under hs (hbuilt s hs) hσ hvalues (hls hl)
  have hpre := hknows fun l hl => Action.mem_literals.2 (.inl hl)
  have hneg := hknows fun l hl => Action.mem_literals.2 (.inr (.inl hl))
  have hpos := hknows fun l hl => Action.mem_literals.2 (.inr (.inr hl))
  refine ⟨?_, ?_, fun f hf => ?_⟩
  · rw [Operator.bind, texts_bind_eq (hbuilt s hs) hσ hso.preconditions]
    exact factTexts_subset_iff hnew hword hapart hstate hpre
  · rw [Operator.bind, texts_bind_eq (hbuilt s hs) hσ hso.deleted,
      texts_bind_eq (hbuilt s hs) hσ hso.added]
    exact (factTexts_after hnew hword hapart hstate (s.action.under σ) hneg).symm
  · exact (State.mem_after.1 hf).elim (fun hf => hstate f hf.1) (hpos f)

variable {t : Task} (h : ExportedProblem p t) (hplain : ∀ s ∈ p.schemas, s.action.distinct = [])

include h hplain

/-- **An instance that applies** is an operator that applies. -/
theorem takes_of_instance {u : Step} (hu : p.IsInstance u) (happly : u.preconditions ⊆ state) :
    t.Takes (factTexts state) (factTexts (state.after u)) ∧ ∀ f ∈ state.after u, p.Knows f := by
  obtain ⟨s, hs, σ, hσ, rfl⟩ := hu
  obtain ⟨o, ho, hso⟩ := exists_of_mem_left h.operators hs
  have hvalues : ∀ i ∈ s.action.parameters, σ i ∈ p.constants := by
    intro i hi
    obtain ⟨-, m, hm, him⟩ := (hbuilt s hs).exists_precondition hi
    exact (hstate _ (happly (LiteralSet.mem_under.2 ⟨m, hm, rfl⟩))).constants _
      (List.mem_map_of_mem him)
  obtain ⟨hpre, hnext, hknows⟩ :=
    apply_together hbuilt hword hapart hstate hs hso hσ hvalues
  refine ⟨⟨o, ho, parameterValues s σ, ?_, fun v hv => ?_, hso.allows (hplain s hs) _,
    hpre.2 happly, hnext.symm⟩, hknows⟩
  · rw [parameterValues, List.length_map, hso.arity]
  · obtain ⟨i, hi, rfl⟩ := List.mem_map.1 hv
    exact (h.mem_declared _).2 ⟨_, hvalues i hi, rfl⟩

/-- **An operator that applies** is an instance that applies. -/
theorem exists_instance_of_takes {next : Set String} (hnext : t.Takes (factTexts state) next) :
    ∃ u, p.IsInstance u ∧ u.preconditions ⊆ state ∧ next = factTexts (state.after u) ∧
      ∀ f ∈ state.after u, p.Knows f := by
  obtain ⟨o, ho, values, hlength, hdeclared, -, hpre, rfl⟩ := hnext
  obtain ⟨s, hs, hso⟩ := exists_of_mem_right h.operators ho
  have hexists : ∀ w ∈ values, ∃ v, v ∈ p.constants ∧ exportName v = w :=
    fun w hw => (h.mem_declared w).1 (hdeclared w hw)
  choose! original horiginal using hexists
  -- a parameter has the constant of its value, and a constant of the text its own
  let σ : Nat → String := fun i => (s.arena.value? i).getD
    (original (values.getD (s.action.parameters.idxOf i) ""))
  have hσ : s.Admits σ := by
    refine ⟨fun i v _ hv => ?_, fun x y hxy => ?_⟩
    · change (s.arena.value? i).getD _ = v
      rw [hv, Option.getD_some]
    · rw [hplain s hs] at hxy
      exact absurd hxy List.not_mem_nil
  have hparameter : ∀ k (hk : k < s.action.parameters.length) (hk' : k < values.length),
      σ s.action.parameters[k] = original values[k] := by
    intro k hk hk'
    have hfree := ((hbuilt s hs).exists_precondition (List.getElem_mem hk)).1
    change (s.arena.value? _).getD _ = _
    rw [(hbuilt s hs).regular.value?_eq_none hfree, Option.getD_none,
      (hbuilt s hs).nodup_parameters.idxOf_getElem k hk, List.getD_eq_getElem?_getD,
      List.getElem?_eq_getElem hk', Option.getD_some]
  have hvalues : ∀ i ∈ s.action.parameters, σ i ∈ p.constants := by
    intro i hi
    obtain ⟨k, hk, rfl⟩ := List.getElem_of_mem hi
    have hk' : k < values.length := by rwa [hlength, hso.arity]
    rw [hparameter k hk hk']
    exact (horiginal _ (List.getElem_mem hk')).1
  have hbind : parameterValues s σ = values := by
    refine List.ext_getElem (by rw [parameterValues, List.length_map, hlength, hso.arity])
      fun k hk hk' => ?_
    have hk₀ : k < s.action.parameters.length := by rwa [← hso.arity, ← hlength]
    simp only [parameterValues, List.getElem_map]
    rw [hparameter k hk₀ hk']
    exact (horiginal _ (List.getElem_mem hk')).2
  obtain ⟨hpre', hnext, hknows⟩ :=
    apply_together hbuilt hword hapart hstate hs hso hσ hvalues
  rw [hbind] at hpre' hnext
  exact ⟨s.action.under σ, ⟨s, hs, σ, hσ, rfl⟩, hpre'.1 hpre, hnext, hknows⟩

end

/-! ### Plans go together -/

section

variable {p : Problem} (hbuilt : ∀ s ∈ p.schemas, s.Built)
  (hword : p.EachName fun x => IsWord x.toList) (hapart : p.Apart) {t : Task}
  (h : ExportedProblem p t) (hplain : ∀ s ∈ p.schemas, s.action.distinct = [])

include hbuilt hword hapart h hplain

/-- **A sequence of instances that runs** is a sequence of operators. -/
theorem reaches_of_runFrom {steps : List Step} (hsteps : ∀ u ∈ steps, p.IsInstance u) :
    ∀ {index : Nat} {state last : State}, (∀ f ∈ state, p.Knows f) →
      State.runFrom index state (steps.map .step) = .ok last →
      t.Reaches steps.length (factTexts state) (factTexts last) ∧ ∀ f ∈ last, p.Knows f := by
  induction steps with
  | nil =>
    intro index state last hstate hrun
    obtain rfl := Except.ok.inj hrun
    exact ⟨.refl, hstate⟩
  | cons u rest ih =>
    intro index state last hstate hrun
    obtain ⟨happly, hrun⟩ := State.runFrom_step_cons_eq_ok_iff.1 hrun
    obtain ⟨htakes, hnext⟩ := takes_of_instance hbuilt hword hapart hstate h hplain
      (hsteps u List.mem_cons_self) happly
    obtain ⟨hreaches, hlast⟩ := ih (fun w hw => hsteps w (List.mem_cons_of_mem u hw)) hnext hrun
    exact ⟨.step htakes hreaches, hlast⟩

/-- **A sequence of operators** is a sequence of instances that runs. -/
theorem exists_runFrom_of_reaches {n : Nat} {texts last : Set String}
    (hreaches : t.Reaches n texts last) : ∀ {index : Nat} {state : State},
      (∀ f ∈ state, p.Knows f) → texts = factTexts state →
      ∃ steps : List Step, steps.length = n ∧ (∀ u ∈ steps, p.IsInstance u) ∧ ∃ final,
        State.runFrom index state (steps.map .step) = .ok final ∧ last = factTexts final ∧
          ∀ f ∈ final, p.Knows f := by
  induction hreaches with
  | refl =>
    intro index state hstate htexts
    exact ⟨[], rfl, List.forall_mem_nil _, state, rfl, htexts, hstate⟩
  | step htakes _ ih =>
    rintro index state hstate rfl
    obtain ⟨u, hu, happly, hnext, hafter⟩ :=
      exists_instance_of_takes hbuilt hword hapart hstate h hplain htakes
    obtain ⟨steps, rfl, hsteps, final, hrun, hfinal⟩ := ih hafter hnext
    exact ⟨u :: steps, rfl, List.forall_mem_cons.2 ⟨hu, hsteps⟩, final,
      State.runFrom_step_cons_eq_ok_iff.2 ⟨happly, hrun⟩, hfinal⟩

/-- The plans of a task and of the problem that it was made of have the same lengths. -/
theorem ExportedProblem.hasPlan_iff_exists (n : Nat) :
    t.HasPlan n ↔ ∃ steps : List Step, steps.length = n ∧ (∀ u ∈ steps, p.IsInstance u) ∧
      State.achieves p.initial (steps.map .step) p.goals = true := by
  have hnew := fun s hs => (hbuilt s hs).marked.allNew
  have hinitial : ∀ f ∈ State.ofList p.initial, p.Knows f := fun f hf =>
    Problem.knows_of_mem (List.mem_append_left _ (State.mem_ofList.1 hf))
  have hgoals : ∀ f ∈ p.goals, p.Knows f := fun f hf =>
    Problem.knows_of_mem (List.mem_append_right _ hf)
  have hstart : texts t.initial = factTexts (State.ofList p.initial) := by
    ext x
    rw [h.initial]
    change x ∈ factTexts p.initial ↔ _
    simp only [mem_factTexts, State.mem_ofList]
  rw [Task.HasPlan, hstart, h.goals]
  constructor
  · rintro ⟨last, hreaches, hlast⟩
    obtain ⟨steps, hlength, hsteps, final, hrun, rfl, hfinal⟩ :=
      exists_runFrom_of_reaches hbuilt hword hapart h hplain hreaches hinitial rfl
    refine ⟨steps, hlength, hsteps, State.achieves_iff.2 ⟨final, hrun, ?_⟩⟩
    exact (factTexts_subset_iff hnew hword hapart hfinal hgoals).1 hlast
  · rintro ⟨steps, rfl, hsteps, hachieves⟩
    obtain ⟨final, hrun, hreached⟩ := State.achieves_iff.1 hachieves
    obtain ⟨hreaches, hfinal⟩ :=
      reaches_of_runFrom hbuilt hword hapart h hplain hsteps hinitial hrun
    exact ⟨_, hreaches, (factTexts_subset_iff hnew hword hapart hfinal hgoals).2 hreached⟩

end

/-- **The export keeps plans**: where it keeps names apart, the task has a plan of a number of
operators just if the problem has a plan of as many instances. -/
theorem hasPlan_iff {text : String} {p : Problem} (hp : Problem.parse text = .ok p)
    (hsupports : supports p.schemas = true) (hapart : p.Apart) {domain problem : String} {t : Task}
    (ht : exportTask domain problem p.schemas p.initial p.goals = .ok t) (n : Nat) :
    t.HasPlan n ↔ ∃ steps : List Step, steps.length = n ∧ (∀ u ∈ steps, p.IsInstance u) ∧
      State.achieves p.initial (steps.map .step) p.goals = true := by
  have hbuilt := Problem.built_of_parse hp
  have hplain : ∀ s ∈ p.schemas, s.action.distinct = [] := fun s hs =>
    List.isEmpty_iff.1 (List.all_eq_true.1 hsupports s hs)
  obtain ⟨hexported, -⟩ := exported_of_exportTask (fun s hs => (hbuilt s hs).marked.allNew) ht
  exact hexported.hasPlan_iff_exists hbuilt (Problem.isWord_of_parse hp) hapart hplain n

/-- A walk along a road, with a name that is exported with another first letter. -/
def walkText : String :=
  "walk :: at(X), road(X, Y) => not at(X), at(Y). at(1a). road(1a, b). goal at(b)."

/-- The names of the walk are kept apart. -/
theorem hasPlan_iff_walk : ∃ p t, Problem.parse walkText = .ok p ∧ supports p.schemas = true ∧
    p.Apart ∧ exportTask "walk" "walk" p.schemas p.initial p.goals = .ok t ∧ ∀ n,
      (t.HasPlan n ↔ ∃ steps : List Step, steps.length = n ∧ (∀ u ∈ steps, p.IsInstance u) ∧
        State.achieves p.initial (steps.map .step) p.goals = true) := by
  have hread : (Problem.parse walkText).toOption.any (fun p =>
      (supports p.schemas && decide p.Apart) &&
        (exportTask "walk" "walk" p.schemas p.initial p.goals).toOption.any fun _ => true) =
          true := by
    decide +kernel
  obtain ⟨p, hp, hread⟩ := exists_of_toOption_any hread
  obtain ⟨hnames, htask⟩ := Bool.and_eq_true_iff.1 hread
  obtain ⟨hsupports, hapart⟩ := Bool.and_eq_true_iff.1 hnames
  obtain ⟨t, ht, -⟩ := exists_of_toOption_any htask
  have hapart := of_decide_eq_true hapart
  exact ⟨p, t, hp, hsupports, hapart, ht, hasPlan_iff hp hsupports hapart ht⟩

/-- One is inside after going through a door, but stands at another one. -/
def doorsText : String :=
  "enter :: at(doorA) => not at(doorA), inside. at(doora). goal inside."

/-- **Names that meet give plans away**: the doors have one name in the files, and the task has a
plan that the problem does not have. -/
theorem hasPlan_doors : ∃ p t, Problem.parse doorsText = .ok p ∧ supports p.schemas = true ∧
    exportTask "graphplan" "task" p.schemas p.initial p.goals = .ok t ∧ t.HasPlan 1 ∧
    ¬∃ steps : List Step, steps.length = 1 ∧ (∀ u ∈ steps, p.IsInstance u) ∧
      State.achieves p.initial (steps.map .step) p.goals = true := by
  have hread : (Problem.parse doorsText).toOption.any (fun p =>
      (supports p.schemas && decide (p.initial = [⟨"at", ["doora"]⟩] ∧
        ∀ s ∈ p.schemas, ⟨"at", [.const "doorA"]⟩ ∈ s.said s.action.preconditions)) &&
      (exportTask "graphplan" "task" p.schemas p.initial p.goals).toOption.any fun t =>
        decide (t.initial = [⟨"at", ["doora"]⟩] ∧ t.goals = [⟨"inside", []⟩] ∧
          t.operators = [⟨"enter", 0, [⟨"at", [.object "doora"]⟩], [], [⟨"inside", []⟩],
            [⟨"at", [.object "doora"]⟩]⟩])) = true := by
    decide +kernel
  obtain ⟨p, hp, hread⟩ := exists_of_toOption_any hread
  obtain ⟨hproblem, htask⟩ := Bool.and_eq_true_iff.1 hread
  obtain ⟨hsupports, hproblem⟩ := Bool.and_eq_true_iff.1 hproblem
  obtain ⟨hinitial, hsaid⟩ := of_decide_eq_true hproblem
  obtain ⟨t, ht, htask⟩ := exists_of_toOption_any htask
  obtain ⟨hstart, hgoals, hoperators⟩ := of_decide_eq_true htask
  refine ⟨p, t, hp, hsupports, ht, ?_, ?_⟩
  · refine ⟨_, .step ⟨_, hoperators ▸ List.mem_singleton_self _, [], rfl, List.forall_mem_nil _,
      rfl, ?_, rfl⟩ .refl, ?_⟩
    · rw [hstart]
      exact subset_rfl
    · rw [hgoals]
      exact Set.subset_union_right
  · rintro ⟨steps, hlength, hsteps, hachieves⟩
    obtain ⟨u, rfl⟩ := List.length_eq_one_iff.1 hlength
    obtain ⟨s, hs, σ, hσ, rfl⟩ := hsteps u List.mem_cons_self
    obtain ⟨last, hrun, -⟩ := State.achieves_iff.1 hachieves
    obtain ⟨happly, -⟩ := State.runFrom_step_cons_eq_ok_iff.1 hrun
    -- the precondition is about the other door whatever the variables are
    obtain ⟨l, hl, hvalue⟩ := List.mem_map.1 (hsaid s hs)
    have hfact := happly _ (LiteralSet.mem_under.2 ⟨l, hl, rfl⟩)
    rw [← under_resolve (Problem.built_of_parse hp s hs) hσ, hvalue, State.mem_ofList, hinitial,
      List.mem_singleton] at hfact
    simp [Literal.under, Term.under] at hfact

end Pddl

end Strips
