import Strips.Proofs.Exporting

/-!
# What the files declare

A planner takes a domain and a problem only if they are closed: each constant of an operator is one
of the domain, each variable is a parameter, and each predicate is declared with the arity that it
is used with. Besides, nothing may be declared twice.

Declarations are collected from literals and facts, by name as it was written, and printed by
exported names. So what stands in literals and facts is declared in every task. But constraints are
no literals, and their constants are declared only if a literal happens to have them, too; and names
that meet when they are exported are declared as often as there were names.

## Main definitions

* `Pddl.Task.Closed` – what holds of every exported task.
* `Pddl.Task.WellDeclared` – closed as far as constraints go, too, and without ambiguity.
* `Problem.Declarable` – the constants of constraints are met elsewhere, and names stay apart.

## Main results

* `Pddl.exists_declarations` – where the declarations come from.
* `Pddl.wellDeclared_iff` – the tasks that are well declared.
* `Pddl.not_wellDeclared_away` – a task with a constant that is declared nowhere.
-/

namespace Strips

namespace Pddl

/-! ### Uses and declarations -/

/-- The atoms of an operator. -/
def Operator.atoms (o : Operator) : List (Atom Argument) := o.preconditions ++ o.deleted ++ o.added

/-- The arguments of the atoms of an operator. -/
def Operator.arguments (o : Operator) : List Argument := o.atoms.flatMap (·.arguments)

/-- What stands in the inequalities of an operator. -/
def Operator.compared (o : Operator) : List Argument := o.unequal.flatMap fun q => [q.1, q.2]

/-- A predicate with the arity that it is used with. -/
def Atom.signature {α : Type} (a : Atom α) : String × Nat := (a.name, a.arguments.length)

namespace Task

/-- The predicates of a task, with the arities that they are used with. -/
def uses (t : Task) : List (String × Nat) :=
  (t.operators.flatMap fun o => o.atoms.map Atom.signature) ++
    (t.initial ++ t.goals).map Atom.signature

/-- Whatever stands in atoms is declared, and so are all variables. -/
structure Closed (t : Task) : Prop where
  constants : ∀ o ∈ t.operators, ∀ c, .object c ∈ o.arguments → c ∈ t.constants
  parameters : ∀ o ∈ t.operators, ∀ i, .parameter i ∈ o.arguments ++ o.compared → i < o.arity
  predicates : ∀ u ∈ t.uses, u ∈ t.predicates
  objects : ∀ a ∈ t.initial ++ t.goals, ∀ c ∈ a.arguments, c ∈ t.constants ++ t.objects

/-- Whatever is used is declared, each predicate once, and no name of an object twice. -/
structure WellDeclared (t : Task) : Prop extends t.Closed where
  compared : ∀ o ∈ t.operators, ∀ c, .object c ∈ o.compared → c ∈ t.constants
  once : ∀ u ∈ t.uses, t.predicates.filter (·.1 == u.1) = [u]
  nodup : (t.constants ++ t.objects).Nodup

end Task

end Pddl

/-- What stands in the constraints of a schema. -/
def Schema.comparedTerms (s : Schema) : List Term := s.pairs.flatMap fun q => [q.1, q.2]

/-- The constants in the constraints of a schema. -/
def Schema.comparedConstants (s : Schema) : List String := s.comparedTerms.filterMap Term.constant?

namespace Problem

/-- The constants in the literals of the schemas. -/
def schemaConstants (p : Problem) : List String :=
  p.schemas.flatMap fun s => s.action.literals.flatMap (Pddl.constants s.arena)

/-- Each constant of a constraint is one of a literal when names are exported, and different
predicates and constants have different exported names. -/
structure Declarable (p : Problem) : Prop where
  compared : ∀ s ∈ p.schemas, ∀ v ∈ s.comparedConstants, ∃ w ∈ p.schemaConstants,
    Pddl.exportName w = Pddl.exportName v
  predicates : ∀ u ∈ p.predicates, ∀ w ∈ p.predicates,
    Pddl.exportName u.1 = Pddl.exportName w.1 → u.1 = w.1
  constants : ∀ v ∈ p.constants, ∀ w ∈ p.constants,
    Pddl.exportName v = Pddl.exportName w → v = w

instance (p : Problem) : Decidable p.Declarable :=
  decidable_of_iff ((∀ s ∈ p.schemas, ∀ v ∈ s.comparedConstants, ∃ w ∈ p.schemaConstants,
      Pddl.exportName w = Pddl.exportName v) ∧
    (∀ u ∈ p.predicates, ∀ w ∈ p.predicates,
      Pddl.exportName u.1 = Pddl.exportName w.1 → u.1 = w.1) ∧
    ∀ v ∈ p.constants, ∀ w ∈ p.constants, Pddl.exportName v = Pddl.exportName w → v = w)
    ⟨fun h => ⟨h.1, h.2.1, h.2.2⟩, fun h => ⟨h.compared, h.predicates, h.constants⟩⟩

end Problem

namespace Pddl

/-! ### The lists of names -/

theorem insertSorted_perm (s : String) : ∀ ts : List String, (insertSorted s ts).Perm (s :: ts)
  | [] => .refl _
  | t :: ts => by
    rw [insertSorted]
    split
    · exact ((insertSorted_perm s ts).cons t).trans (.swap s t ts)
    · exact .refl _

theorem nodup_sortNames (names : List String) : (sortNames names).Nodup := by
  have hperm : ∀ ts : List String, (ts.foldr insertSorted []).Perm ts := by
    intro ts
    induction ts with
    | nil => exact .refl _
    | cons t ts ih => exact (insertSorted_perm t _).trans (ih.cons t)
  exact (hperm _).nodup_iff.2 (nodup_eraseDups names)

/-- Recording a use keeps what is known, and has the use. -/
theorem lookup_record {known next : List (String × Nat)} {use : String × Nat}
    (h : record known use = .ok next) :
    next.lookup use.1 = some use.2 ∧
      ∀ name arity, known.lookup name = some arity → next.lookup name = some arity := by
  rw [record] at h
  split at h
  · rename_i hnone
    obtain rfl := Except.ok.inj h
    refine ⟨?_, fun name arity hname => ?_⟩
    · rw [List.lookup_append, hnone, Option.none_or, List.lookup_cons_self]
    · rw [List.lookup_append, hname]
      rfl
  · rename_i n hn
    split at h
    · rename_i heq
      obtain rfl := Except.ok.inj h
      exact ⟨heq ▸ hn, fun _ _ => id⟩
    · cases h

/-- **Signatures have the arity of each use.** -/
theorem lookup_of_record {uses known signatures : List (String × Nat)}
    (h : uses.foldlM record known = .ok signatures) :
    (∀ u ∈ uses, signatures.lookup u.1 = some u.2) ∧
      ∀ name arity, known.lookup name = some arity → signatures.lookup name = some arity := by
  induction uses generalizing known with
  | nil =>
    obtain rfl := Except.ok.inj h
    exact ⟨fun u hu => absurd hu List.not_mem_nil, fun _ _ => id⟩
  | cons use uses ih =>
    rw [List.foldlM_cons] at h
    obtain ⟨next, hnext, h⟩ := exists_of_bind_eq_ok h
    obtain ⟨hlookup, hkeeps⟩ := lookup_record hnext
    obtain ⟨hrest, hkept⟩ := ih h
    exact ⟨List.forall_mem_cons.2 ⟨hkept _ _ hlookup, hrest⟩,
      fun name arity hname => hkept _ _ (hkeeps _ _ hname)⟩

/-- **Where the declarations come from.** Predicates are declared with their arities, the constants
of literals of the schemas with the domain and all others with the problem: by exported names, but
once for each name as it was written. -/
theorem exists_declarations {p : Problem} {domain problem : String} {t : Task}
    (h : exportTask domain problem p.schemas p.initial p.goals = .ok t) :
    (∃ (names : List String) (arity : String → Nat), names.Nodup ∧
      (∀ name, name ∈ names ↔ ∃ u ∈ p.predicates, u.1 = name) ∧
      (∀ u ∈ p.predicates, arity u.1 = u.2) ∧
      t.predicates = names.map fun name => (exportName name, arity name)) ∧
    ∃ used other : List String, (used ++ other).Nodup ∧ (∀ v, v ∈ used ↔ v ∈ p.schemaConstants) ∧
      (∀ v, v ∈ used ++ other ↔ v ∈ p.constants) ∧ t.constants = used.map exportName ∧
      t.objects = other.map exportName := by
  obtain ⟨predicates, hpredicates, h⟩ := exists_of_bind_eq_ok h
  obtain ⟨operators, hoperators, h⟩ := exists_of_bind_eq_ok h
  obtain rfl := Except.ok.inj h
  have huses : p.predicates.foldlM record [] = .ok predicates := hpredicates
  have hlookup := (lookup_of_record huses).1
  refine ⟨⟨sortNames (predicates.map Prod.fst), fun name => (predicates.lookup name).getD 0,
    nodup_sortNames _, fun name => ?_, fun u hu => ?_, rfl⟩,
    sortNames p.schemaConstants,
    (sortNames ((p.initial ++ p.goals).flatMap Fact.arguments)).filter
      fun name => !(sortNames p.schemaConstants).contains name, ?_, fun v => mem_sortNames,
    fun v => ?_, rfl, rfl⟩
  · rw [mem_sortNames]
    constructor
    · intro hname
      exact List.mem_map.1 ((exists_use_of_record huses hname).resolve_left List.not_mem_nil)
    · rintro ⟨u, hu, rfl⟩
      obtain ⟨before, after, heq, -⟩ := List.lookup_eq_some_iff.1 (hlookup u hu)
      simp [heq]
  · dsimp only
    rw [hlookup u hu, Option.getD_some]
  · refine List.Nodup.append (nodup_sortNames _) ((nodup_sortNames _).filter _) ?_
    intro v hv hother
    have hnew := (List.mem_filter.1 hother).2
    rw [Bool.not_eq_true', ← Bool.not_eq_true, List.contains_iff_mem] at hnew
    exact hnew hv
  · rw [Problem.constants]
    change v ∈ _ ++ List.filter _ _ ↔ v ∈ p.schemaConstants ++ _
    simp only [List.mem_append, List.mem_filter, mem_sortNames]
    by_cases hv : v ∈ p.schemaConstants
    · simp [hv]
    · simp [hv, mem_sortNames]

/-! ### What is used -/

section Uses

variable {s : Schema} {o : Operator} {ts : List Term} {as : List Argument}

/-- The objects among exported terms are the constants. -/
theorem object_mem_iff (h : List.Forall₂ (ExportedTerm s) ts as) {c : String} :
    .object c ∈ as ↔ ∃ v, .const v ∈ ts ∧ exportName v = c := by
  constructor
  · intro hc
    obtain ⟨t, ht, hexported⟩ := exists_of_mem_right h hc
    cases hexported with
    | const v => exact ⟨v, ht, rfl⟩
  · rintro ⟨v, hv, rfl⟩
    obtain ⟨a, ha, hexported⟩ := exists_of_mem_left h hv
    cases hexported
    exact ha

theorem lt_of_parameter_mem (h : List.Forall₂ (ExportedTerm s) ts as) {i : Nat}
    (hi : .parameter i ∈ as) : i < s.action.parameters.length := by
  obtain ⟨t, -, hexported⟩ := exists_of_mem_right h hi
  cases hexported with
  | cell hindex => exact (List.idxOf?_eq_some_iff.1 hindex).1

/-- The terms of all literals, with values put in. -/
def literalTerms (s : Schema) : List Term :=
  (s.action.literals.map (·.resolve s.arena)).flatMap (·.terms)

namespace ExportedSchema

variable (h : ExportedSchema s o)

include h

theorem atoms : List.Forall₂ (ExportedLiteral s) (s.action.literals.map (·.resolve s.arena))
    o.atoms := by
  rw [Action.literals, List.map_append, List.map_append]
  exact List.rel_append (List.rel_append h.preconditions h.deleted) h.added

theorem arguments : List.Forall₂ (ExportedTerm s) (literalTerms s) o.arguments :=
  List.rel_flatMap h.atoms fun _ _ ha => ha.arguments

theorem compared : List.Forall₂ (ExportedTerm s) s.comparedTerms o.compared :=
  List.rel_flatMap h.unequal fun _ _ hq => .cons hq.1 (.cons hq.2 .nil)

/-- The predicates of an operator are those of the literals. -/
theorem signatures_eq : o.atoms.map Atom.signature =
    s.action.literals.map fun l => (exportName l.name, l.arity) := by
  have hatoms := h.atoms
  rw [List.forall₂_map_left_iff] at hatoms
  rw [eq_comm, ← List.forall₂_eq_eq_eq, List.forall₂_map_left_iff, List.forall₂_map_right_iff]
  refine hatoms.imp fun l a hla => Prod.ext hla.name.symm ?_
  have hlength := hla.arguments.length_eq
  rw [Literal.resolve, List.length_map] at hlength
  exact hlength

end ExportedSchema

end Uses

/-- **The uses of a task** are those of the problem. -/
theorem ExportedProblem.uses_eq {p : Problem} {t : Task} (h : ExportedProblem p t) :
    t.uses = p.predicates.map fun u => (exportName u.1, u.2) := by
  have hoperators : (t.operators.flatMap fun o => o.atoms.map Atom.signature) =
      p.schemas.flatMap fun s => s.action.literals.map fun l => (exportName l.name, l.arity) := by
    rw [eq_comm, ← List.forall₂_eq_eq_eq]
    refine List.rel_flatMap h.operators fun s o hso => ?_
    rw [List.forall₂_eq_eq_eq]
    exact hso.signatures_eq.symm
  have hfacts : ∀ fs : List Fact, (fs.map exportFact).map Atom.signature =
      fs.map fun f => (exportName f.name, f.arguments.length) := by
    intro fs
    rw [List.map_map]
    refine List.map_congr_left fun f _ => ?_
    simp [Atom.signature, exportFact]
  rw [Task.uses, hoperators, h.initial, h.goals, ← List.map_append, hfacts, Problem.predicates]
  simp only [List.map_append, List.map_flatMap, List.map_map, Function.comp_def]

/-! ### Which tasks are well declared -/

/-- Different things can be told by a key exactly if each is the only one with its key. -/
theorem filter_key_eq_singleton_iff {α β γ : Type} [DecidableEq α] [DecidableEq γ] {f : α → β}
    {k : β → γ} {xs : List α} (h : xs.Nodup) :
    (∀ x ∈ xs, (xs.map f).filter (k · == k (f x)) = [f x]) ↔
      ∀ x ∈ xs, ∀ y ∈ xs, k (f x) = k (f y) → x = y := by
  constructor
  · intro hone x hx y hy hxy
    have hlength := congrArg List.length (hone x hx)
    rw [List.filter_map, List.length_map] at hlength
    obtain ⟨z, hz⟩ := List.length_eq_one_iff.1 hlength
    have hmem : ∀ w ∈ xs, k (f w) = k (f x) → w = z := by
      intro w hw hk
      have hw' : w ∈ xs.filter ((k · == k (f x)) ∘ f) :=
        List.mem_filter.2 ⟨hw, beq_iff_eq.2 hk⟩
      exact List.mem_singleton.1 (hz ▸ hw')
    exact (hmem x hx rfl).trans (hmem y hy hxy.symm).symm
  · intro hinj x hx
    have hfilter : xs.filter ((k · == k (f x)) ∘ f) = xs.filter (· == x) := by
      refine List.filter_congr fun y hy => ?_
      rw [Bool.eq_iff_iff, Function.comp_apply, beq_iff_eq, beq_iff_eq]
      exact ⟨hinj y hy x hx, fun heq => by rw [heq]⟩
    rw [List.filter_map, hfilter, List.filter_beq, List.count_eq_one_of_mem h hx]
    rfl

theorem mem_schemaConstants {p : Problem} (hnew : ∀ s ∈ p.schemas, s.arena.AllNew) {v : String} :
    v ∈ p.schemaConstants ↔ ∃ s ∈ p.schemas, .const v ∈ literalTerms s := by
  rw [Problem.schemaConstants, List.mem_flatMap]
  refine exists_congr fun s => and_congr_right fun hs => ?_
  rw [List.mem_flatMap, literalTerms, List.flatMap_map, List.mem_flatMap]
  exact exists_congr fun l => and_congr_right fun _ => mem_constants (hnew s hs)

theorem mem_comparedConstants {s : Schema} {v : String} :
    v ∈ s.comparedConstants ↔ .const v ∈ s.comparedTerms := by
  rw [Schema.comparedConstants, List.mem_filterMap]
  constructor
  · rintro ⟨_ | _, hmem, hv⟩
    · cases hv
      exact hmem
    · cases hv
  · exact fun hmem => ⟨_, hmem, rfl⟩

section Main

variable {p : Problem} {domain problem : String} {t : Task}
  (hnew : ∀ s ∈ p.schemas, s.arena.AllNew)
  (h : exportTask domain problem p.schemas p.initial p.goals = .ok t)

include h

/-- No name is declared twice if different constants have different exported names. -/
theorem nodup_iff : (t.constants ++ t.objects).Nodup ↔
    ∀ v ∈ p.constants, ∀ w ∈ p.constants, exportName v = exportName w → v = w := by
  obtain ⟨-, used, other, hnodup, -, hmem, hconstants, hobjects⟩ := exists_declarations h
  rw [hconstants, hobjects, ← List.map_append, List.nodup_map_iff_inj_on hnodup]
  simp only [hmem]

include hnew

/-- **What stands in literals and facts is declared.** -/
theorem closed_of_exportTask : t.Closed := by
  obtain ⟨hexported, -⟩ := exported_of_exportTask hnew h
  obtain ⟨⟨names, arity, -, hnames, harity, hpredicates⟩, used, other, -, hused, -, hconstants,
    -⟩ := exists_declarations h
  refine ⟨fun o ho c hc => ?_, fun o ho i hi => ?_, fun u hu => ?_, fun a ha c hc => ?_⟩
  · obtain ⟨s, hs, hso⟩ := exists_of_mem_right hexported.operators ho
    obtain ⟨v, hv, rfl⟩ := (object_mem_iff hso.arguments).1 hc
    rw [hconstants]
    exact List.mem_map_of_mem ((hused v).2 ((mem_schemaConstants hnew).2 ⟨s, hs, hv⟩))
  · obtain ⟨s, hs, hso⟩ := exists_of_mem_right hexported.operators ho
    rw [hso.arity]
    exact (List.mem_append.1 hi).elim (lt_of_parameter_mem hso.arguments)
      (lt_of_parameter_mem hso.compared)
  · rw [hexported.uses_eq] at hu
    obtain ⟨w, hw, rfl⟩ := List.mem_map.1 hu
    rw [hpredicates]
    exact List.mem_map.2 ⟨w.1, (hnames w.1).2 ⟨w, hw, rfl⟩, by rw [harity w hw]⟩
  · rw [hexported.initial, hexported.goals, ← List.map_append] at ha
    obtain ⟨f, hf, rfl⟩ := List.mem_map.1 ha
    obtain ⟨v, hv, rfl⟩ := List.mem_map.1 hc
    refine (hexported.mem_declared _).2 ⟨v, ?_, rfl⟩
    exact List.mem_append_right _ (List.mem_flatMap.2 ⟨f, hf, hv⟩)

/-- The constants of constraints are declared if they are met in literals. -/
theorem compared_iff : (∀ o ∈ t.operators, ∀ c, .object c ∈ o.compared → c ∈ t.constants) ↔
    ∀ s ∈ p.schemas, ∀ v ∈ s.comparedConstants, ∃ w ∈ p.schemaConstants,
      exportName w = exportName v := by
  obtain ⟨hexported, -⟩ := exported_of_exportTask hnew h
  obtain ⟨-, used, other, -, hused, -, hconstants, -⟩ := exists_declarations h
  have hmem : ∀ c, c ∈ t.constants ↔ ∃ w ∈ p.schemaConstants, exportName w = c := by
    intro c
    rw [hconstants, List.mem_map]
    exact exists_congr fun w => and_congr_left fun _ => hused w
  constructor
  · intro hdeclared s hs v hv
    obtain ⟨o, ho, hso⟩ := exists_of_mem_left hexported.operators hs
    exact (hmem _).1 (hdeclared o ho _
      ((object_mem_iff hso.compared).2 ⟨v, mem_comparedConstants.1 hv, rfl⟩))
  · intro hmet o ho c hc
    obtain ⟨s, hs, hso⟩ := exists_of_mem_right hexported.operators ho
    obtain ⟨v, hv, rfl⟩ := (object_mem_iff hso.compared).1 hc
    exact (hmem _).2 (hmet s hs v (mem_comparedConstants.2 hv))

/-- A predicate is declared once if no other one is exported by its name. -/
theorem once_iff : (∀ u ∈ t.uses, t.predicates.filter (·.1 == u.1) = [u]) ↔
    ∀ u ∈ p.predicates, ∀ w ∈ p.predicates, exportName u.1 = exportName w.1 → u.1 = w.1 := by
  obtain ⟨hexported, -⟩ := exported_of_exportTask hnew h
  obtain ⟨⟨names, arity, hnodup, hnames, harity, hpredicates⟩, -⟩ := exists_declarations h
  have hnamed : ∀ {P : String → Prop}, (∀ x ∈ names, P x) ↔ ∀ u ∈ p.predicates, P u.1 := by
    intro P
    constructor
    · exact fun hP u hu => hP u.1 ((hnames u.1).2 ⟨u, hu, rfl⟩)
    · intro hP x hx
      obtain ⟨u, hu, rfl⟩ := (hnames x).1 hx
      exact hP u hu
  have hone : (∀ u ∈ t.uses, t.predicates.filter (·.1 == u.1) = [u]) ↔
      ∀ x ∈ names, t.predicates.filter (·.1 == exportName x) = [(exportName x, arity x)] := by
    rw [hexported.uses_eq, List.forall_mem_map, hnamed]
    exact forall₂_congr fun u hu => by rw [harity u hu]
  rw [hone, hpredicates]
  refine (filter_key_eq_singleton_iff (f := fun name => (exportName name, arity name))
    (k := Prod.fst) hnodup).trans ?_
  rw [hnamed]
  exact forall₂_congr fun u _ => hnamed

end Main

/-- **Which tasks are well declared.** In every task of a problem text, what stands in literals and
facts is declared. The task is well declared exactly if each constant of a constraint is one of a
literal, too, and if different predicates, and different constants, have different exported
names. So much can be seen from the files: no other task has the same ones. -/
theorem wellDeclared_iff {text : String} {p : Problem} (hp : Problem.parse text = .ok p)
    {domain problem : String} {t : Task}
    (h : exportTask domain problem p.schemas p.initial p.goals = .ok t) :
    t.Closed ∧ (t.WellDeclared ↔ p.Declarable) ∧
      ∀ u : Task, u.Plain → u.domainName = t.domainName → u.problemName = t.problemName →
        u.domainText = t.domainText → u.problemText = t.problemText → u = t := by
  have hnew : ∀ s ∈ p.schemas, s.arena.AllNew := fun s hs =>
    (Problem.built_of_parse hp s hs).marked.allNew
  have hclosed := closed_of_exportTask hnew h
  refine ⟨hclosed, ⟨fun hwell => ?_, fun hdeclarable => ?_⟩, fun u hu hdomain hproblem => ?_⟩
  · exact ⟨(compared_iff hnew h).1 hwell.compared, (once_iff hnew h).1 hwell.once,
      (nodup_iff h).1 hwell.nodup⟩
  · exact ⟨hclosed, (compared_iff hnew h).2 hdeclarable.compared,
      (once_iff hnew h).2 hdeclarable.predicates, (nodup_iff h).2 hdeclarable.constants⟩
  · obtain ⟨hexported, -⟩ := exported_of_exportTask hnew h
    exact Task.eq_of_texts_eq hu (hexported.plain hnew (Problem.isWord_of_parse hp)) hdomain
      hproblem

/-- Everyone leaves for another place than home, and comes home from anywhere. -/
def homeText : String :=
  "leave :: at(X), to(X, Y), distinct(Y, home) => not at(X), at(Y). " ++
    "return :: at(X) => not at(X), at(home). at(home). to(home, school). goal at(school)."

/-- Home is declared, since one comes home. -/
theorem wellDeclared_iff_home : ∃ p t, Problem.parse homeText = .ok p ∧
    exportTask "graphplan" "task" p.schemas p.initial p.goals = .ok t ∧
    t.Closed ∧ t.WellDeclared ∧
    ∀ u : Task, u.Plain → u.domainName = t.domainName → u.problemName = t.problemName →
      u.domainText = t.domainText → u.problemText = t.problemText → u = t := by
  have hread : (Problem.parse homeText).toOption.any (fun p => decide p.Declarable &&
      (exportTask "graphplan" "task" p.schemas p.initial p.goals).toOption.any fun _ => true) =
        true := by
    decide +kernel
  obtain ⟨p, hp, hread⟩ := exists_of_toOption_any hread
  obtain ⟨hdeclarable, htask⟩ := Bool.and_eq_true_iff.1 hread
  obtain ⟨t, ht, -⟩ := exists_of_toOption_any htask
  obtain ⟨hclosed, hiff, honly⟩ := wellDeclared_iff hp ht
  exact ⟨p, t, hp, ht, hclosed, hiff.2 (of_decide_eq_true hdeclarable), honly⟩

/-- Everyone leaves for good. -/
def awayText : String :=
  "leave :: at(X), distinct(X, home) => not at(X). at(school). goal at(school)."

/-- **Constraints are left out.** One leaves a place that is not home, and home is declared
nowhere. -/
theorem not_wellDeclared_away : ∃ p t, Problem.parse awayText = .ok p ∧
    exportTask "graphplan" "task" p.schemas p.initial p.goals = .ok t ∧
    (∃ o ∈ t.operators, .object "home" ∈ o.compared) ∧ "home" ∉ t.constants ++ t.objects ∧
    ¬t.WellDeclared := by
  have hread : (Problem.parse awayText).toOption.any (fun p =>
      (exportTask "graphplan" "task" p.schemas p.initial p.goals).toOption.any fun t =>
        decide ((∃ o ∈ t.operators, .object "home" ∈ o.compared) ∧
          "home" ∉ t.constants ++ t.objects)) = true := by
    decide +kernel
  obtain ⟨p, hp, hread⟩ := exists_of_toOption_any hread
  obtain ⟨t, ht, hread⟩ := exists_of_toOption_any hread
  obtain ⟨⟨o, ho, hhome⟩, hnone⟩ := of_decide_eq_true hread
  refine ⟨p, t, hp, ht, ⟨o, ho, hhome⟩, hnone, fun hwell => ?_⟩
  exact hnone (List.mem_append_left _ (hwell.compared o ho "home" hhome))

end Pddl

end Strips
