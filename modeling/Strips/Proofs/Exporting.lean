import Strips.Proofs.Conflicts
import Strips.Proofs.Fitting
import Strips.Proofs.Names

/-!
# Exported problems

A schema is exported with its constants renamed, and with the numbers of its parameters instead of
its variables. So an operator tells the schema apart from others as far as its variables do not
matter, if the names are known from their exported forms.

## Main definitions

* `Schema.Renames` – a schema is another one with its variables renamed.
* `Pddl.ExportedSchema`, `Pddl.ExportedProblem` – what schemas and problems are exported as.

## Main results

* `Pddl.exported_of_exportTask` – the task of a problem.
* `Pddl.ExportedProblem.plain` – its names can be read back from the files.
* `Pddl.ExportedSchema.renames` – schemas with one operator.
* `Pddl.same_of_texts_eq` – problems with one export are the same, up to names of variables.
-/

namespace Strips

/-! ### What a schema says -/

namespace Schema

variable (s : Schema)

/-- What the literals of a set say. -/
def said (ls : LiteralSet) : List Literal := ls.members.map (·.resolve s.arena)

/-- The terms of the constraints, with values put in. -/
def pairs : List (Term × Term) :=
  s.action.distinct.map fun p => (p.1.resolve s.arena, p.2.resolve s.arena)

/-- The variables of a schema. -/
def vars : Set Nat :=
  {i | (∃ l ∈ s.action.literals, .cell i ∈ (l.resolve s.arena).terms) ∨
    ∃ p ∈ s.pairs, .cell i ∈ [p.1, p.2]}

end Schema

/-- A term with its variable renamed. -/
def Term.rename (f : Nat → Nat) : Term → Term
  | const value => const value
  | cell i => cell (f i)

/-- A literal with its variables renamed. -/
def Literal.rename (f : Nat → Nat) (l : Literal) : Literal := ⟨l.name, l.terms.map (·.rename f)⟩

/-- The second schema is the first one with its variables renamed. -/
structure Schema.Renames (s : Schema) (f : Nat → Nat) (t : Schema) : Prop where
  bijOn : Set.BijOn f s.vars t.vars
  name : t.action.name = s.action.name
  preconditions :
    t.said t.action.preconditions = (s.said s.action.preconditions).map (·.rename f)
  distinct : t.pairs = s.pairs.map fun p => (p.1.rename f, p.2.rename f)
  negative : t.said t.action.negative = (s.said s.action.negative).map (·.rename f)
  positive : t.said t.action.positive = (s.said s.action.positive).map (·.rename f)
  parameters : t.action.parameters = s.action.parameters.map f

/-! ### Parameters -/

namespace Schema.Built

variable {s : Schema} (h : s.Built)

include h

/-- Each parameter is collected once. -/
theorem nodup_parameters : s.action.parameters.Nodup := by
  obtain ⟨arena, name, pre, neg, pos, -, -, -, -, hbuild⟩ := h
  obtain ⟨a, -, -, haction⟩ := Action.exists_of_build hbuild
  rw [haction]
  exact nodup_eraseDups _

/-- The parameters are the variables that the literals have when values have been put in. -/
theorem mem_parameters_iff_resolve {i : Nat} : i ∈ s.action.parameters ↔
    ∃ l ∈ s.action.literals, .cell i ∈ (l.resolve s.arena).terms := by
  rw [h.mem_parameters]
  refine exists_congr fun l => and_congr_right fun _ => ?_
  rw [← Literal.mem_freeCells, h.marked.allNew.freeCells_eq, List.mem_eraseDups, Literal.mem_cells]

/-- A parameter is a variable, and one of a precondition. -/
theorem exists_precondition {i : Nat} (hi : i ∈ s.action.parameters) :
    s.arena.isConstant i = false ∧ ∃ m ∈ s.action.preconditions.members, .cell i ∈ m.terms := by
  obtain ⟨l, hl, hil, hfree⟩ := h.mem_parameters.1 hi
  exact ⟨hfree, h.regular.bound l hl i hil hfree⟩

end Schema.Built

/-! ### What is exported -/

namespace Pddl

variable {s : Schema}

/-- What a term is exported as when its value has been put in. -/
inductive ExportedTerm (s : Schema) : Term → Argument → Prop
  | const (v : String) : ExportedTerm s (.const v) (.object (exportName v))
  | cell {i k : Nat} : s.action.parameters.idxOf? i = some k →
      ExportedTerm s (.cell i) (.parameter k)

/-- What a literal is exported as when values have been put in. -/
structure ExportedLiteral (s : Schema) (l : Literal) (a : Atom Argument) : Prop where
  name : a.name = exportName l.name
  arguments : List.Forall₂ (ExportedTerm s) l.terms a.arguments

/-- What a schema is exported as. -/
structure ExportedSchema (s : Schema) (o : Operator) : Prop where
  name : o.name = exportName s.action.name
  arity : o.arity = s.action.parameters.length
  preconditions : List.Forall₂ (ExportedLiteral s) (s.said s.action.preconditions) o.preconditions
  unequal : List.Forall₂ (fun p q => ExportedTerm s p.1 q.1 ∧ ExportedTerm s p.2 q.2) s.pairs
    o.unequal
  added : List.Forall₂ (ExportedLiteral s) (s.said s.action.positive) o.added
  deleted : List.Forall₂ (ExportedLiteral s) (s.said s.action.negative) o.deleted

/-- What a computation with a result has computed before. -/
theorem exists_of_bind_eq_ok {ε α β : Type} {x : Except ε α} {f : α → Except ε β} {b : β}
    (h : x >>= f = .ok b) : ∃ a, x = .ok a ∧ f a = .ok b := by
  cases x with
  | error e => cases h
  | ok a => exact ⟨a, rfl, h⟩

/-- A result that passes a check is a result. -/
theorem exists_of_toOption_any {ε α : Type} {x : Except ε α} {check : α → Bool}
    (h : x.toOption.any check = true) : ∃ a, x = .ok a ∧ check a = true := by
  cases x with
  | error e => cases h
  | ok a => exact ⟨a, rfl, h⟩

theorem exportedTerm_of_exportTerm (h : s.arena.AllNew) {t : Term} {a : Argument}
    (ht : exportTerm s t = .ok a) : ExportedTerm s (t.resolve s.arena) a := by
  cases t with
  | const v =>
    cases ht
    exact .const v
  | cell i =>
    have hconstant : Term.isConstant s.arena (.cell i) = (s.arena.value? i).isSome :=
      (h.isSome_value? i).symm
    cases hcell : s.arena.value? i with
    | some v =>
      rw [hcell] at hconstant
      simp only [exportTerm, hconstant, Option.isSome_some, Term.value?, hcell] at ht
      cases ht
      rw [Term.resolve, hcell]
      exact .const v
    | none =>
      rw [hcell] at hconstant
      simp only [exportTerm, hconstant, Option.isSome_none] at ht
      rw [Term.resolve, hcell, h.root]
      cases hindex : s.action.parameters.idxOf? i with
      | none =>
        rw [hindex] at ht
        cases ht
      | some k =>
        rw [hindex] at ht
        cases ht
        exact .cell hindex

theorem exportedLiteral_of_exportLiteral (h : s.arena.AllNew) {l : Literal} {a : Atom Argument}
    (hl : exportLiteral s l = .ok a) : ExportedLiteral s (l.resolve s.arena) a := by
  rw [exportLiteral] at hl
  rcases hterms : l.terms.mapM (exportTerm s) with e | arguments
  · rw [hterms] at hl
    cases hl
  · rw [hterms] at hl
    obtain rfl := Except.ok.inj hl
    refine ⟨by dsimp only [Literal.resolve], ?_⟩
    rw [Literal.resolve, List.forall₂_map_left_iff]
    exact (forall₂_of_mapM_eq_ok hterms).imp fun _ _ ht => exportedTerm_of_exportTerm h ht

/-- **A schema that is exported** becomes an operator of the same content. -/
theorem exportedSchema_of_exportSchema (h : s.arena.AllNew) {o : Operator}
    (hs : exportSchema s = .ok o) : ExportedSchema s o := by
  have hliterals : ∀ {ls : LiteralSet} {as : List (Atom Argument)},
      ls.members.mapM (exportLiteral s) = .ok as →
        List.Forall₂ (ExportedLiteral s) (s.said ls) as := by
    intro ls as has
    rw [Schema.said, List.forall₂_map_left_iff]
    exact (forall₂_of_mapM_eq_ok has).imp fun _ _ hl => exportedLiteral_of_exportLiteral h hl
  obtain ⟨preconditions, hpreconditions, hs⟩ := exists_of_bind_eq_ok hs
  obtain ⟨unequal, hunequal, hs⟩ := exists_of_bind_eq_ok hs
  obtain ⟨added, hadded, hs⟩ := exists_of_bind_eq_ok hs
  obtain ⟨deleted, hdeleted, hs⟩ := exists_of_bind_eq_ok hs
  obtain rfl := Except.ok.inj hs
  refine ⟨by dsimp only, rfl, hliterals hpreconditions, ?_, hliterals hadded,
    hliterals hdeleted⟩
  rw [Schema.pairs, List.forall₂_map_left_iff]
  refine (forall₂_of_mapM_eq_ok hunequal).imp fun p q hpair => ?_
  obtain ⟨x, hx, hpair⟩ := exists_of_bind_eq_ok hpair
  obtain ⟨y, hy, hpair⟩ := exists_of_bind_eq_ok hpair
  obtain rfl := Except.ok.inj hpair
  exact ⟨exportedTerm_of_exportTerm h hx, exportedTerm_of_exportTerm h hy⟩

/-! ### Names of tasks -/

theorem mem_insertSorted {s t : String} : ∀ {ts : List String},
    t ∈ insertSorted s ts ↔ t = s ∨ t ∈ ts
  | [] => by rw [insertSorted, List.mem_singleton]; simp
  | u :: ts => by
    rw [insertSorted]
    split
    · rw [List.mem_cons, mem_insertSorted, List.mem_cons, or_left_comm]
    · exact List.mem_cons

theorem mem_sortNames {names : List String} {t : String} : t ∈ sortNames names ↔ t ∈ names := by
  have hfold : ∀ ts : List String, t ∈ ts.foldr insertSorted [] ↔ t ∈ ts := by
    intro ts
    induction ts with
    | nil => exact Iff.rfl
    | cons u ts ih => rw [List.foldr_cons, mem_insertSorted, ih, List.mem_cons]
  rw [sortNames, hfold, List.mem_eraseDups]

/-- A predicate with an arity has been used. -/
theorem exists_use_of_record {uses known signatures : List (String × Nat)}
    (h : uses.foldlM record known = .ok signatures) {name : String}
    (hname : name ∈ signatures.map Prod.fst) :
    name ∈ known.map Prod.fst ∨ name ∈ uses.map Prod.fst := by
  induction uses generalizing known with
  | nil => exact .inl (Except.ok.inj h ▸ hname)
  | cons use uses ih =>
    rw [List.foldlM_cons] at h
    obtain ⟨next, hnext, h⟩ := exists_of_bind_eq_ok h
    have hstep : ∀ x ∈ next.map Prod.fst, x ∈ known.map Prod.fst ∨ x = use.1 := by
      intro x hx
      rw [record] at hnext
      split at hnext
      · obtain rfl := Except.ok.inj hnext
        rw [List.map_append, List.mem_append] at hx
        exact hx.imp_right List.mem_singleton.1
      · split at hnext
        · exact .inl (Except.ok.inj hnext ▸ hx)
        · cases hnext
    rw [List.map_cons, List.mem_cons]
    rcases ih h with hname | hname
    · exact (hstep name hname).imp_right .inl
    · exact .inr (.inr hname)

theorem mem_constants (h : s.arena.AllNew) {l : Literal} {v : String} :
    v ∈ constants s.arena l ↔ .const v ∈ (l.resolve s.arena).terms := by
  have hterm : ∀ t : Term, (if t.isConstant s.arena then t.value? s.arena else none) = some v ↔
      t.resolve s.arena = .const v := by
    intro t
    cases t with
    | const w => simp [Term.isConstant, Term.value?, Term.resolve]
    | cell i =>
      have hvalue := h.isSome_value? i
      cases hcell : s.arena.value? i with
      | none => simp [Term.value?, Term.resolve, hcell]
      | some w =>
        rw [hcell] at hvalue
        simp [Term.isConstant, Term.value?, Term.resolve, hcell, ← hvalue]
  rw [constants, List.mem_filterMap, Literal.resolve, List.mem_map]
  exact exists_congr fun t => and_congr_right fun _ => hterm t

end Pddl

/-! ### Problems -/

namespace Problem

variable (p : Problem)

/-- The predicates of a problem, with the arities that they are used with. -/
def predicates : List (String × Nat) :=
  (p.schemas.flatMap fun s => s.action.literals.map fun l => (l.name, l.arity)) ++
    (p.initial ++ p.goals).map fun f => (f.name, f.arguments.length)

/-- The constants in the literals and facts of a problem. -/
def constants : List String :=
  (p.schemas.flatMap fun s => s.action.literals.flatMap (Pddl.constants s.arena)) ++
    (p.initial ++ p.goals).flatMap Fact.arguments

end Problem

namespace Pddl

/-- What a problem is exported as. -/
structure ExportedProblem (p : Problem) (t : Task) : Prop where
  operators : List.Forall₂ ExportedSchema p.schemas t.operators
  initial : t.initial = p.initial.map exportFact
  goals : t.goals = p.goals.map exportFact
  mem_declared : ∀ c, c ∈ t.constants ++ t.objects ↔ ∃ v ∈ p.constants, exportName v = c
  predicates : ∀ q ∈ t.predicates, ∃ u ∈ p.predicates, exportName u.1 = q.1

/-- **A problem that is exported** becomes a task of the same content. -/
theorem exported_of_exportTask {p : Problem} (hnew : ∀ s ∈ p.schemas, s.arena.AllNew)
    {domain problem : String} {t : Task}
    (h : exportTask domain problem p.schemas p.initial p.goals = .ok t) :
    ExportedProblem p t ∧ t.domainName = exportName domain ∧
      t.problemName = exportName problem := by
  obtain ⟨predicates, hpredicates, h⟩ := exists_of_bind_eq_ok h
  obtain ⟨operators, hoperators, h⟩ := exists_of_bind_eq_ok h
  obtain rfl := Except.ok.inj h
  refine ⟨⟨?_, rfl, rfl, fun c => ?_, fun q hq => ?_⟩, by dsimp only, by dsimp only⟩
  · exact ((List.forall₂_and_left _ _).2 ⟨hnew, forall₂_of_mapM_eq_ok hoperators⟩).imp
      fun s o hso => exportedSchema_of_exportSchema hso.1 hso.2
  · rw [Problem.constants]
    -- a constant of facts is declared with the problem, unless a schema has it
    change c ∈ List.map exportName _ ++ List.map exportName _ ↔ _
    simp only [List.mem_append, List.mem_map, List.mem_filter, mem_sortNames]
    constructor
    · rintro (⟨v, hv, rfl⟩ | ⟨v, ⟨hv, -⟩, rfl⟩)
      · exact ⟨v, .inl hv, rfl⟩
      · exact ⟨v, .inr hv, rfl⟩
    · rintro ⟨v, hv, rfl⟩
      by_cases hused :
          v ∈ p.schemas.flatMap fun s => (literals s.action).flatMap (constants s.arena)
      · exact .inl ⟨v, hused, rfl⟩
      · refine .inr ⟨v, ⟨hv.resolve_left hused, ?_⟩, rfl⟩
        rw [Bool.not_eq_true', ← Bool.not_eq_true, List.contains_iff_mem, mem_sortNames]
        exact hused
  · obtain ⟨name, hname, rfl⟩ := List.mem_map.1 hq
    have huse := (exists_use_of_record hpredicates (mem_sortNames.1 hname)).resolve_left
      List.not_mem_nil
    obtain ⟨u, hu, rfl⟩ := List.mem_map.1 huse
    exact ⟨u, hu, by dsimp only⟩

/-! ### Plain tasks -/

/-- The names of a fact are exported one by one. -/
theorem names_exportFact (f : Fact) :
    (exportFact f).name :: (exportFact f).arguments = (f.name :: f.arguments).map exportName := by
  rw [List.map_cons]
  dsimp only [exportFact]

/-- What is exported of words is plain. -/
theorem ExportedTerm.plain {s : Schema} {x : Term} {a : Argument} (h : ExportedTerm s x a)
    (hword : ∀ v, x = .const v → IsWord v.toList) : a.Plain := by
  cases h with
  | const v => exact plain_exportName (hword v rfl)
  | cell => exact True.intro

theorem ExportedLiteral.plain {s : Schema} {l : Literal} {a : Atom Argument}
    (h : ExportedLiteral s l a) (hword : l.EachName fun x => IsWord x.toList) : a.Plain := by
  refine ⟨h.name ▸ plain_exportName hword.name, fun b hb => ?_⟩
  obtain ⟨x, hx, hxb⟩ := exists_of_mem_right h.arguments hb
  exact hxb.plain fun v hv => hword.constants v (hv ▸ hx)

theorem ExportedSchema.plain {s : Schema} {o : Operator} (h : ExportedSchema s o)
    (hword : s.EachName fun x => IsWord x.toList) : o.Plain := by
  have hset : ∀ {ls : LiteralSet} {as : List (Atom Argument)}, ls.members ⊆ s.action.literals →
      List.Forall₂ (ExportedLiteral s) (s.said ls) as → ∀ a ∈ as, a.Plain := by
    intro ls as hls has a ha
    obtain ⟨l, hl, hla⟩ := exists_of_mem_right has ha
    obtain ⟨m, hm, rfl⟩ := List.mem_map.1 hl
    exact hla.plain (hword.literals m (hls hm))
  refine ⟨h.name ▸ plain_exportName hword.name, hset (fun l hl => ?_) h.preconditions,
    fun q hq => ?_, hset (fun l hl => ?_) h.added, hset (fun l hl => ?_) h.deleted⟩
  · exact Action.mem_literals.2 (.inl hl)
  · obtain ⟨p, hp, h₁, h₂⟩ := exists_of_mem_right h.unequal hq
    obtain ⟨r, hr, rfl⟩ := List.mem_map.1 hp
    have hconstants := hword.distinct r hr
    exact ⟨h₁.plain fun v hv => hconstants v (hv ▸ List.mem_cons_self),
      h₂.plain fun v hv => hconstants v (hv ▸ List.mem_cons_of_mem _ List.mem_cons_self)⟩
  · exact Action.mem_literals.2 (.inr (.inr hl))
  · exact Action.mem_literals.2 (.inr (.inl hl))

/-- The constants of a problem are among its names. -/
theorem isWord_of_mem_constants {p : Problem} (hnew : ∀ s ∈ p.schemas, s.arena.AllNew)
    (hword : p.EachName fun x => IsWord x.toList) {v : String} (hv : v ∈ p.constants) :
    IsWord v.toList := by
  rw [Problem.constants, List.mem_append, List.mem_flatMap, List.mem_flatMap] at hv
  rcases hv with ⟨s, hs, hv⟩ | ⟨f, hf, hv⟩
  · obtain ⟨l, hl, hv⟩ := List.mem_flatMap.1 hv
    exact ((hword.schemas s hs).literals l hl).constants v ((mem_constants (hnew s hs)).1 hv)
  · exact hword.facts f hf v (List.mem_cons_of_mem _ hv)

/-- The predicates of a problem are among its names. -/
theorem isWord_of_mem_predicates {p : Problem} (hword : p.EachName fun x => IsWord x.toList)
    {u : String × Nat} (hu : u ∈ p.predicates) : IsWord u.1.toList := by
  rw [Problem.predicates, List.mem_append, List.mem_flatMap, List.mem_map] at hu
  rcases hu with ⟨s, hs, hu⟩ | ⟨f, hf, rfl⟩
  · obtain ⟨l, hl, rfl⟩ := List.mem_map.1 hu
    exact ((hword.schemas s hs).literals l hl).name
  · exact hword.facts f hf f.name List.mem_cons_self

/-- **The task of a problem text is plain.** -/
theorem ExportedProblem.plain {p : Problem} {t : Task} (h : ExportedProblem p t)
    (hnew : ∀ s ∈ p.schemas, s.arena.AllNew) (hword : p.EachName fun x => IsWord x.toList) :
    t.Plain := by
  have hdeclared : ∀ c ∈ t.constants ++ t.objects, Pddl.Plain c := by
    intro c hc
    obtain ⟨v, hv, rfl⟩ := (h.mem_declared c).1 hc
    exact plain_exportName (isWord_of_mem_constants hnew hword hv)
  have hfacts : ∀ {fs : List Fact}, fs ⊆ p.initial ++ p.goals →
      ∀ a ∈ fs.map exportFact, ∀ w ∈ a.name :: a.arguments, Pddl.Plain w := by
    intro fs hfs a ha w hw
    obtain ⟨f, hf, rfl⟩ := List.mem_map.1 ha
    rw [names_exportFact] at hw
    obtain ⟨x, hx, rfl⟩ := List.mem_map.1 hw
    exact plain_exportName (hword.facts f (hfs hf) x hx)
  refine ⟨fun c hc => hdeclared c (List.mem_append_left _ hc), fun q hq => ?_, fun o ho => ?_,
    fun c hc => hdeclared c (List.mem_append_right _ hc), ?_, ?_⟩
  · obtain ⟨u, hu, hname⟩ := h.predicates q hq
    exact hname ▸ plain_exportName (isWord_of_mem_predicates hword hu)
  · obtain ⟨s, hs, hso⟩ := exists_of_mem_right h.operators ho
    exact hso.plain (hword.schemas s hs)
  · rw [h.initial]
    exact hfacts (List.subset_append_left _ _)
  · rw [h.goals]
    exact hfacts (List.subset_append_right _ _)

/-! ### One task of two problems -/

section Renaming

variable {s t : Schema} {o : Operator}

/-- The variable of the second schema that is exported as a variable of the first one. -/
def renamed (s t : Schema) (i : Nat) : Nat :=
  t.action.parameters.getD (s.action.parameters.idxOf i) 0

theorem ExportedTerm.mem_parameters {i : Nat} {a : Argument} (h : ExportedTerm s (.cell i) a) :
    i ∈ s.action.parameters := by
  cases h with
  | cell hi =>
    obtain ⟨hlt, heq, -⟩ := List.idxOf?_eq_some_iff.1 hi
    exact heq ▸ List.getElem_mem hlt

/-- Terms with one exported form, if it shows the constants. -/
theorem ExportedTerm.eq_rename {x y : Term} {a : Argument} (hx : ExportedTerm s x a)
    (hy : ExportedTerm t y a) (hsx : ∀ v, x = .const v → exportName v = v)
    (hty : ∀ v, y = .const v → exportName v = v) : y = x.rename (renamed s t) := by
  cases hx with
  | const v =>
    generalize ha : Argument.object (exportName v) = a at hy
    cases hy with
    | const w =>
      have hvw : exportName v = exportName w := Argument.object.inj ha
      rw [hsx v rfl, hty w rfl] at hvw
      rw [hvw]
      rfl
    | cell => cases ha
  | @cell i k hi =>
    generalize ha : Argument.parameter k = a at hy
    cases hy with
    | const w => cases ha
    | @cell j m hj =>
      obtain rfl := Argument.parameter.inj ha
      obtain ⟨hlt, heq, -⟩ := List.idxOf?_eq_some_iff.1 hj
      have hindex : s.action.parameters.idxOf i = k := by
        rw [List.idxOf_eq_getD_idxOf?, hi]
        rfl
      rw [Term.rename, renamed, hindex, List.getD_eq_getElem?_getD,
        List.getElem?_eq_getElem hlt, heq, Option.getD_some]

/-- Two lists with one exported form are in step. -/
theorem forall₂_of_exported {α β : Type} {R R' : α → β → Prop} {S : α → α → Prop} {xs ys : List α}
    {bs : List β} (hxs : List.Forall₂ R xs bs) (hys : List.Forall₂ R' ys bs)
    (h : ∀ x ∈ xs, ∀ y ∈ ys, ∀ b, R x b → R' y b → S x y) : List.Forall₂ S xs ys := by
  induction hxs generalizing ys with
  | nil =>
    cases hys
    exact .nil
  | @cons x b xs bs hx _ ih =>
    cases hys with
    | @cons y _ ys _ hy hys =>
      exact .cons (h x List.mem_cons_self y List.mem_cons_self b hx hy) (ih hys fun x hx y hy =>
        h x (List.mem_cons_of_mem _ hx) y (List.mem_cons_of_mem _ hy))

theorem eq_map_of_exported {α β : Type} {R R' : α → β → Prop} {f : α → α} {xs ys : List α}
    {bs : List β} (hxs : List.Forall₂ R xs bs) (hys : List.Forall₂ R' ys bs)
    (h : ∀ x ∈ xs, ∀ y ∈ ys, ∀ b, R x b → R' y b → f x = y) : ys = xs.map f := by
  have hmap := forall₂_of_exported hxs hys h
  rw [← List.forall₂_map_left_iff, List.forall₂_eq_eq_eq] at hmap
  exact hmap.symm

theorem ExportedLiteral.eq_rename {l m : Literal} {a : Atom Argument} (hl : ExportedLiteral s l a)
    (hm : ExportedLiteral t m a) (hsl : l.EachName fun x => exportName x = x)
    (htm : m.EachName fun x => exportName x = x) : m = l.rename (renamed s t) := by
  have hname : m.name = l.name := by
    have hnames := hm.name.symm.trans hl.name
    rwa [htm.name, hsl.name] at hnames
  have hterms : m.terms = l.terms.map (·.rename (renamed s t)) :=
    eq_map_of_exported hl.arguments hm.arguments fun x hx y hy a hxa hya =>
      (hxa.eq_rename hya (fun v hv => hsl.constants v (hv ▸ hx))
        fun v hv => htm.constants v (hv ▸ hy)).symm
  cases m
  cases hname
  cases hterms
  rfl

/-- The variables of a schema that is exported are its parameters. -/
theorem ExportedSchema.mem_vars_iff (h : ExportedSchema s o) (hs : s.Built) {i : Nat} :
    i ∈ s.vars ↔ i ∈ s.action.parameters := by
  have hset : ∀ {ls : LiteralSet} {as : List (Atom Argument)},
      List.Forall₂ (ExportedLiteral s) (s.said ls) as → ∀ l ∈ ls.members,
        .cell i ∈ (l.resolve s.arena).terms → i ∈ s.action.parameters := by
    intro ls as has l hl hi
    obtain ⟨a, -, hla⟩ := exists_of_mem_left has (List.mem_map_of_mem hl)
    obtain ⟨b, -, hb⟩ := exists_of_mem_left hla.arguments hi
    exact hb.mem_parameters
  constructor
  · rintro (⟨l, hl, hi⟩ | ⟨p, hp, hi⟩)
    · rcases Action.mem_literals.1 hl with hl | hl | hl
      · exact hset h.preconditions l hl hi
      · exact hset h.deleted l hl hi
      · exact hset h.added l hl hi
    · obtain ⟨q, -, h₁, h₂⟩ := exists_of_mem_left h.unequal hp
      rcases List.mem_pair.1 hi with hi | hi
      · exact (hi ▸ h₁).mem_parameters
      · exact (hi ▸ h₂).mem_parameters
  · exact fun hi => .inl (hs.mem_parameters_iff_resolve.1 hi)

section Fixed

variable (h : ExportedSchema s o) (h' : ExportedSchema t o) (hs : s.Built) (ht : t.Built)
  (hfixed : s.EachName fun x => exportName x = x)
  (hfixed' : t.EachName fun x => exportName x = x)

include hfixed hfixed'

/-- Sets of literals with one exported form say the same. -/
theorem said_eq_rename {ls ms : LiteralSet} {as : List (Atom Argument)}
    (hls : ls.members ⊆ s.action.literals) (hms : ms.members ⊆ t.action.literals)
    (hl : List.Forall₂ (ExportedLiteral s) (s.said ls) as)
    (hm : List.Forall₂ (ExportedLiteral t) (t.said ms) as) :
    t.said ms = (s.said ls).map (·.rename (renamed s t)) := by
  refine eq_map_of_exported hl hm fun l hl m hm a hla hma => (hla.eq_rename hma ?_ ?_).symm
  · obtain ⟨k, hk, rfl⟩ := List.mem_map.1 hl
    exact hfixed.literals k (hls hk)
  · obtain ⟨k, hk, rfl⟩ := List.mem_map.1 hm
    exact hfixed'.literals k (hms hk)

include h h'

/-- Constraints with one exported form say the same. -/
theorem pairs_eq_rename :
    t.pairs = s.pairs.map fun p => (p.1.rename (renamed s t), p.2.rename (renamed s t)) := by
  refine eq_map_of_exported h.unequal h'.unequal fun p hp q hq a hpa hqa => ?_
  obtain ⟨p, hps, rfl⟩ := List.mem_map.1 hp
  obtain ⟨q, hqs, rfl⟩ := List.mem_map.1 hq
  have hpv := hfixed.distinct p hps
  have hqv := hfixed'.distinct q hqs
  refine (Prod.ext
    (hpa.1.eq_rename hqa.1 (fun v hv => hpv v (hv ▸ List.mem_cons_self))
      fun v hv => hqv v (hv ▸ List.mem_cons_self))
    (hpa.2.eq_rename hqa.2 (fun v hv => hpv v (hv ▸ List.mem_cons_of_mem _ List.mem_cons_self))
      fun v hv => hqv v (hv ▸ List.mem_cons_of_mem _ List.mem_cons_self))).symm

omit hfixed hfixed'

include hs

theorem parameters_eq_map_renamed :
    t.action.parameters = s.action.parameters.map (renamed s t) := by
  refine List.ext_getElem (by rw [List.length_map, ← h.arity, h'.arity]) fun k hk hk' => ?_
  have hindex := hs.nodup_parameters.idxOf_getElem k (by simpa using hk')
  rw [List.getElem_map, renamed, hindex, List.getD_eq_getElem?_getD, List.getElem?_eq_getElem hk,
    Option.getD_some]

include ht

/-- The variables of both schemas go together one by one. -/
theorem bijOn_renamed : Set.BijOn (renamed s t) s.vars t.vars := by
  have hparameters := parameters_eq_map_renamed h h' hs
  refine ⟨fun i hi => ?_, fun i hi j hj hij => ?_, fun j hj => ?_⟩
  · rw [h'.mem_vars_iff ht, hparameters]
    exact List.mem_map_of_mem ((h.mem_vars_iff hs).1 hi)
  · exact List.inj_on_of_nodup_map (hparameters ▸ ht.nodup_parameters) ((h.mem_vars_iff hs).1 hi)
      ((h.mem_vars_iff hs).1 hj) hij
  · rw [h'.mem_vars_iff ht, hparameters] at hj
    obtain ⟨i, hi, rfl⟩ := List.mem_map.1 hj
    exact ⟨i, (h.mem_vars_iff hs).2 hi, rfl⟩

include hfixed hfixed'

/-- **Schemas with one operator** are one schema, up to the names of variables. -/
theorem ExportedSchema.renames : s.Renames (renamed s t) t where
  bijOn := bijOn_renamed h h' hs ht
  name := by
    have hnames := h'.name.symm.trans h.name
    rwa [hfixed'.name, hfixed.name] at hnames
  preconditions := said_eq_rename hfixed hfixed' (fun l hl => Action.mem_literals.2 (.inl hl))
    (fun l hl => Action.mem_literals.2 (.inl hl)) h.preconditions h'.preconditions
  distinct := pairs_eq_rename h h' hfixed hfixed'
  negative := said_eq_rename hfixed hfixed' (fun l hl => Action.mem_literals.2 (.inr (.inl hl)))
    (fun l hl => Action.mem_literals.2 (.inr (.inl hl))) h.deleted h'.deleted
  positive := said_eq_rename hfixed hfixed' (fun l hl => Action.mem_literals.2 (.inr (.inr hl)))
    (fun l hl => Action.mem_literals.2 (.inr (.inr hl))) h.added h'.added
  parameters := parameters_eq_map_renamed h h' hs

end Fixed

end Renaming

theorem exportFact_eq_of_fixed {f : Fact} (h : ∀ x ∈ f.name :: f.arguments, exportName x = x) :
    exportFact f = ⟨f.name, f.arguments⟩ := by
  have hnames := names_exportFact f
  rw [List.map_congr_left h, List.map_id'] at hnames
  obtain ⟨hname, harguments⟩ := List.cons.inj hnames
  rw [← hname, ← harguments]

/-- Facts whose names are exported as they are can be read back. -/
theorem eq_of_map_exportFact_eq {fs gs : List Fact}
    (hfs : ∀ f ∈ fs, ∀ x ∈ f.name :: f.arguments, exportName x = x)
    (hgs : ∀ g ∈ gs, ∀ x ∈ g.name :: g.arguments, exportName x = x)
    (h : fs.map exportFact = gs.map exportFact) : fs = gs := by
  refine eq_of_map_eq (P := fun f => exportFact f = ⟨f.name, f.arguments⟩) (fun f g hf hg hfg => ?_)
    (fun f hf => ?_) (fun g hg => ?_) h
  · rw [hf, hg] at hfg
    cases f
    cases g
    cases hfg
    rfl
  · exact exportFact_eq_of_fixed (hfs f hf)
  · exact exportFact_eq_of_fixed (hgs g hg)

/-- **The export loses nothing** but the names of variables: two problems with the same files are
the same, if their names are as in the files. -/
theorem same_of_texts_eq {text text' : String} {p p' : Problem} (hp : Problem.parse text = .ok p)
    (hp' : Problem.parse text' = .ok p') (hfixed : p.EachName fun x => exportName x = x)
    (hfixed' : p'.EachName fun x => exportName x = x) {domain problem : String} {t t' : Task}
    (ht : exportTask domain problem p.schemas p.initial p.goals = .ok t)
    (ht' : exportTask domain problem p'.schemas p'.initial p'.goals = .ok t')
    (hdomain : t.domainText = t'.domainText) (hproblem : t.problemText = t'.problemText) :
    List.Forall₂ (fun s s' => ∃ f, s.Renames f s') p.schemas p'.schemas ∧
      p.initial = p'.initial ∧ p.goals = p'.goals := by
  have hbuilt := Problem.built_of_parse hp
  have hbuilt' := Problem.built_of_parse hp'
  have hnew := fun s hs => (hbuilt s hs).marked.allNew
  have hnew' := fun s hs => (hbuilt' s hs).marked.allNew
  obtain ⟨hexported, hname, hproblemName⟩ := exported_of_exportTask hnew ht
  obtain ⟨hexported', hname', hproblemName'⟩ := exported_of_exportTask hnew' ht'
  obtain rfl : t = t' := Task.eq_of_texts_eq
    (hexported.plain hnew (Problem.isWord_of_parse hp))
    (hexported'.plain hnew' (Problem.isWord_of_parse hp')) (hname.trans hname'.symm)
    (hproblemName.trans hproblemName'.symm) hdomain hproblem
  refine ⟨forall₂_of_exported hexported.operators hexported'.operators fun s hs s' hs' o hso hso' =>
      ⟨renamed s s', hso.renames hso' (hbuilt s hs) (hbuilt' s' hs') (hfixed.schemas s hs)
        (hfixed'.schemas s' hs')⟩, ?_, ?_⟩
  · exact eq_of_map_exportFact_eq (fun f hf => hfixed.facts f (List.mem_append_left _ hf))
      (fun f hf => hfixed'.facts f (List.mem_append_left _ hf))
      (hexported.initial.symm.trans hexported'.initial)
  · exact eq_of_map_exportFact_eq (fun f hf => hfixed.facts f (List.mem_append_right _ hf))
      (fun f hf => hfixed'.facts f (List.mem_append_right _ hf))
      (hexported.goals.symm.trans hexported'.goals)

/-- Someone who is not at `b` goes there. -/
def moveText : String := "go :: at(X), distinct(X, b) => not at(X), at(b). at(a). goal at(b)."

/-- The same with another variable, another keyword and another order of the effects. -/
def otherMoveText : String := "go :: at(P), distinct(P, b) => at(b), not at(P). at(a). goals at(b)."

/-- The files do not show the names of variables, and added facts come before deleted ones. -/
theorem same_of_texts_eq_move : ∃ p p', Problem.parse moveText = .ok p ∧
    Problem.parse otherMoveText = .ok p' ∧
    List.Forall₂ (fun s s' => ∃ f, s.Renames f s') p.schemas p'.schemas ∧
      p.initial = p'.initial ∧ p.goals = p'.goals := by
  have hread : (Problem.parse moveText).toOption.any (fun p =>
      (Problem.parse otherMoveText).toOption.any fun p' =>
        decide (p.EachName fun x => exportName x = x) &&
          decide (p'.EachName fun x => exportName x = x) &&
          (exportTask "go" "go" p.schemas p.initial p.goals).toOption.any fun t =>
            (exportTask "go" "go" p'.schemas p'.initial p'.goals).toOption.any fun t' =>
              decide (t' = t)) = true := by
    decide +kernel
  obtain ⟨p, hp, hread⟩ := exists_of_toOption_any hread
  obtain ⟨p', hp', hread⟩ := exists_of_toOption_any hread
  obtain ⟨hfixed, htask⟩ := Bool.and_eq_true_iff.1 hread
  obtain ⟨hfixed, hfixed'⟩ := Bool.and_eq_true_iff.1 hfixed
  obtain ⟨t, ht, htask⟩ := exists_of_toOption_any htask
  obtain ⟨t', ht', htask⟩ := exists_of_toOption_any htask
  obtain rfl := of_decide_eq_true htask
  exact ⟨p, p', hp, hp', same_of_texts_eq hp hp' (of_decide_eq_true hfixed)
    (of_decide_eq_true hfixed') ht ht' rfl rfl⟩

end Pddl

end Strips
