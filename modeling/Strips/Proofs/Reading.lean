import Strips.Proofs.Grounding
import Strips.Proofs.Unions

/-!
# Schemas that were read

A problem text gives regular schemas only. Reading makes a new cell for every new variable and for
every occurrence of a constant and never links two of them, so the arena of a statement is loose
from the first cell on. Building the action then only adds marks, and refuses an effect with a
variable that no precondition has.

## Main definitions

* `Reading.Ensures` – what holds of everything that a reader returns.
* `Arena.Fresh` – an arena without marks, as it is while literals are read.
* `Action.Marked` – an action under construction whose pairs are the marks of its arena.
* `Schema.Built` – a schema that was built from read literals.

## Main results

* `Schema.Built.regular` – an action that was built from read literals is a regular schema.
* `Problem.regular_of_parse` – all schemas of a problem text are regular.
-/

namespace Strips

/-! ### Cells

What was read refers to cells only, and to cells that are there. Marks come later, when an action is
built. -/

namespace Arena

/-- All terms of a list are cells of the arena. -/
def Spans (a : Arena) (ts : List Term) : Prop := ∀ t ∈ ts, ∃ i < a.size, t = .cell i

theorem Spans.holds {a : Arena} {ts : List Term} (h : a.Spans ts) : a.Holds ts := by
  intro i hi
  obtain ⟨j, hj, heq⟩ := h _ hi
  rwa [Term.cell.inj heq]

theorem Spans.mono {a b : Arena} {ts : List Term} (h : a.Spans ts) (hab : a.size ≤ b.size) :
    b.Spans ts := fun t ht => by
  obtain ⟨i, hi, heq⟩ := h t ht
  exact ⟨i, Nat.lt_of_lt_of_le hi hab, heq⟩

theorem Spans.append {a : Arena} {ts us : List Term} (h : a.Spans ts) (h' : a.Spans us) :
    a.Spans (ts ++ us) := fun t ht => (List.mem_append.1 ht).elim (h t) (h' t)

/-- All cells are as they were made. -/
structure Fresh (a : Arena) : Prop where
  allNew : a.AllNew
  partners : ∀ i, a.partners i = []

theorem fresh_empty : Fresh {} := ⟨fun i c hc => by simp at hc, fun i => by simp [partners]⟩

theorem Fresh.newCell {a : Arena} (h : a.Fresh) (v : Option String) : (a.newCell v).2.Fresh := by
  refine ⟨fun i c hc => ?_, fun i => by rw [partners_newCell]; exact h.partners i⟩
  rw [getElem?_newCell] at hc
  split at hc
  · rename_i hi
    obtain rfl := Option.some.inj hc
    exact ⟨rfl, hi.symm, rfl, by rw [hi], rfl⟩
  · exact h.allNew i c hc

end Arena

namespace Literal

/-- The cells of a literal. -/
def cells (l : Literal) : List Nat :=
  l.terms.filterMap fun t =>
    match t with
    | .const _ => none
    | .cell i => some i

theorem mem_cells {l : Literal} {i : Nat} : i ∈ l.cells ↔ .cell i ∈ l.terms := by
  rw [cells, List.mem_filterMap]
  constructor
  · rintro ⟨t, ht, hi⟩
    cases t with
    | const v => cases hi
    | cell j =>
      cases hi
      exact ht
  · exact fun hi => ⟨_, hi, rfl⟩

end Literal

/-! ### Readers

Here it is only said what a result is like, and not for which tokens there is one. So a statement
about a reader (`Ensures`) is kept by all ways to put readers together, errors being no results. -/

/-- A computation that may fail stops there, and keeps what it has changed before. -/
theorem run_bind {ε σ α β : Type} (r : ExceptT ε (StateM σ) α) (f : α → ExceptT ε (StateM σ) β)
    (c : σ) :
    (r >>= f).run.run c =
      match r.run.run c with
      | (.ok a, c') => (f a).run.run c'
      | (.error e, c') => (.error e, c') := by
  change (ExceptT.bindCont f (r.run.run c).1).run (r.run.run c).2 = _
  rcases r.run.run c with ⟨_ | _, c'⟩ <;> rfl

namespace Reading

variable {α β : Type}

/-- Whatever the reader returns satisfies `P`. -/
def Ensures (r : Reading α) (P : α → Prop) : Prop :=
  ∀ c a c', r.run.run c = (.ok a, c') → P a

theorem Ensures.pure {P : α → Prop} {a : α} (h : P a) : Ensures (Pure.pure a : Reading α) P := by
  intro c b c' hrun
  cases hrun
  exact h

theorem Ensures.throw (e : SyntaxError) (P : α → Prop) : Ensures (throw e : Reading α) P := by
  intro c a c' hrun
  cases hrun

theorem Ensures.trivial (r : Reading α) : Ensures r fun _ => True := fun _ _ _ _ => True.intro

theorem Ensures.mono {r : Reading α} {P Q : α → Prop} (h : Ensures r P) (hPQ : ∀ a, P a → Q a) :
    Ensures r Q := fun c a c' hrun => hPQ a (h c a c' hrun)

theorem Ensures.bind {r : Reading α} {f : α → Reading β} {P : α → Prop} {Q : β → Prop}
    (h : Ensures r P) (hf : ∀ a, P a → Ensures (f a) Q) : Ensures (r >>= f) Q := by
  intro c b c' hrun
  rw [run_bind] at hrun
  rcases hr : r.run.run c with ⟨e | a, c₁⟩
  · rw [hr] at hrun
    cases hrun
  · rw [hr] at hrun
    exact hf a (h c a c₁ hr) c₁ b c' hrun

/-- A reader whose first part may return anything. -/
theorem Ensures.bind_any {r : Reading α} {f : α → Reading β} {Q : β → Prop}
    (hf : ∀ a, Ensures (f a) Q) : Ensures (r >>= f) Q :=
  (Ensures.trivial r).bind fun a _ => hf a

end Reading

/-! ### Literals -/

/-- The variables have cells, and all cells are as they were made. -/
structure Vocabulary.Sound (v : Vocabulary) : Prop where
  fresh : v.arena.Fresh
  known : ∀ name i, v.known.lookup name = some i → i < v.arena.size

/-- A vocabulary that another one may become: it is sound and no smaller. -/
structure Vocabulary.Extends (v w : Vocabulary) : Prop where
  sound : w.Sound
  size_le : v.arena.size ≤ w.arena.size

theorem Vocabulary.Extends.trans {u v w : Vocabulary} (h : u.Extends v) (h' : v.Extends w) :
    u.Extends w :=
  ⟨h'.sound, Nat.le_trans h.size_le h'.size_le⟩

theorem Vocabulary.sound_empty : Vocabulary.Sound {} :=
  ⟨Arena.fresh_empty, fun name i h => by cases h⟩

theorem Vocabulary.Sound.term {v : Vocabulary} (h : v.Sound) (text : String) :
    v.Extends (v.term text).2 ∧ (v.term text).2.arena.Spans [(v.term text).1] := by
  have hspans : ∀ {a : Arena} {i : Nat}, i < a.size → a.Spans [.cell i] :=
    fun hi t ht => ⟨_, hi, List.mem_singleton.1 ht⟩
  rw [Vocabulary.term]
  split
  · split
    · rename_i i hi
      exact ⟨⟨h, Nat.le_refl _⟩, hspans (h.known text i hi)⟩
    · have hsize := v.arena.size_newCell none 0
      have hlt : v.arena.size < (v.arena.newCell none).2.size := by omega
      refine ⟨⟨⟨h.fresh.newCell none, fun name i hi => ?_⟩, Nat.le_of_lt hlt⟩, hspans hlt⟩
      change (v.known ++ [(text, v.arena.size)]).lookup name = some i at hi
      change i < (v.arena.newCell none).2.size
      rw [List.lookup_append] at hi
      rcases Option.or_eq_some_iff.1 hi with hi | ⟨-, hi⟩
      · exact Nat.lt_trans (h.known name i hi) hlt
      · rw [List.lookup_cons] at hi
        split at hi
        · cases hi
          exact hlt
        · cases hi
  · have hsize := v.arena.size_newCell (some text) 0
    have hlt : v.arena.size < (v.arena.newCell (some text)).2.size := by omega
    exact ⟨⟨⟨h.fresh.newCell _, fun name i hi => Nat.lt_trans (h.known name i hi) hlt⟩,
      Nat.le_of_lt hlt⟩, hspans hlt⟩

namespace Reading

/-- What a reader promises that takes a vocabulary along. -/
abbrev Grown {β : Type} (v : Vocabulary) (Q : Arena → β → Prop) (r : β × Vocabulary) : Prop :=
  v.Extends r.2 ∧ Q r.2.arena r.1

theorem ensures_arguments : ∀ (fuel : Nat) {terms : List Term} {v : Vocabulary}, v.Sound →
    v.arena.Spans terms → Ensures (arguments fuel terms v) (Grown v Arena.Spans)
  | 0, _, _, _, _ => .bind_any fun _ => .throw _ _
  | fuel + 1, terms, v, hv, hterms => by
    have hnext : ∀ text, Ensures (arguments fuel (terms ++ [(v.term text).1]) (v.term text).2)
        (Grown v Arena.Spans) := by
      intro text
      obtain ⟨hext, hspans⟩ := hv.term text
      exact (ensures_arguments fuel hext.sound ((hterms.mono hext.size_le).append hspans)).mono
        fun r hr => ⟨hext.trans hr.1, hr.2⟩
    rw [arguments]
    refine .bind_any fun token => ?_
    split
    · exact .pure ⟨⟨hv, Nat.le_refl _⟩, hterms⟩
    · split
      on_goal 2 => split
      -- with or without a comma, what follows is the next argument
      all_goals
        refine .bind_any fun token => ?_
        dsimp only
        split
        · exact hnext _
        · exact .throw _ _

theorem ensures_literal (name : String) {v : Vocabulary} (hv : v.Sound) :
    Ensures (literal name v) (Grown v fun a l => a.Spans l.terms) := by
  have hnil : v.arena.Spans [] := fun t ht => absurd ht List.not_mem_nil
  refine .bind_any fun following => ?_
  split
  · refine .bind_any fun _ => .bind_any fun cursor => ?_
    exact (ensures_arguments _ hv hnil).bind fun r hr => .pure hr
  · exact .pure ⟨⟨hv, Nat.le_refl _⟩, hnil⟩

theorem ensures_effect (name : String) {v : Vocabulary} (hv : v.Sound) :
    Ensures (effect name v) (Grown v fun a e => a.Spans e.2.terms) := by
  rw [effect]
  split
  · exact .bind_any fun r => (ensures_literal r.2 hv).bind fun l hl => .pure hl
  · exact (ensures_literal name hv).bind fun l hl => .pure hl

/-- A list of items, if a larger arena does not spoil an item. -/
theorem ensures_listUntil {β : Type} {Q : Arena → β → Prop}
    (hQ : ∀ {a b : Arena} {x : β}, Q a x → a.size ≤ b.size → Q b x) (terminator : Lexeme)
    {item : String → Vocabulary → Reading (β × Vocabulary)}
    (hitem : ∀ name v, v.Sound → Ensures (item name v) (Grown v Q)) :
    ∀ (fuel : Nat) {items : List β} {v : Vocabulary}, v.Sound → (∀ x ∈ items, Q v.arena x) →
      Ensures (listUntil terminator item fuel items v) (Grown v fun a xs => ∀ x ∈ xs, Q a x)
  | 0, _, _, _, _ => .bind_any fun _ => .throw _ _
  | fuel + 1, items, v, hv, hitems => by
    have hnext : ∀ name, Ensures (item name v >>= fun r =>
        listUntil terminator item fuel (items ++ [r.1]) r.2)
        (Grown v fun a xs => ∀ x ∈ xs, Q a x) := by
      intro name
      refine (hitem name v hv).bind fun r hr => ?_
      have hitems' : ∀ x ∈ items ++ [r.1], Q r.2.arena x := by
        intro x hx
        rcases List.mem_append.1 hx with hx | hx
        · exact hQ (hitems x hx) hr.1.size_le
        · exact List.mem_singleton.1 hx ▸ hr.2
      exact (ensures_listUntil (Q := Q) hQ terminator hitem fuel hr.1.sound hitems').mono
        fun xs hxs => ⟨hr.1.trans hxs.1, hxs.2⟩
    rw [listUntil]
    refine .bind_any fun token => ?_
    split
    · exact .pure ⟨⟨hv, Nat.le_refl _⟩, hitems⟩
    · split
      on_goal 2 => split
      all_goals
        refine .bind_any fun token => ?_
        dsimp only
        split
        · exact hnext _
        · exact .throw _ _

end Reading

/-! ### Building the action

An action that is built keeps its constraints twice: as pairs of terms, and as marks of the arena.
The search looks at the marks, and everything else at the pairs, so the two must agree
(`Action.Marked`). Each constraint that is taken adds one pair and one mark. -/

namespace LiteralSet

theorem mem_of_mem_insert {a : Arena} {s : LiteralSet} {l m : Literal}
    (h : l ∈ (s.insert a m).members) : l ∈ s.members ∨ l = m := by
  rw [insert] at h
  split at h
  · exact .inl h
  · exact (List.mem_append.1 h).imp_right List.mem_singleton.1

theorem mem_of_mem_insertMany {a : Arena} {l : Literal} : ∀ {ls : List Literal} {s : LiteralSet},
    l ∈ (s.insertMany a ls).members → l ∈ s.members ∨ l ∈ ls
  | [], _, h => .inl h
  | m :: ls, s, h => by
    rcases mem_of_mem_insertMany (s := s.insert a m) h with h | h
    · exact (mem_of_mem_insert h).imp_right fun h => List.mem_cons.2 (.inl h)
    · exact .inr (List.mem_cons_of_mem m h)

/-- A set that was made of a list holds literals of the list. -/
theorem mem_of_mem_ofList {a : Arena} {l : Literal} {ls : List Literal}
    (h : l ∈ (ofList a ls).members) : l ∈ ls :=
  (mem_of_mem_insertMany h).elim (fun h => absurd h List.not_mem_nil) id

end LiteralSet

/-- The pairs of an action under construction are the marks of its arena. -/
structure Action.Marked (a : Action) (arena : Arena) : Prop where
  allNew : arena.AllNew
  mem_partners : ∀ i j, j ∈ arena.partners i ↔
    (.cell i, .cell j) ∈ a.distinct ∨ (.cell j, .cell i) ∈ a.distinct
  cells : ∀ x y, (x, y) ∈ a.distinct → ∃ i j, x = .cell i ∧ y = .cell j ∧ i ≠ j

namespace Arena

theorem AllNew.modify {a : Arena} (h : a.AllNew) (i : Nat) (f : List Nat → List Nat) :
    (a.modify i fun c => { c with partners := f c.partners }).AllNew := by
  intro k c hc
  rw [Arena.modify, List.getElem?_modify] at hc
  obtain ⟨d, hd, rfl⟩ := Option.map_eq_some_iff.1 hc
  have hk := h k d hd
  split
  · exact ⟨hk.scope, hk.parent, hk.rank, hk.members, hk.value⟩
  · exact hk

/-- Marking two cells: when it is accepted, and what it changes. -/
theorem AllNew.markDistinct {a b : Arena} (h : a.AllNew) {i j : Nat} (hi : i < a.size)
    (hj : j < a.size) (hm : a.markDistinct i j = .ok b) :
    i ≠ j ∧ b.AllNew ∧ b.size = a.size ∧ ∀ k m, m ∈ b.partners k ↔
      m ∈ a.partners k ∨ (k = i ∧ m = j ∨ k = j ∧ m = i) := by
  rw [Arena.markDistinct] at hm
  split at hm
  · cases hm
  · split at hm
    · cases hm
    · rename_i hroot
      rw [h.root, h.root] at hroot
      obtain rfl := Except.ok.inj hm
      have hj' : j < (a.modify i fun c => { c with partners := c.partners.insert j }).size := by
        rwa [size_modify]
      refine ⟨hroot, (h.modify i (·.insert j)).modify j (·.insert i), ?_, fun k m => ?_⟩
      · rw [size_modify, size_modify]
      · rw [mem_partners_modify hj', mem_partners_modify hi, or_assoc]

end Arena

namespace Action

/-- What taking preconditions keeps, and that the pairs stay the marks. -/
structure Takes (a : Action) (arena : Arena) (ls : List Literal) (b : Action) (arena' : Arena) :
    Prop where
  marked : b.Marked arena'
  size : arena'.size = arena.size
  preconditions : ∀ l ∈ b.preconditions.members, l ∈ a.preconditions.members ∨ l ∈ ls
  rest : b.noop = a.noop ∧ b.key = a.key ∧ b.negative = a.negative ∧ b.positive = a.positive

theorem Marked.markPair {a : Action} {arena arena' : Arena} (h : a.Marked arena) {x y : Term}
    (hxy : arena.Spans [x, y]) (hm : markPair arena x y = .ok arena') :
    ({ a with distinct := a.distinct ++ [(x, y)] } : Action).Marked arena' ∧
      arena'.size = arena.size := by
  obtain ⟨i, hi, rfl⟩ := hxy x List.mem_cons_self
  obtain ⟨j, hj, rfl⟩ := hxy y (List.mem_cons_of_mem _ List.mem_cons_self)
  obtain ⟨hij, hnew, hsize, hpartners⟩ := h.allNew.markDistinct hi hj hm
  refine ⟨⟨hnew, fun k m => ?_, fun u v huv => ?_⟩, hsize⟩
  · rw [hpartners, h.mem_partners]
    simp only [List.mem_append, List.mem_singleton, Prod.mk.injEq, Term.cell.injEq]
    grind
  · rcases List.mem_append.1 huv with huv | huv
    · exact h.cells u v huv
    · obtain ⟨rfl, rfl⟩ := Prod.mk.inj (List.mem_singleton.1 huv)
      exact ⟨i, j, rfl, rfl, hij⟩

theorem Marked.insert {a : Action} {arena : Arena} (h : a.Marked arena) (s : LiteralSet) :
    ({ a with preconditions := s } : Action).Marked arena :=
  ⟨h.allNew, h.mem_partners, h.cells⟩

/-- Taking the preconditions one by one. -/
theorem Marked.addPreconditions : ∀ {ls : List Literal} {a : Action} {arena : Arena} {b : Action}
    {arena' : Arena}, a.Marked arena → (∀ l ∈ ls, arena.Spans l.terms) →
      a.addPreconditions arena ls = (.ok b, arena') → a.Takes arena ls b arena'
  | [], a, arena, b, arena', h, _, hrun => by
    rw [Action.addPreconditions] at hrun
    cases hrun
    exact ⟨h, rfl, fun l hl => .inl hl, rfl, rfl, rfl, rfl⟩
  | l :: ls, a, arena, b, arena', h, hls, hrun => by
    have hl := hls l List.mem_cons_self
    have hls' := fun m hm => hls m (List.mem_cons_of_mem l hm)
    rw [Action.addPreconditions] at hrun
    split at hrun
    · split at hrun
      · rename_i x y hterms
        split at hrun
        · rename_i arena₁ hmark
          obtain ⟨hmarked, hsize⟩ := h.markPair (hterms ▸ hl) hmark
          have ih := hmarked.addPreconditions
            (fun m hm => (hls' m hm).mono (Nat.le_of_eq hsize.symm)) hrun
          exact ⟨ih.marked, ih.size.trans hsize,
            fun m hm => (ih.preconditions m hm).imp_right (List.mem_cons_of_mem l), ih.rest⟩
        · cases hrun
      · cases hrun
    · have ih := (h.insert _).addPreconditions hls' hrun
      refine ⟨ih.marked, ih.size, fun m hm => ?_, ih.rest⟩
      rcases ih.preconditions m hm with hm | hm
      · exact (LiteralSet.mem_of_mem_insert hm).imp_right fun h => List.mem_cons.2 (.inl h)
      · exact .inr (List.mem_cons_of_mem l hm)

end Action

/-- Before the preconditions are taken there are no pairs and no marks. -/
theorem Arena.Fresh.marked {arena : Arena} (h : arena.Fresh) (name : String)
    (negative positive : List Literal) :
    Action.Marked
      { name, noop := false, negative := .ofList arena negative,
        positive := .ofList arena positive } arena :=
  ⟨h.allNew, fun i j => by simp [h.partners], fun _ _ hxy => absurd hxy List.not_mem_nil⟩

/-! ### The variables of an action

The free cells of an action are those of its literals that are no constants. The check of the
effects and the list of parameters are both about them. -/

theorem Literal.mem_freeCells {a : Arena} {l : Literal} {i : Nat} :
    i ∈ l.freeCells a ↔ .cell i ∈ l.terms ∧ a.isConstant i = false := by
  rw [Literal.freeCells, List.mem_eraseDups, List.mem_filterMap]
  constructor
  · rintro ⟨t, ht, hi⟩
    cases t with
    | const v => cases hi
    | cell j =>
      by_cases hj : a.isConstant j = true
      · simp [hj] at hi
      · simp only [hj] at hi
        cases hi
        exact ⟨ht, Bool.eq_false_iff.2 hj⟩
  · rintro ⟨ht, hi⟩
    exact ⟨_, ht, by simp [hi]⟩

theorem LiteralSet.mem_freeCells {a : Arena} {s : LiteralSet} {i : Nat} :
    i ∈ s.freeCells a ↔ ∃ l ∈ s.members, .cell i ∈ l.terms ∧ a.isConstant i = false := by
  rw [LiteralSet.freeCells, List.mem_eraseDups, List.mem_flatMap]
  exact exists_congr fun l => and_congr_right fun _ => Literal.mem_freeCells

theorem Action.mem_collectParameters {arena : Arena} {a : Action} {i : Nat} :
    i ∈ a.collectParameters arena ↔
      ∃ l ∈ a.literals, .cell i ∈ l.terms ∧ arena.isConstant i = false := by
  rw [Action.collectParameters, List.mem_eraseDups, List.mem_append, List.mem_append,
    LiteralSet.mem_freeCells, LiteralSet.mem_freeCells, LiteralSet.mem_freeCells, Action.literals]
  simp only [List.mem_append, or_and_right, exists_or]

/-- The check of the effects: a variable of any literal is one of a precondition. -/
theorem Action.exists_of_freeEffect?_eq_none {arena : Arena} {a : Action}
    (h : a.freeEffect? arena = none) {l : Literal} (hl : l ∈ a.literals) {i : Nat}
    (hi : .cell i ∈ l.terms) (hc : arena.isConstant i = false) :
    ∃ m ∈ a.preconditions.members, .cell i ∈ m.terms := by
  rw [Action.freeEffect?, List.find?_eq_none] at h
  by_cases hpre : l ∈ a.preconditions.members
  · exact ⟨l, hpre, hi⟩
  · have heff : l ∈ a.negative.members ++ a.positive.members :=
      List.mem_append.2 ((Action.mem_literals.1 hl).resolve_left hpre)
    have hknown : i ∈ a.preconditions.freeCells arena := by
      by_contra hno
      refine h l heff (List.any_eq_true.2 ⟨i, Literal.mem_freeCells.2 ⟨hi, hc⟩, ?_⟩)
      simpa using hno
    obtain ⟨m, hm, him, -⟩ := LiteralSet.mem_freeCells.1 hknown
    exact ⟨m, hm, him⟩

namespace Action.Marked

variable {a : Action} {arena : Arena}

theorem loose (h : a.Marked arena) : arena.Loose := by
  refine ⟨fun i c hc => ⟨(h.allNew i c hc).parent, (h.allNew i c hc).members⟩, fun i j hj => ?_,
    fun i hi => ?_⟩
  · exact (h.mem_partners j i).2 ((h.mem_partners i j).1 hj).symm
  · have hii : (.cell i, .cell i) ∈ a.distinct := by simpa using (h.mem_partners i i).1 hi
    obtain ⟨j, k, hj, hk, hne⟩ := h.cells _ _ hii
    exact hne ((Term.cell.inj hj).symm.trans (Term.cell.inj hk))

/-- The arena of an action under construction is sound. -/
theorem sound (h : a.Marked arena) : arena.Sound :=
  h.allNew.sound h.loose.marks_symm h.loose.marks_irrefl

end Action.Marked

/-! ### Schemas -/

/-- What building an action does: it takes the preconditions, checks the effects and notes the
parameters. -/
theorem Action.exists_of_build {arena arena' : Arena} {name : String}
    {preconditions negative positive : List Literal} {action : Action}
    (hbuild : build arena name preconditions negative positive = (.ok action, arena')) :
    ∃ a, addPreconditions
        { name, noop := false, negative := .ofList arena negative,
          positive := .ofList arena positive } arena preconditions = (.ok a, arena') ∧
      a.freeEffect? arena' = none ∧
      action = { a with parameters := a.collectParameters arena' } := by
  rw [build] at hbuild
  split at hbuild
  · cases hbuild
  · rename_i a arena₁ hadd
    split at hbuild
    · cases hbuild
    · rename_i hfree
      cases hbuild
      exact ⟨a, hadd, hfree, rfl⟩

/-- A schema that was built from literals over cells as they are made. -/
def Schema.Built (s : Schema) : Prop :=
  ∃ (arena : Arena) (name : String) (preconditions negative positive : List Literal),
    arena.Fresh ∧ (∀ l ∈ preconditions, arena.Spans l.terms) ∧
      (∀ l ∈ negative, arena.Spans l.terms) ∧ (∀ l ∈ positive, arena.Spans l.terms) ∧
      Action.build arena name preconditions negative positive = (.ok s.action, s.arena)

namespace Schema.Built

variable {s : Schema}

/-- The pairs of the action are the marks of its arena. -/
theorem marked (h : s.Built) : s.action.Marked s.arena := by
  obtain ⟨arena, name, pre, neg, pos, ha, hpre, hneg, hpos, hbuild⟩ := h
  obtain ⟨a, hadd, -, haction⟩ := Action.exists_of_build hbuild
  have hmarked := ((ha.marked name neg pos).addPreconditions hpre hadd).marked
  rw [haction]
  exact ⟨hmarked.allNew, hmarked.mem_partners, hmarked.cells⟩

/-- **A schema that was built from read literals is regular.** -/
theorem regular (h : s.Built) : s.Regular := by
  have hmarked := h.marked
  obtain ⟨arena, name, pre, neg, pos, ha, hpre, hneg, hpos, hbuild⟩ := h
  obtain ⟨a, hadd, hfree, haction⟩ := Action.exists_of_build hbuild
  obtain ⟨-, hsize, hmem, hnoop, hkey, hnegative, hpositive⟩ :=
    (ha.marked name neg pos).addPreconditions hpre hadd
  refine
    { loose := hmarked.loose
      isSome_value? := hmarked.allNew.isSome_value?
      holds := fun l hl => ?_
      mem_partners := hmarked.mem_partners
      cells := fun x y hxy => ?_
      bound := fun l hl i hi hc => ?_
      parameters := fun i hi => ?_
      noop := by rw [haction]; exact hnoop
      key := by rw [haction]; exact hkey }
  · have hspans : arena.Spans l.terms := by
      rw [haction] at hl
      rcases Action.mem_literals.1 hl with hl | hl | hl
      · exact hpre l ((hmem l hl).resolve_left List.not_mem_nil)
      · exact hneg l (LiteralSet.mem_of_mem_ofList (hnegative ▸ hl))
      · exact hpos l (LiteralSet.mem_of_mem_ofList (hpositive ▸ hl))
    exact (hspans.mono (Nat.le_of_eq hsize.symm)).holds
  · obtain ⟨i, j, hx, hy, -⟩ := hmarked.cells x y hxy
    exact ⟨i, j, hx, hy⟩
  · rw [haction] at hl ⊢
    exact Action.exists_of_freeEffect?_eq_none hfree hl hi hc
  · rw [haction] at hi ⊢
    obtain ⟨l, hl, hil, -⟩ := Action.mem_collectParameters.1 hi
    exact ⟨l, hl, hil⟩

end Schema.Built

/-! ### Statements and problems -/

namespace Reading

theorem ensures_schema (name : String) (position : Position) :
    Ensures (schema name position) Schema.Built := by
  refine .bind_any fun _ => .bind_any fun cursor => ?_
  refine (ensures_listUntil (fun h hab => h.mono hab) .arrow
    (fun name v hv => ensures_literal name hv) _ Vocabulary.sound_empty
    fun x hx => absurd hx List.not_mem_nil).bind fun pre hpre => ?_
  refine (ensures_listUntil (fun h hab => h.mono hab) .dot (fun name v hv => ensures_effect name hv)
    _ hpre.1.sound fun x hx => absurd hx List.not_mem_nil).bind fun eff heff => ?_
  have heffect : ∀ (c : Bool × Literal → Bool), ∀ l ∈ (eff.1.filter c).map Prod.snd,
      eff.2.arena.Spans l.terms := by
    intro c l hl
    obtain ⟨e, he, rfl⟩ := List.mem_map.1 hl
    exact heff.2 e (List.mem_filter.1 he).1
  rcases hbuild : Action.build eff.2.arena name pre.1 ((eff.1.filter (·.1)).map Prod.snd)
    ((eff.1.filter (!·.1)).map Prod.snd) with ⟨e | action, arena⟩
  · simp only [hbuild]
    exact .throw _ _
  · simp only [hbuild]
    exact .pure ⟨_, _, _, _, _, heff.1.sound.fresh,
      fun l hl => (hpre.2 l hl).mono heff.1.size_le, heffect _, heffect _, hbuild⟩

/-- The schema of a statement, if it is one, was built from read literals. -/
theorem ensures_statement :
    Ensures statement fun s => ∀ t : Schema, s = some (.schema t) → t.Built := by
  have hfact : ∀ (isGoal : Bool) (f : Fact) (t : Schema),
      some (if isGoal then Statement.goal f else .fact f) = some (.schema t) → t.Built := by
    intro isGoal f t h
    cases isGoal <;> cases h
  rw [statement]
  refine .bind_any fun first => ?_
  split
  · refine .bind_any fun cursor => ?_
    -- the rest of the statement, after the keyword
    extract_lets isGoal rest
    have hrest : ∀ u isGoal, Ensures (rest u isGoal)
        fun s => ∀ t : Schema, s = some (.schema t) → t.Built := by
      intro u isGoal
      refine .bind_any fun r => .bind_any fun following => ?_
      split
      · split
        · refine .bind_any fun cursor => ?_
          have hschema : ∀ u : Unit, Ensures (do
              setGoalMode false
              let s ← schema r.2 r.1.position
              return some (Statement.schema s))
              fun s => ∀ t : Schema, s = some (.schema t) → t.Built := by
            intro u
            refine .bind_any fun _ => (ensures_schema _ _).bind fun s hs => .pure fun t ht => ?_
            cases ht
            exact hs
          split
          · exact .bind_any hschema
          · exact hschema ()
        · exact .bind_any fun f => .pure (hfact isGoal f)
        · exact .bind_any fun f => .pure (hfact isGoal f)
        · exact .throw _ _
      · exact .bind_any fun _ => .throw _ _
    split
    · exact .bind_any fun _ => hrest () true
    · split
      · exact .bind_any fun _ => .bind_any fun _ => hrest () true
      · exact hrest () isGoal
  · exact .pure fun schema h => by cases h

end Reading

namespace Problem

/-- Reading statements adds schemas that were built from read literals. -/
theorem built_of_read : ∀ {fuel : Nat} {cursor : Cursor} {p q : Problem},
    read fuel cursor p = .ok q → (∀ s ∈ p.schemas, s.Built) → ∀ s ∈ q.schemas, s.Built
  | 0, cursor, p, q, h, hp => by
    rw [read] at h
    exact Except.ok.inj h ▸ hp
  | fuel + 1, cursor, p, q, h, hp => by
    rw [read] at h
    split at h
    · cases h
    · exact Except.ok.inj h ▸ hp
    · rename_i statement rest hnext
      refine built_of_read h fun s hs => ?_
      cases statement with
      | fact f => exact hp s hs
      | goal f => exact hp s hs
      | schema t =>
        rcases List.mem_append.1 hs with hs | hs
        · exact hp s hs
        · rw [List.mem_singleton.1 hs]
          exact Reading.ensures_statement cursor _ rest hnext t rfl

/-- All schemas of a problem text were built from read literals. -/
theorem built_of_parse {text : String} {p : Problem} (h : parse text = .ok p) :
    ∀ s ∈ p.schemas, s.Built := by
  rw [parse] at h
  split at h
  · cases h
  · exact built_of_read h fun s hs => absurd hs List.not_mem_nil

/-- **All schemas of a problem text are regular.** -/
theorem regular_of_parse {text : String} {p : Problem} (h : parse text = .ok p) :
    ∀ s ∈ p.schemas, s.Regular := fun s hs => (built_of_parse h s hs).regular

end Problem

end Strips
