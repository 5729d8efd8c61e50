import Strips.Proofs.Grammar
import Strips.Proofs.Reading

/-!
# Readers and the grammar

Every reader takes exactly the spelling of something written, and returns what this comes to over
the vocabulary so far. The lists of a statement are all read by one loop, so they are all done by
one lemma about it: a reader for items gives a reader for lists of items.

Whether a name has arguments is decided by the next token. So a literal without parentheses is read
as one only if no parenthesis follows, which nothing after a literal is.

## Main definitions

* `Reading.Gives` – a reader succeeds with a result, and leaves the cursor somewhere.
* `Cursor.Takes` – the tokens up to another cursor, as they are spelled.
* `Reading.Reads` – a reader for the rest of an item, after the identifier at its start.

## Main results

* `Reading.Loops.gives_iff` – a list of items.
* `Reading.reads_argument`, `reads_literal`, `reads_effect` – the items there are.
* `Reading.gives_schema_iff`, `gives_fact_iff`, `gives_statement_iff` – statements.

## What is read where

    argument   name
    literal    name [arguments]
    effect     [not] literal
    fact       [goal | goals] literal .
    action     [goals] name :: literals => effects .

The loop over a list takes a token before it knows whether the list goes on. So a reader for items
is called when the name of an item has been taken already, and `Reads` speaks of the rest of it. The
same holds of facts and actions: their name and the token after it are needed to tell one from the
other.

What an item comes to depends on the variables that were met before. Readers hand a vocabulary on
from item to item, and what is written is elaborated in the same order (`Vocabulary.each`), so both
end with the same cells.

## Implementation notes

`Gives` is about success only. An error is never what the grammar allows, so a branch that ends in
one is simply ruled out, and no lemma here says which error it is.

There is one equivalence for each way in which readers are put together. A proof about a reader
opens its definition once and then goes from one `bind` to the next by these equivalences. Both
directions are needed: what was read is in the grammar, and what is in the grammar is read.

The loops over lists have fuel. Each turn takes a token, so fuel for the tokens that are left is
enough, and `Loops.gives_iff` is the last statement in which fuel occurs.

Whether a fact is a goal depends on the statements before it. That is a switch of the cursor, which
is turned on by `goals` and turned off by an action, in both cases in the middle of a statement.
The tokens that are taken do not depend on the switch (`Takes.inMode`, `Takes.of_inMode`), so the
two are looked at apart, and what a statement leaves the switch at is read off its form.
-/

namespace Strips

/-! ### Runs of readers

A reader ends with a result or an error, and leaves the cursor where it stopped in both cases. What
follows says for each of the smallest readers when it succeeds, and for two readers in a row when
both do. -/

namespace Cursor

/-- The cursor where it is, with another say about the facts that follow. -/
def inMode (c : Cursor) (goalMode : Bool) : Cursor := { c with goalMode }

@[simp] theorem inMode_goalMode (c : Cursor) : c.inMode c.goalMode = c := rfl

/-- The cursor after the next token. -/
def after (c : Cursor) (rest : List Token) : Cursor := { c with rest, taken := c.taken + 1 }

end Cursor

namespace Reading

variable {α β : Type} {c c' c'' : Cursor}

/-- What comes of a reader at a cursor. -/
def outcome (r : Reading α) (c : Cursor) : Except SyntaxError α × Cursor := r.run.run c

/-- The reader succeeds with a result, and leaves the cursor somewhere. -/
def Gives (r : Reading α) (c : Cursor) (x : α) (c' : Cursor) : Prop := r.outcome c = (.ok x, c')

/-- Readers one after the other: the second starts where the first stops, with its result. -/
theorem gives_bind_iff {r : Reading α} {f : α → Reading β} {y : β} :
    Gives (r >>= f) c y c'' ↔ ∃ x c', Gives r c x c' ∧ Gives (f x) c' y c'' := by
  rcases hr : r.outcome c with ⟨e | x, c'⟩
  · have hbind : (r >>= f).outcome c = (.error e, c') := by
      rw [outcome] at hr ⊢
      rw [run_bind, hr]
    simp [Gives, hbind, hr]
  · have hbind : (r >>= f).outcome c = (f x).outcome c' := by
      rw [outcome] at hr ⊢
      rw [run_bind, hr]
      rfl
    simp [Gives, hbind, hr]

/-- A result that is there already takes no token. -/
theorem gives_pure_iff {x y : α} : Gives (pure x) c y c' ↔ y = x ∧ c' = c := by
  change (Except.ok x, c) = (Except.ok y, c') ↔ _
  rw [Prod.mk.injEq, Except.ok.injEq, eq_comm, @eq_comm _ c]

/-! An error is no result, wherever it comes from. -/
@[simp] theorem not_gives_throw {e : SyntaxError} {x : α} : ¬Gives (throw e) c x c' := nofun

@[simp] theorem not_gives_unexpected {t : Token} {e : Expectation} {x : α} :
    ¬Gives (unexpected t e) c x c' := nofun

@[simp] theorem not_gives_endOfInput {x : α} : ¬Gives endOfInput c x c' := nofun

/-! To look at the cursor or at the next token takes nothing. So a look can be put in for the reader
that looks, and no cursor between is left over. -/
theorem gives_get_iff {x : Cursor} : Gives get c x c' ↔ x = c ∧ c' = c := gives_pure_iff

theorem gives_peek_iff {x : Option Token} :
    Gives peek c x c' ↔ x = c.rest.head? ∧ c' = c := gives_pure_iff

theorem gives_get_bind_iff {f : Cursor → Reading β} {y : β} :
    Gives (get >>= f) c y c' ↔ Gives (f c) c y c' := by
  rw [gives_bind_iff]
  simp only [gives_get_iff, and_assoc, exists_and_left, exists_eq_left]

theorem gives_peek_bind_iff {f : Option Token → Reading β} {y : β} :
    Gives (peek >>= f) c y c' ↔ Gives (f c.rest.head?) c y c' := by
  rw [gives_bind_iff]
  simp only [gives_peek_iff, and_assoc, exists_and_left, exists_eq_left]

/-- The switch is turned, and nothing is taken. -/
theorem gives_setGoalMode_iff {mode : Bool} {x : Unit} :
    Gives (setGoalMode mode) c x c' ↔ c' = c.inMode mode := by
  change (Except.ok (), c.inMode mode) = (Except.ok x, c') ↔ _
  simp [eq_comm]

end Reading

/-- The next token is taken, if there is one. -/
theorem Reading.outcome_next (c : Cursor) :
    next.outcome c =
      match c.rest with
      | [] => (.error (.endOfInput c.last), c)
      | t :: rest => (.ok t, c.after rest) := by
  obtain ⟨rest, taken, goalMode, last⟩ := c
  cases rest <;> rfl

theorem Reading.gives_next_iff {c c' : Cursor} {t : Token} :
    Gives next c t c' ↔ ∃ rest, c.rest = t :: rest ∧ c' = c.after rest := by
  rw [Gives, outcome_next]
  cases c.rest with
  | nil => simp
  | cons u rest => simp [eq_comm]

/-- An identifier is a token with a name. -/
theorem Reading.gives_identifier_iff {c c' : Cursor} {e : Expectation} {r : Token × String} :
    Gives (identifier e) c r c' ↔ Gives next c r.1 c' ∧ r.1.lexeme = .identifier r.2 := by
  rw [identifier, gives_bind_iff]
  constructor
  · rintro ⟨t, c₁, ht, h⟩
    split at h
    · obtain ⟨rfl, rfl⟩ := gives_pure_iff.1 h
      exact ⟨ht, by assumption⟩
    · exact absurd h not_gives_unexpected
  · rintro ⟨ht, hname⟩
    refine ⟨r.1, c', ht, ?_⟩
    rw [hname]
    exact gives_pure_iff.2 ⟨rfl, rfl⟩

/-- A mark is a token of its kind. -/
theorem Reading.gives_mark_iff {c c' : Cursor} {l : Lexeme} {e : Expectation} {x : Unit} :
    Gives (mark l e) c x c' ↔ ∃ t, Gives next c t c' ∧ t.lexeme = l := by
  rw [mark, gives_bind_iff]
  constructor
  · rintro ⟨t, c₁, ht, h⟩
    split at h
    · obtain ⟨-, rfl⟩ := gives_pure_iff.1 h
      exact ⟨t, ht, by assumption⟩
    · exact absurd h not_gives_unexpected
  · rintro ⟨t, ht, hl⟩
    refine ⟨t, c', ht, ?_⟩
    rw [if_pos hl]
    exact gives_pure_iff.2 ⟨rfl, rfl⟩

/-! ### Tokens that are taken

The grammar speaks of lexemes, and readers of tokens, which have positions besides. `Takes` is
stated token by token, as readers go on. That the lexemes stand at the front of what is left would
say less, since a cursor also counts the tokens that it has passed. -/

namespace Cursor

/-- The next tokens spell the lexemes, and after them comes the other cursor. -/
def Takes (c : Cursor) : List Lexeme → Cursor → Prop
  | [], c' => c' = c
  | l :: ls, c'' => ∃ t c', Reading.Gives Reading.next c t c' ∧ t.lexeme = l ∧ c'.Takes ls c''

/-- No parenthesis opens next. -/
def Closed (c : Cursor) : Prop := ∀ t ∈ c.rest.head?, t.lexeme ≠ .leftParen

variable {c c' c'' : Cursor} {l : Lexeme} {ls ms : List Lexeme}

theorem takes_nil_iff : c.Takes [] c' ↔ c' = c := Iff.rfl

theorem takes_cons_iff : c.Takes (l :: ls) c'' ↔
    ∃ t c', Reading.Gives Reading.next c t c' ∧ t.lexeme = l ∧ c'.Takes ls c'' := Iff.rfl

/-- One token is taken by `next`. -/
theorem takes_singleton_iff :
    c.Takes [l] c' ↔ ∃ t, Reading.Gives Reading.next c t c' ∧ t.lexeme = l := by
  rw [takes_cons_iff]
  constructor
  · rintro ⟨t, c₁, ht, hl, rfl⟩
    exact ⟨t, ht, hl⟩
  · rintro ⟨t, ht, hl⟩
    exact ⟨t, c', ht, hl, rfl⟩

/-- Tokens are taken in two parts wherever the spelling is divided. -/
theorem takes_append_iff : ∀ {ls : List Lexeme} {c : Cursor},
    c.Takes (ls ++ ms) c'' ↔ ∃ c', c.Takes ls c' ∧ c'.Takes ms c''
  | [], c => by simp [takes_nil_iff]
  | l :: ls, c => by
    rw [List.cons_append, takes_cons_iff]
    constructor
    · rintro ⟨t, c₁, ht, hl, hrest⟩
      obtain ⟨c₂, hls, hms⟩ := takes_append_iff.1 hrest
      exact ⟨c₂, ⟨t, c₁, ht, hl, hls⟩, hms⟩
    · rintro ⟨c₂, ⟨t, c₁, ht, hl, hls⟩, hms⟩
      exact ⟨t, c₁, ht, hl, takes_append_iff.2 ⟨c₂, hls, hms⟩⟩

theorem Takes.append (h : c.Takes ls c') (h' : c'.Takes ms c'') : c.Takes (ls ++ ms) c'' :=
  takes_append_iff.2 ⟨c', h, h'⟩

/-- What is spelled stood before what is left. -/
theorem Takes.rest : ∀ {ls : List Lexeme} {c : Cursor}, c.Takes ls c' →
    c.rest.map (·.lexeme) = ls ++ c'.rest.map (·.lexeme)
  | [], c, h => by rw [takes_nil_iff.1 h, List.nil_append]
  | l :: ls, c, ⟨t, c₁, ht, hl, hls⟩ => by
    obtain ⟨rest, hrest, rfl⟩ := Reading.gives_next_iff.1 ht
    rw [hrest, List.map_cons, hl, List.cons_append, ← hls.rest]
    rfl

/-- Tokens alone do not turn the switch. -/
theorem Takes.goalMode : ∀ {ls : List Lexeme} {c : Cursor}, c.Takes ls c' →
    c'.goalMode = c.goalMode
  | [], c, h => by rw [takes_nil_iff.1 h]
  | l :: ls, c, ⟨t, c₁, ht, hl, hls⟩ => by
    obtain ⟨rest, hrest, rfl⟩ := Reading.gives_next_iff.1 ht
    exact hls.goalMode

/-- They are taken wherever the switch stands. -/
theorem Takes.inMode (mode : Bool) : ∀ {ls : List Lexeme} {c : Cursor}, c.Takes ls c' →
    (c.inMode mode).Takes ls (c'.inMode mode)
  | [], c, h => by rw [takes_nil_iff.1 h]; exact rfl
  | l :: ls, c, ⟨t, c₁, ht, hl, hls⟩ => by
    obtain ⟨rest, hrest, rfl⟩ := Reading.gives_next_iff.1 ht
    exact ⟨t, _, Reading.gives_next_iff.2 ⟨rest, hrest, rfl⟩, hl, hls.inMode mode⟩

/-- What is taken does not depend on whether facts are goals. -/
theorem Takes.of_inMode {mode : Bool} (h : (c.inMode mode).Takes ls c') :
    ∃ c₁, c' = c₁.inMode mode ∧ c.Takes ls c₁ := by
  have hmode : c'.goalMode = mode := h.goalMode
  refine ⟨c'.inMode c.goalMode, ?_, h.inMode c.goalMode⟩
  rw [← hmode]
  rfl

/-- What the tokens spell can be taken. -/
theorem exists_takes : ∀ {ls : List Lexeme} {c : Cursor},
    c.rest.map (·.lexeme) = ls ++ ms → ∃ c', c.Takes ls c'
  | [], c, _ => ⟨c, rfl⟩
  | l :: ls, c, h => by
    obtain ⟨t, rest, hrest, hl, htail⟩ := List.map_eq_cons_iff.1 h
    obtain ⟨c', hls⟩ := exists_takes (c := c.after rest) htail
    exact ⟨c', t, c.after rest, Reading.gives_next_iff.2 ⟨rest, hrest, rfl⟩, hl, hls⟩

/-- The first lexeme is that of the next token. -/
theorem Takes.head? (h : c.Takes (l :: ls) c') : ∃ t, c.rest.head? = some t ∧ t.lexeme = l := by
  obtain ⟨t, c₁, ht, hl, -⟩ := h
  obtain ⟨rest, hrest, -⟩ := Reading.gives_next_iff.1 ht
  exact ⟨t, by rw [hrest]; rfl, hl⟩

/-- So no parenthesis opens before what is spelled otherwise. -/
theorem Takes.closed (h : c.Takes (l :: ls) c') (hl : l ≠ .leftParen) : c.Closed := by
  obtain ⟨t, ht, rfl⟩ := h.head?
  intro u hu
  rw [ht] at hu
  cases hu
  exact hl

end Cursor

/-! ### Lists

Items are parted by commas, but the loops over them know only whether they are in their first turn.
So besides `Lexeme.parted` there is the form of a list from its middle on, in which every item has a
comma before it, and the loops are described by both forms at once. -/

namespace Lexeme

/-- Items with a comma before each. -/
def following (items : List (List Lexeme)) : List Lexeme := items.flatMap (.comma :: ·)

/-- How items are spelled that begin a list, or come after others. -/
def more (first : Bool) (items : List (List Lexeme)) : List Lexeme :=
  if first then parted items else following items

@[simp] theorem more_nil (first : Bool) : more first [] = [] := by
  cases first <;> simp [more, parted, following]

/-- All items but the first have a comma before them. -/
theorem parted_cons (i : List Lexeme) : ∀ items : List (List Lexeme),
    parted (i :: items) = i ++ following items
  | [] => by simp [parted, following]
  | j :: items => by
    have ih := parted_cons j items
    rw [parted] at ih ⊢
    rw [List.intercalate_cons_cons, ih, following, following, List.flatMap_cons]
    simp

/-- The two forms of a list differ in its first item only. -/
theorem more_cons (first : Bool) (i : List Lexeme) (items : List (List Lexeme)) :
    more first (i :: items) = (if first then [] else [.comma]) ++ (i ++ more false items) := by
  cases first <;> simp [more, parted_cons, following]

/-- There is a comma for every item that follows. -/
theorem length_le_following : ∀ items : List (List Lexeme), items.length ≤ (following items).length
  | [] => Nat.le_refl 0
  | i :: items => by
    have ih := length_le_following items
    simp only [following, List.flatMap_cons, List.length_append, List.length_cons] at ih ⊢
    omega

/-- There is a comma for every item but one. -/
theorem length_le_parted : ∀ items : List (List Lexeme),
    items.length ≤ (parted items).length + 1
  | [] => Nat.zero_le _
  | i :: items => by
    have hle := length_le_following items
    rw [parted_cons, List.length_cons, List.length_append]
    omega

end Lexeme

/-- What items come to, one after the other. -/
def Vocabulary.each {W β : Type} (elaborate : Vocabulary → W → β × Vocabulary) :
    Vocabulary → List W → List β × Vocabulary
  | v, [] => ([], v)
  | v, w :: ws =>
    ((elaborate v w).1 :: (each elaborate (elaborate v w).2 ws).1,
      (each elaborate (elaborate v w).2 ws).2)

namespace Reading

variable {β W : Type} {c c' : Cursor}

/-- A reader for the rest of an item takes what is spelled after the identifier at its start, and
returns what the item comes to. It need not do so before an opening parenthesis. -/
structure Reads (item : String → Vocabulary → Reading (β × Vocabulary))
    (lexemes : W → List Lexeme) (valid : W → Prop)
    (elaborate : Vocabulary → W → β × Vocabulary) : Prop where
  /-- What is taken is spelled like an item, and what is returned is what this comes to. -/
  sound : ∀ {name v c r c'}, Gives (item name v) c r c' →
    ∃ w ls, valid w ∧ lexemes w = .identifier name :: ls ∧ c.Takes ls c' ∧ r = elaborate v w
  /-- What is spelled like an item is taken. -/
  complete : ∀ {w : W}, valid w → ∃ name ls, lexemes w = .identifier name :: ls ∧
    ∀ {v c c'}, c.Takes ls c' → c'.Closed → Gives (item name v) c (elaborate v w) c'

/-- Go on with an identifier only. -/
def nameOf {α : Type} (t : Token) (expected : Expectation) (f : String → Reading α) : Reading α :=
  match t.lexeme with
  | .identifier name => f name
  | _ => unexpected t expected

/-- Only an identifier is gone on with. -/
theorem gives_nameOf_iff {α : Type} {t : Token} {e : Expectation} {f : String → Reading α} {x : α} :
    Gives (nameOf t e f) c x c' ↔ ∃ name, t.lexeme = .identifier name ∧ Gives (f name) c x c' := by
  rw [nameOf]
  cases t.lexeme <;> simp

/-- One turn of the loop over a list: it ends, or goes on with an item. The first item has no comma
before it. -/
def turn {α : Type} (terminator : Lexeme) (noComma noItem : Expectation) (first : Bool)
    (stop : Reading α) (f : String → Reading α) : Reading α := do
  let token ← next
  if token.lexeme = terminator then stop
  else if first then nameOf token noItem f
  else if token.lexeme = .comma then
    let token ← next
    nameOf token noItem f
  else unexpected token noComma

/-- **A turn** takes the mark that ends the list, or an identifier with a comma before it unless it
is the first. The mark that ends the list must not be taken for either of these. -/
theorem gives_turn_iff {α : Type} {terminator : Lexeme} (hcomma : terminator ≠ .comma)
    (hname : ∀ x, terminator ≠ .identifier x) {noComma noItem : Expectation} {first : Bool}
    {stop : Reading α} {f : String → Reading α} {x : α} :
    Gives (turn terminator noComma noItem first stop f) c x c' ↔
      (∃ c₁, c.Takes [terminator] c₁ ∧ Gives stop c₁ x c') ∨
      ∃ name c₁, c.Takes ((if first then [] else [.comma]) ++ [.identifier name]) c₁ ∧
        Gives (f name) c₁ x c' := by
  rw [turn, gives_bind_iff]
  constructor
  · rintro ⟨t, c₁, ht, h⟩
    split at h
    · rename_i hend
      exact .inl ⟨c₁, Cursor.takes_singleton_iff.2 ⟨t, ht, hend⟩, h⟩
    · right
      cases first with
      | true =>
        rw [if_pos rfl] at h
        obtain ⟨name, hl, h⟩ := gives_nameOf_iff.1 h
        exact ⟨name, c₁, Cursor.takes_singleton_iff.2 ⟨t, ht, hl⟩, h⟩
      | false =>
        rw [if_neg Bool.false_ne_true] at h
        split at h
        · rename_i hsep
          obtain ⟨u, c₂, hu, h⟩ := gives_bind_iff.1 h
          obtain ⟨name, hl, h⟩ := gives_nameOf_iff.1 h
          exact ⟨name, c₂, ⟨t, c₁, ht, hsep, u, c₂, hu, hl, rfl⟩, h⟩
        · exact absurd h not_gives_unexpected
  · rintro (⟨c₁, hend, h⟩ | ⟨name, c₁, htakes, h⟩)
    · obtain ⟨t, ht, hl⟩ := Cursor.takes_singleton_iff.1 hend
      exact ⟨t, c₁, ht, by rwa [if_pos hl]⟩
    · cases first with
      | true =>
        obtain ⟨t, ht, hl⟩ := Cursor.takes_singleton_iff.1 htakes
        refine ⟨t, c₁, ht, ?_⟩
        rw [if_neg fun heq => hname name (heq.symm.trans hl), if_pos rfl]
        exact gives_nameOf_iff.2 ⟨name, hl, h⟩
      | false =>
        obtain ⟨t, c₂, ht, hsep, htakes⟩ := htakes
        obtain ⟨u, hu, hl⟩ := Cursor.takes_singleton_iff.1 htakes
        refine ⟨t, c₂, ht, ?_⟩
        rw [if_neg fun heq => hcomma (heq.symm.trans hsep), if_neg Bool.false_ne_true, if_pos hsep]
        exact gives_bind_iff.2 ⟨u, c₁, hu, gives_nameOf_iff.2 ⟨name, hl, h⟩⟩

/-- A loop over a list, each turn of which reads the rest of one item. -/
structure Loops (terminator : Lexeme) (item : String → Vocabulary → Reading (β × Vocabulary))
    (loop : Nat → List β → Vocabulary → Reading (List β × Vocabulary)) : Prop where
  /-- The mark that ends the list is no comma, … -/
  comma : terminator ≠ .comma
  /-- … no item starts with it, … -/
  identifier : ∀ x, terminator ≠ .identifier x
  /-- … and it does not make a literal before it one with arguments. -/
  leftParen : terminator ≠ .leftParen
  /-- Without fuel there is an error. -/
  zero : ∀ items v, loop 0 items v = endOfInput
  /-- With fuel there is one turn, after which the loop goes on. Only the errors differ between
  arguments and other items. -/
  succ : ∃ noComma noItem, ∀ fuel items v, loop (fuel + 1) items v =
    turn terminator noComma noItem items.isEmpty (pure (items, v)) fun name =>
      item name v >>= fun r => loop fuel (items ++ [r.1]) r.2

/-- The loop over literals or effects. -/
theorem loops_listUntil (terminator : Lexeme) (hcomma : terminator ≠ .comma)
    (hidentifier : ∀ x, terminator ≠ .identifier x) (hleft : terminator ≠ .leftParen)
    (item : String → Vocabulary → Reading (β × Vocabulary)) :
    Loops terminator item (listUntil terminator item) := by
  refine ⟨hcomma, hidentifier, hleft, fun _ _ => rfl, .literalEnd terminator, .literal,
    fun fuel items v => ?_⟩
  cases hempty : items.isEmpty <;> rw [listUntil, hempty] <;> rfl

/-- The arguments of a literal are such a list, too. -/
theorem loops_arguments : Loops .rightParen (fun x v => pure (v.term x)) arguments := by
  refine ⟨nofun, nofun, nofun, fun _ _ => rfl, .argumentEnd, .argument, fun fuel terms v => ?_⟩
  cases hempty : terms.isEmpty <;> rw [arguments, hempty] <;> rfl

section Loops

variable {terminator : Lexeme} {item : String → Vocabulary → Reading (β × Vocabulary)}
  {loop : Nat → List β → Vocabulary → Reading (List β × Vocabulary)}
  (hloop : Loops terminator item loop) {lexemes : W → List Lexeme} {valid : W → Prop}
  {elaborate : Vocabulary → W → β × Vocabulary} (hitem : Reads item lexemes valid elaborate)

include hloop

/-- One turn: the list ends, or there is another item. -/
theorem Loops.gives_succ_iff {fuel : Nat} {items : List β} {v : Vocabulary}
    {r : List β × Vocabulary} :
    Gives (loop (fuel + 1) items v) c r c' ↔
      c.Takes [terminator] c' ∧ r = (items, v) ∨
      ∃ name c₁, c.Takes ((if items.isEmpty then [] else [.comma]) ++ [.identifier name]) c₁ ∧
        ∃ s c₂, Gives (item name v) c₁ s c₂ ∧ Gives (loop fuel (items ++ [s.1]) s.2) c₂ r c' := by
  obtain ⟨noComma, noItem, hsucc⟩ := hloop.succ
  rw [hsucc, gives_turn_iff hloop.comma hloop.identifier]
  simp only [gives_pure_iff, gives_bind_iff]
  refine or_congr_left ⟨?_, ?_⟩
  · rintro ⟨c₁, htakes, rfl, rfl⟩
    exact ⟨htakes, rfl⟩
  · rintro ⟨htakes, rfl⟩
    exact ⟨c', htakes, rfl, rfl⟩

include hitem

/-- What a loop takes is a list of items and the mark that ends it. -/
theorem Loops.sound : ∀ {fuel : Nat} {items : List β} {v : Vocabulary} {c : Cursor}
    {r : List β × Vocabulary}, Gives (loop fuel items v) c r c' →
      ∃ ws : List W, (∀ w ∈ ws, valid w) ∧
        c.Takes (Lexeme.more items.isEmpty (ws.map lexemes) ++ [terminator]) c' ∧
        r = (items ++ (v.each elaborate ws).1, (v.each elaborate ws).2)
  | 0, items, v, c, r, h => by
    rw [hloop.zero] at h
    exact absurd h not_gives_endOfInput
  | fuel + 1, items, v, c, r, h => by
    rcases hloop.gives_succ_iff.1 h with ⟨hend, rfl⟩ | ⟨name, c₁, hname, s, c₂, hs, hrest⟩
    · refine ⟨[], fun w hw => absurd hw List.not_mem_nil, ?_, by simp [Vocabulary.each]⟩
      rw [List.map_nil, Lexeme.more_nil, List.nil_append]
      exact hend
    · obtain ⟨w, ls, hw, hls, htakes, rfl⟩ := hitem.sound hs
      obtain ⟨ws, hws, hmore, rfl⟩ := Loops.sound hrest
      refine ⟨w :: ws, List.forall_mem_cons.2 ⟨hw, hws⟩, ?_, ?_⟩
      · have hfalse : (items ++ [(elaborate v w).1]).isEmpty = false := by simp
        rw [hfalse] at hmore
        have hall := hname.append (htakes.append hmore)
        rw [List.map_cons, Lexeme.more_cons, hls]
        simpa using hall
      · simp [Vocabulary.each]

/-- A loop takes every list of items, if it has enough turns. -/
theorem Loops.complete : ∀ {ws : List W} {fuel : Nat} {items : List β} {v : Vocabulary}
    {c : Cursor},
    ws.length < fuel → (∀ w ∈ ws, valid w) →
      c.Takes (Lexeme.more items.isEmpty (ws.map lexemes) ++ [terminator]) c' →
      Gives (loop fuel items v) c (items ++ (v.each elaborate ws).1, (v.each elaborate ws).2) c'
  | [], fuel + 1, items, v, c, _, _, htakes => by
    rw [List.map_nil, Lexeme.more_nil, List.nil_append] at htakes
    exact hloop.gives_succ_iff.2 (.inl ⟨htakes, by simp [Vocabulary.each]⟩)
  | w :: ws, fuel + 1, items, v, c, hfuel, hws, htakes => by
    obtain ⟨hw, hws⟩ := List.forall_mem_cons.1 hws
    obtain ⟨name, ls, hls, hreads⟩ := hitem.complete hw
    have hsplit : Lexeme.more items.isEmpty ((w :: ws).map lexemes) ++ [terminator] =
        ((if items.isEmpty then [] else [.comma]) ++ [.identifier name]) ++
          (ls ++ (Lexeme.more false (ws.map lexemes) ++ [terminator])) := by
      rw [List.map_cons, Lexeme.more_cons, hls]
      simp
    rw [hsplit] at htakes
    obtain ⟨c₁, hname, htakes⟩ := Cursor.takes_append_iff.1 htakes
    obtain ⟨c₂, htail, hmore⟩ := Cursor.takes_append_iff.1 htakes
    -- after an item comes a comma or the mark that ends the list, so no parenthesis opens there
    have hclosed : c₂.Closed := by
      cases ws with
      | nil => exact Cursor.Takes.closed hmore hloop.leftParen
      | cons w' ws => exact Cursor.Takes.closed hmore nofun
    have hfalse : (items ++ [(elaborate v w).1]).isEmpty = false := by simp
    rw [← hfalse] at hmore
    have hrest := Loops.complete (v := (elaborate v w).2) (Nat.lt_of_succ_lt_succ hfuel) hws hmore
    refine hloop.gives_succ_iff.2
      (.inr ⟨name, c₁, hname, elaborate v w, c₂, hreads htail hclosed, ?_⟩)
    simpa [Vocabulary.each] using hrest

/-- **A loop** that may take as many turns as there are tokens takes the lists of items. -/
theorem Loops.gives_iff {fuel : Nat} {v : Vocabulary} {r : List β × Vocabulary}
    (hfuel : c.rest.length < fuel) :
    Gives (loop fuel [] v) c r c' ↔
      ∃ ws : List W, (∀ w ∈ ws, valid w) ∧
        c.Takes (Lexeme.parted (ws.map lexemes) ++ [terminator]) c' ∧ r = v.each elaborate ws := by
  constructor
  · intro h
    obtain ⟨ws, hws, htakes, rfl⟩ := hloop.sound hitem h
    exact ⟨ws, hws, htakes, by simp⟩
  · rintro ⟨ws, hws, htakes, rfl⟩
    have hmore : c.Takes (Lexeme.more ([] : List β).isEmpty (ws.map lexemes) ++ [terminator]) c' :=
      htakes
    refine hloop.complete hitem ?_ hws hmore
    have hrest := congrArg List.length htakes.rest
    have hle := Lexeme.length_le_parted (ws.map lexemes)
    simp only [List.length_append, List.length_map, List.length_singleton] at hrest hle
    omega

end Loops

/-! ### Literals and effects

Arguments, literals and effects are the items of the lists. Arguments are a list inside of a
literal, so the lemma about loops is used for them before there are literals. -/

/-- An argument is one identifier, which becomes a term. -/
theorem reads_argument :
    Reads (fun x v => pure (v.term x)) (fun x => [.identifier x]) (fun _ => True)
      Vocabulary.term where
  sound {name v c r c'} h := by
    obtain ⟨rfl, rfl⟩ := gives_pure_iff.1 h
    exact ⟨name, [], True.intro, rfl, rfl, rfl⟩
  complete {x} _ := ⟨x, [], rfl, fun htakes _ => gives_pure_iff.2 ⟨rfl, htakes⟩⟩

end Reading

/-- The literal that is written, over the cells of a vocabulary. -/
def Vocabulary.literal (v : Vocabulary) (l : WrittenLiteral) : Literal × Vocabulary :=
  (⟨l.name, (v.each Vocabulary.term l.arguments).1⟩, (v.each Vocabulary.term l.arguments).2)

/-- The effect that is written, over the cells of a vocabulary. -/
def Vocabulary.effect (v : Vocabulary) (e : WrittenEffect) : (Bool × Literal) × Vocabulary :=
  ((e.denied, (v.literal e.literal).1), (v.literal e.literal).2)

namespace Reading

variable {c c' : Cursor}

/-- A name before which no parenthesis opens has no arguments. -/
theorem gives_literal_of_closed {name : String} {v : Vocabulary} {r : Literal × Vocabulary}
    (hclosed : c.Closed) : Gives (literal name v) c r c' ↔ r = (⟨name, []⟩, v) ∧ c' = c := by
  rw [literal, gives_peek_bind_iff]
  split
  · rename_i position hhead
    exact absurd rfl (hclosed _ hhead)
  · exact gives_pure_iff

/-- After an opening parenthesis come arguments. The parenthesis was only looked at, so it is taken
first, and the fuel for the arguments is counted after it. -/
theorem gives_literal_of_open {name : String} {v : Vocabulary} {r : Literal × Vocabulary}
    {t : Token} (ht : c.rest.head? = some t) (hl : t.lexeme = .leftParen) :
    Gives (literal name v) c r c' ↔ ∃ c₁, c.Takes [.leftParen] c₁ ∧
      ∃ s, Gives (arguments (c₁.rest.length + 1) [] v) c₁ s c' ∧ r = (⟨name, s.1⟩, s.2) := by
  obtain ⟨lexeme, position⟩ := t
  subst hl
  rw [literal, gives_peek_bind_iff, ht]
  simp only [gives_bind_iff (r := next), gives_get_bind_iff, gives_bind_iff (r := arguments _ _ _),
    gives_pure_iff, Cursor.takes_singleton_iff]
  constructor
  · rintro ⟨u, c₁, hu, s, _, hs, rfl, rfl⟩
    obtain ⟨rest, hrest, -⟩ := gives_next_iff.1 hu
    rw [hrest] at ht
    cases ht
    exact ⟨c₁, ⟨_, hu, rfl⟩, s, hs, rfl⟩
  · rintro ⟨c₁, ⟨u, hu, -⟩, s, hs, rfl⟩
    exact ⟨u, c₁, hu, s, c', hs, rfl, rfl⟩

/-- **A literal**, with or without arguments. What follows decides which: a literal that is written
without arguments is read as such only before something else than an opening parenthesis. -/
theorem reads_literal :
    Reads literal WrittenLiteral.lexemes (fun _ => True) Vocabulary.literal where
  sound {name v c r c'} h := by
    by_cases hclosed : c.Closed
    · obtain ⟨rfl, rfl⟩ := (gives_literal_of_closed hclosed).1 h
      exact ⟨⟨name, none⟩, [], True.intro, rfl, rfl, rfl⟩
    · obtain ⟨t, ht, hl⟩ : ∃ t, c.rest.head? = some t ∧ t.lexeme = .leftParen := by
        by_contra hno
        exact hclosed fun t ht hl => hno ⟨t, ht, hl⟩
      obtain ⟨c₁, hleft, s, hs, rfl⟩ := (gives_literal_of_open ht hl).1 h
      obtain ⟨xs, -, htakes, rfl⟩ :=
        (loops_arguments.gives_iff reads_argument (Nat.lt_succ_self _)).1 hs
      exact ⟨⟨name, some xs⟩, _, True.intro, rfl, hleft.append htakes, rfl⟩
  complete {l} _ := by
    refine ⟨l.name, l.tail, rfl, fun {v c c'} htakes hclosed => ?_⟩
    obtain ⟨name, _ | xs⟩ := l
    · obtain rfl := htakes
      exact (gives_literal_of_closed hclosed).2 ⟨rfl, rfl⟩
    · -- the opening parenthesis is seen before it is taken, and the name alone decides nothing
      obtain ⟨t, ht, hl⟩ := htakes.head?
      have hsplit : c.Takes ([.leftParen] ++ (Lexeme.parted (xs.map fun x => [.identifier x]) ++
          [.rightParen])) c' := htakes
      obtain ⟨c₁, hleft, htakes⟩ := Cursor.takes_append_iff.1 hsplit
      refine (gives_literal_of_open ht hl).2 ⟨c₁, hleft, v.each Vocabulary.term xs, ?_, rfl⟩
      exact (loops_arguments.gives_iff reads_argument (Nat.lt_succ_self _)).2
        ⟨xs, fun _ _ => True.intro, htakes, rfl⟩

/-- **An effect.** The word `not` before it is an identifier like others. So no effect may begin
with a literal of this name, and what begins with `not` is a denied effect. -/
theorem reads_effect :
    Reads effect WrittenEffect.lexemes WrittenEffect.Leads Vocabulary.effect where
  sound {name v c r c'} h := by
    rw [effect] at h
    split at h
    · subst name
      obtain ⟨⟨t, name⟩, c₁, ht, h⟩ := gives_bind_iff.1 h
      obtain ⟨s, c₂, hs, h⟩ := gives_bind_iff.1 h
      obtain ⟨rfl, rfl⟩ := gives_pure_iff.1 h
      obtain ⟨l, ls, -, hls, htakes, rfl⟩ := reads_literal.sound hs
      obtain ⟨ht, hname⟩ := gives_identifier_iff.1 ht
      refine ⟨⟨true, l⟩, _, fun hpos => Bool.noConfusion hpos, rfl, ?_, rfl⟩
      rw [hls]
      exact ⟨t, c₁, ht, hname, htakes⟩
    · rename_i hnot
      obtain ⟨s, c₂, hs, h⟩ := gives_bind_iff.1 h
      obtain ⟨rfl, rfl⟩ := gives_pure_iff.1 h
      obtain ⟨l, ls, -, hls, htakes, rfl⟩ := reads_literal.sound hs
      refine ⟨⟨false, l⟩, ls, fun _ heq => hnot ?_, hls, htakes, rfl⟩
      rw [← heq]
      exact (Lexeme.identifier.inj (List.cons.inj hls).1).symm
  complete {e} he := by
    obtain ⟨_ | _, l⟩ := e
    · obtain ⟨name, ls, hls, hreads⟩ := reads_literal.complete (w := l) True.intro
      refine ⟨name, ls, hls, fun htakes hclosed => ?_⟩
      have hname : name ≠ "not" := by
        rw [← Lexeme.identifier.inj (List.cons.inj hls).1]
        exact he rfl
      rw [effect, if_neg hname, gives_bind_iff]
      exact ⟨_, _, hreads htakes hclosed, gives_pure_iff.2 ⟨rfl, rfl⟩⟩
    · obtain ⟨name, ls, hls, hreads⟩ := reads_literal.complete (w := l) True.intro
      refine ⟨"not", l.lexemes, rfl, fun {v c c'} htakes hclosed => ?_⟩
      rw [hls] at htakes
      obtain ⟨t, c₁, ht, hname, htakes⟩ := htakes
      rw [effect, if_pos rfl]
      refine gives_bind_iff.2 ⟨(t, name), c₁, gives_identifier_iff.2 ⟨ht, hname⟩, ?_⟩
      exact gives_bind_iff.2 ⟨_, _, hreads htakes hclosed, gives_pure_iff.2 ⟨rfl, rfl⟩⟩

end Reading

/-! ### Statements

What a statement comes to is said of what is written, by the same vocabulary that the readers use.
An action is built when all of it was read, so it may be refused although it is spelled as the
grammar wants it. The readers below are then compared with this.

The reader of statements is one long function. It is cut into the part before the name, which takes
the keyword, and the parts after it, so that each of them has a lemma of its own. -/

/-- An action after its name: a mark and two lists. -/
theorem WrittenAction.tail_eq (a : WrittenAction) :
    a.tail = [.quadDot] ++ ((Lexeme.parted (a.preconditions.map (·.lexemes)) ++ [.arrow]) ++
      (Lexeme.parted (a.effects.map (·.lexemes)) ++ [.dot])) := by
  simp [tail]

/-- The action that is written, over cells of its own. -/
def WrittenAction.build (a : WrittenAction) : Except SchemaError Action × Arena :=
  let preconditions := ({} : Vocabulary).each Vocabulary.literal a.preconditions
  let effects := preconditions.2.each Vocabulary.effect a.effects
  Action.build effects.2.arena a.name preconditions.1 ((effects.1.filter (·.1)).map Prod.snd)
    ((effects.1.filter (!·.1)).map Prod.snd)

/-- The fact that is written, if its literal has no variables. -/
def WrittenLiteral.fact? (l : WrittenLiteral) : Option Fact :=
  (({} : Vocabulary).literal l).1.fact? (({} : Vocabulary).literal l).2.arena

/-- What is read from a statement. -/
def WrittenStatement.Means (w : WrittenStatement) (goalMode : Bool) (s : Statement) : Prop :=
  match w.body with
  | .fact l => ∃ f, l.fact? = some f ∧
      s = if goalMode || w.keyword.isSome then .goal f else .fact f
  | .action a => ∃ t : Schema, a.build = (.ok t.action, t.arena) ∧ s = .schema t

namespace Reading

variable {c c' : Cursor}

/-- **An action** is read if it is written as one and can be built. Its variables are those of this
action only, so the vocabulary starts empty; the effects come after the preconditions and go on with
theirs. -/
theorem gives_schema_iff {name : String} {position : Position} {s : Schema} :
    Gives (schema name position) c s c' ↔ ∃ a : WrittenAction, a.name = name ∧
      (∀ e ∈ a.effects, e.Leads) ∧ c.Takes a.tail c' ∧ a.build = (.ok s.action, s.arena) := by
  have hliteral := loops_listUntil .arrow nofun nofun nofun literal
  have heffect := loops_listUntil .dot nofun nofun nofun effect
  -- the fuel was counted before the preconditions, and is enough for the effects, too
  have hle : ∀ {c c' : Cursor} {ls : List Lexeme}, c.Takes ls c' →
      c'.rest.length < c.rest.length + 1 := by
    intro c c' ls htakes
    have hlength := congrArg List.length htakes.rest
    simp only [List.length_append, List.length_map] at hlength
    omega
  rw [schema, gives_bind_iff]
  constructor
  · rintro ⟨_, c₁, hmark, h⟩
    rw [gives_get_bind_iff] at h
    obtain ⟨pre, c₂, hpre, h⟩ := gives_bind_iff.1 h
    obtain ⟨eff, c₃, heff, h⟩ := gives_bind_iff.1 h
    obtain ⟨ws, -, hws, rfl⟩ := (hliteral.gives_iff reads_literal (Nat.lt_succ_self _)).1 hpre
    obtain ⟨es, hleads, hes, rfl⟩ := (heffect.gives_iff reads_effect (hle hws)).1 heff
    -- the reader builds the action from what was read, as `WrittenAction.build` does
    rcases hbuild : WrittenAction.build ⟨name, ws, es⟩ with ⟨e | action, arena⟩
    · rw [WrittenAction.build] at hbuild
      simp only [hbuild] at h
      exact absurd h not_gives_throw
    · refine ⟨⟨name, ws, es⟩, rfl, hleads, ?_⟩
      rw [hbuild, WrittenAction.tail_eq]
      rw [WrittenAction.build] at hbuild
      simp only [hbuild] at h
      obtain ⟨rfl, rfl⟩ := gives_pure_iff.1 h
      exact ⟨(Cursor.takes_singleton_iff.2 (gives_mark_iff.1 hmark)).append (hws.append hes), rfl⟩
  · rintro ⟨a, rfl, hleads, htakes, hbuild⟩
    rw [WrittenAction.tail_eq] at htakes
    obtain ⟨c₁, hmark, htakes⟩ := Cursor.takes_append_iff.1 htakes
    obtain ⟨c₂, hws, hes⟩ := Cursor.takes_append_iff.1 htakes
    have hpre := (hliteral.gives_iff (v := {}) reads_literal (Nat.lt_succ_self c₁.rest.length)).2
      ⟨a.preconditions, fun _ _ => True.intro, hws, rfl⟩
    have heff := (heffect.gives_iff (v := (Vocabulary.each Vocabulary.literal {} a.preconditions).2)
      reads_effect (hle hws)).2 ⟨a.effects, hleads, hes, rfl⟩
    refine ⟨(), c₁, gives_mark_iff.2 (Cursor.takes_singleton_iff.1 hmark), ?_⟩
    rw [gives_get_bind_iff]
    refine gives_bind_iff.2 ⟨_, c₂, hpre, gives_bind_iff.2 ⟨_, c', heff, ?_⟩⟩
    rw [WrittenAction.build] at hbuild
    simp only [hbuild]
    exact gives_pure_iff.2 ⟨rfl, rfl⟩

/-- **A fact** is read if it is written as a literal without variables. -/
theorem gives_fact_iff {name : String} {position : Position} {f : Fact} :
    Gives (fact name position) c f c' ↔ ∃ l : WrittenLiteral, l.name = name ∧
      c.Takes (l.tail ++ [.dot]) c' ∧ l.fact? = some f := by
  rw [fact]
  simp only [gives_bind_iff, gives_mark_iff]
  constructor
  · rintro ⟨r, c₁, hr, -, c₂, ⟨t, ht, hl⟩, h⟩
    obtain ⟨l, ls, -, hls, htakes, rfl⟩ := reads_literal.sound hr
    obtain ⟨hname, rfl⟩ := List.cons.inj hls
    split at h
    · rename_i g hfact
      obtain ⟨rfl, rfl⟩ := gives_pure_iff.1 h
      exact ⟨l, Lexeme.identifier.inj hname,
        htakes.append (Cursor.takes_singleton_iff.2 ⟨t, ht, hl⟩), hfact⟩
    · exact absurd h not_gives_throw
  · rintro ⟨l, rfl, htakes, hfact⟩
    obtain ⟨name, ls, hls, hreads⟩ := reads_literal.complete (w := l) True.intro
    obtain ⟨hname, rfl⟩ := List.cons.inj hls
    obtain ⟨c₁, htail, hdot⟩ := Cursor.takes_append_iff.1 htakes
    refine ⟨_, c₁, Lexeme.identifier.inj hname ▸ hreads htail (hdot.closed nofun), (), c',
      Cursor.takes_singleton_iff.1 hdot, ?_⟩
    rw [WrittenLiteral.fact?] at hfact
    simp only [hfact]
    exact gives_pure_iff.2 ⟨rfl, rfl⟩

/-- The rest of an action in a statement, before which it was seen what kind of statement it is. -/
def actionBody (isGoal : Bool) (name : Token × String) (following : Token) :
    Reading (Option Statement) :=
  get >>= fun cursor =>
    if isGoal && !cursor.goalMode then unexpected following .factAfterGoal
    else setGoalMode false >>= fun _ => schema name.2 name.1.position >>= fun s =>
      pure (some (.schema s))

/-- The rest of a fact in a statement. -/
def factBody (isGoal : Bool) (name : Token × String) : Reading (Option Statement) :=
  fact name.2 name.1.position >>= fun f => pure (some (if isGoal then .goal f else .fact f))

/-- The rest of a statement after its keyword. -/
def body (isGoal : Bool) : Reading (Option Statement) := do
  let (token, name) ← identifier .name
  let some following ← peek | endOfInput
  match following.lexeme with
  | .quadDot =>
    if isGoal && !(← get).goalMode then unexpected following .factAfterGoal
    setGoalMode false
    return some (.schema (← schema name token.position))
  | .dot | .leftParen =>
    let f ← fact name token.position
    return some (if isGoal then .goal f else .fact f)
  | _ => unexpected following .afterName

/-- A statement as it branches: a keyword is taken if it is the next word, and the rest is read in
either case. Only then is it known what kind of statement it is. -/
theorem statement_eq : statement = peek >>= fun first =>
    match first with
    | none => pure none
    | some first => get >>= fun cursor =>
      if first.isWord Keyword.goal.word then next >>= fun _ => body true
      else if first.isWord Keyword.goals.word then
        next >>= fun _ => setGoalMode true >>= fun _ => body true
      else body cursor.goalMode := by
  rw [statement]
  refine congrArg _ (funext fun first => ?_)
  cases first with
  | none => rfl
  | some first => rfl

/-- What follows the name decides between an action and a fact. -/
theorem body_eq (isGoal : Bool) : body isGoal = identifier .name >>= fun name =>
    peek >>= fun following =>
      match following with
      | none => endOfInput
      | some following =>
        match following.lexeme with
        | .quadDot => actionBody isGoal name following
        | .dot | .leftParen => factBody isGoal name
        | _ => unexpected following .afterName := by
  rw [body]
  refine congrArg _ (funext fun ⟨token, name⟩ => ?_)
  dsimp only
  refine congrArg _ (funext fun following => ?_)
  cases following with
  | none => rfl
  | some following =>
    obtain ⟨lexeme, position⟩ := following
    cases lexeme with
    | quadDot =>
      refine congrArg (fun f => (get : Reading Cursor) >>= f) (funext fun cursor => ?_)
      cases isGoal && !cursor.goalMode <;> rfl
    | _ => rfl

/-- An action turns the switch off before its own tokens are taken. An action that is to be a goal
is refused, unless the facts before it were goals by `goals`. -/
theorem gives_actionBody_iff {isGoal : Bool} {name : Token × String} {t : Token}
    {s : Option Statement} :
    Gives (actionBody isGoal name t) c s c' ↔ (isGoal = true → c.goalMode = true) ∧
      ∃ (a : WrittenAction) (u : Schema) (c₁ : Cursor), a.name = name.2 ∧
        (∀ e ∈ a.effects, e.Leads) ∧ c.Takes a.tail c₁ ∧ c' = c₁.inMode false ∧
        a.build = (.ok u.action, u.arena) ∧ s = some (.schema u) := by
  rw [actionBody, gives_get_bind_iff]
  by_cases hgoal : (isGoal && !c.goalMode) = true
  · rw [if_pos hgoal]
    simp only [Bool.and_eq_true, Bool.not_eq_true'] at hgoal
    simp [hgoal]
  · rw [if_neg hgoal]
    have himp : isGoal = true → c.goalMode = true := by
      simpa using hgoal
    rw [and_iff_right himp]
    simp only [gives_bind_iff, gives_setGoalMode_iff, gives_schema_iff, gives_pure_iff]
    constructor
    · rintro ⟨-, _, rfl, u, _, ⟨a, hname, hleads, htakes, hbuild⟩, rfl, rfl⟩
      obtain ⟨c₁, hc, htakes⟩ := htakes.of_inMode
      exact ⟨a, u, c₁, hname, hleads, htakes, hc, hbuild, rfl⟩
    · rintro ⟨a, u, c₁, hname, hleads, htakes, rfl, hbuild, rfl⟩
      exact ⟨(), _, rfl, u, _, ⟨a, hname, hleads, htakes.inMode false, hbuild⟩, rfl, rfl⟩

/-- A fact leaves the switch as it is. -/
theorem gives_factBody_iff {isGoal : Bool} {name : Token × String} {s : Option Statement} :
    Gives (factBody isGoal name) c s c' ↔ ∃ (l : WrittenLiteral) (f : Fact), l.name = name.2 ∧
      c.Takes (l.tail ++ [.dot]) c' ∧ l.fact? = some f ∧
      s = some (if isGoal then .goal f else .fact f) := by
  rw [factBody]
  simp only [gives_bind_iff, gives_fact_iff, gives_pure_iff]
  constructor
  · rintro ⟨f, c₁, ⟨l, hname, htakes, hfact⟩, rfl, rfl⟩
    exact ⟨l, f, hname, htakes, hfact, rfl⟩
  · rintro ⟨l, f, hname, htakes, hfact, rfl⟩
    exact ⟨f, c', ⟨l, hname, htakes, hfact⟩, rfl, rfl⟩

/-- The end of a statement is that of a fact, or of an action. -/
theorem gives_body_iff {isGoal : Bool} {s : Option Statement} :
    Gives (body isGoal) c s c' ↔
      (∃ (l : WrittenLiteral) (f : Fact), c.Takes (.identifier l.name :: (l.tail ++ [.dot])) c' ∧
        l.fact? = some f ∧ s = some (if isGoal then .goal f else .fact f)) ∨
      (isGoal = true → c.goalMode = true) ∧
        ∃ (a : WrittenAction) (u : Schema) (c₁ : Cursor), (∀ e ∈ a.effects, e.Leads) ∧
          c.Takes (.identifier a.name :: a.tail) c₁ ∧ c' = c₁.inMode false ∧
          a.build = (.ok u.action, u.arena) ∧ s = some (.schema u) := by
  rw [body_eq, gives_bind_iff]
  constructor
  · rintro ⟨⟨t, name⟩, c₁, hname, h⟩
    obtain ⟨ht, hl⟩ := gives_identifier_iff.1 hname
    have hmode : c₁.goalMode = c.goalMode :=
      (Cursor.takes_singleton_iff.2 ⟨t, ht, hl⟩).goalMode
    rw [gives_peek_bind_iff] at h
    split at h
    · exact absurd h not_gives_endOfInput
    · split at h
      · obtain ⟨hgoal, a, u, c₂, rfl, hleads, htakes, hc, hbuild, hs⟩ := gives_actionBody_iff.1 h
        exact .inr ⟨hmode ▸ hgoal, a, u, c₂, hleads, ⟨t, c₁, ht, hl, htakes⟩, hc, hbuild, hs⟩
      · obtain ⟨l, f, rfl, htakes, hfact, hs⟩ := gives_factBody_iff.1 h
        exact .inl ⟨l, f, ⟨t, c₁, ht, hl, htakes⟩, hfact, hs⟩
      · obtain ⟨l, f, rfl, htakes, hfact, hs⟩ := gives_factBody_iff.1 h
        exact .inl ⟨l, f, ⟨t, c₁, ht, hl, htakes⟩, hfact, hs⟩
      · exact absurd h not_gives_unexpected
  · rintro (⟨l, f, ⟨t, c₁, ht, hl, htakes⟩, hfact, hs⟩ |
      ⟨hgoal, a, u, c₂, hleads, ⟨t, c₁, ht, hl, htakes⟩, hc, hbuild, hs⟩)
    · refine ⟨(t, l.name), c₁, gives_identifier_iff.2 ⟨ht, hl⟩, ?_⟩
      rw [gives_peek_bind_iff]
      have hfacts : ∀ name : Token × String,
          l.name = name.2 → Gives (factBody isGoal name) c₁ s c' :=
        fun name hname => gives_factBody_iff.2 ⟨l, f, hname, htakes, hfact, hs⟩
      -- a fact goes on with its arguments or ends
      obtain ⟨q, hq, hql⟩ :
          ∃ q, c₁.rest.head? = some q ∧ (q.lexeme = .dot ∨ q.lexeme = .leftParen) := by
        obtain ⟨name, _ | xs⟩ := l
        · obtain ⟨q, hq, hql⟩ := Cursor.Takes.head? htakes
          exact ⟨q, hq, .inl hql⟩
        · obtain ⟨q, hq, hql⟩ := Cursor.Takes.head? htakes
          exact ⟨q, hq, .inr hql⟩
      rw [hq]
      rcases hql with hql | hql
      · simp only [hql]
        exact hfacts _ rfl
      · simp only [hql]
        exact hfacts _ rfl
    · refine ⟨(t, a.name), c₁, gives_identifier_iff.2 ⟨ht, hl⟩, ?_⟩
      rw [gives_peek_bind_iff]
      have hmode : c₁.goalMode = c.goalMode :=
        (Cursor.takes_singleton_iff.2 ⟨t, ht, hl⟩).goalMode
      obtain ⟨q, hq, hql⟩ := Cursor.Takes.head? htakes
      rw [hq]
      simp only [hql]
      exact gives_actionBody_iff.2 ⟨hmode ▸ hgoal, a, u, c₂, rfl, hleads, htakes, hc, hbuild, hs⟩

/-- After its keyword a statement has to come. -/
theorem not_gives_body_none {isGoal : Bool} : ¬Gives (body isGoal) c none c' := by
  rw [gives_body_iff]
  rintro (⟨l, f, -, -, hs⟩ | ⟨-, a, u, c₁, -, -, -, -, hs⟩)
  · cases hs
  · cases hs

/-- The end of a statement with a given keyword, or none. -/
theorem gives_body_of_keyword_iff {k : Option Keyword} {s : Statement} :
    Gives (body (c.goalMode || k.isSome)) (c.inMode (c.goalMode || k == some .goals)) (some s) c' ↔
      ∃ (b : WrittenBody) (c₁ : Cursor), (∀ a, b = .action a → ∀ e ∈ a.effects, e.Leads) ∧
        (k = some .goal → (∃ l, b = .fact l) ∨ c.goalMode = true) ∧
        c.Takes (.identifier b.name :: b.tail) c₁ ∧
        c' = c₁.inMode ((⟨k, b⟩ : WrittenStatement).modeAfter c.goalMode) ∧
        (⟨k, b⟩ : WrittenStatement).Means c.goalMode s := by
  rw [gives_body_iff]
  constructor
  · -- the switch was turned before, which the tokens do not show
    rintro (⟨l, f, htakes, hfact, hs⟩ | ⟨hgoal, a, u, c₂, hleads, htakes, rfl, hbuild, hs⟩)
    · obtain ⟨c₁, rfl, htakes'⟩ := htakes.of_inMode
      exact ⟨.fact l, c₁, nofun, fun _ => .inl ⟨l, rfl⟩, htakes', rfl, f, hfact, Option.some.inj hs⟩
    · obtain ⟨c₁, rfl, htakes'⟩ := htakes.of_inMode
      refine ⟨.action a, c₁, fun _ heq => WrittenBody.action.inj heq ▸ hleads, ?_, htakes', rfl, u,
        hbuild, Option.some.inj hs⟩
      rintro rfl
      right
      simpa [Cursor.inMode] using hgoal
  · rintro ⟨b, c₁, hleads, hgoal, htakes, rfl, hmeans⟩
    cases b with
    | fact l =>
      obtain ⟨f, hfact, rfl⟩ := hmeans
      exact .inl ⟨l, f, htakes.inMode _, hfact, rfl⟩
    | action a =>
      obtain ⟨u, hbuild, rfl⟩ := hmeans
      refine .inr ⟨?_, a, u, _, hleads a rfl, htakes.inMode _, rfl, hbuild, rfl⟩
      rcases k with _ | _ | _
      · simp [Cursor.inMode]
      · have hmode := (hgoal rfl).resolve_left nofun
        simp [Cursor.inMode, hmode]
      · simp [Cursor.inMode]

/-- The keyword of a statement is taken, if it has one. It has none only if none stands there. -/
structure TakesKeyword (k : Option Keyword) (c c' : Cursor) : Prop where
  /-- What is taken is the word of the keyword. -/
  takes : c.Takes (k.map fun k => .identifier k.word).toList c'
  /-- No keyword is passed over. -/
  none : k = none → ∀ t ∈ c.rest.head?, ∀ k : Keyword, t.lexeme ≠ .identifier k.word

section

variable {t : Token} {rest : List Token} (ht : c.rest = t :: rest)

include ht

/-- With a token at hand, taking it leads to one cursor. -/
theorem gives_next_iff_of_rest {u : Token} : Gives next c u c' ↔ u = t ∧ c' = c.after rest := by
  rw [gives_next_iff, ht]
  constructor
  · rintro ⟨_, hcons, rfl⟩
    obtain ⟨rfl, rfl⟩ := List.cons.inj hcons
    exact ⟨rfl, rfl⟩
  · rintro ⟨rfl, rfl⟩
    exact ⟨rest, rfl, rfl⟩

/-- A keyword is taken if its word is next. -/
theorem takesKeyword_some_iff {k : Keyword} :
    TakesKeyword (some k) c c' ↔ t.lexeme = .identifier k.word ∧ c' = c.after rest := by
  constructor
  · intro h
    obtain ⟨u, hu, hl⟩ := Cursor.takes_singleton_iff.1 h.takes
    obtain ⟨rfl, rfl⟩ := (gives_next_iff_of_rest ht).1 hu
    exact ⟨hl, rfl⟩
  · rintro ⟨hl, rfl⟩
    exact ⟨Cursor.takes_singleton_iff.2 ⟨t, (gives_next_iff_of_rest ht).2 ⟨rfl, rfl⟩, hl⟩, nofun⟩

/-- No keyword is taken if the next word is none. -/
theorem takesKeyword_none_iff :
    TakesKeyword none c c' ↔ c' = c ∧ ∀ k : Keyword, t.lexeme ≠ .identifier k.word := by
  have hhead : c.rest.head? = some t := by rw [ht]; rfl
  constructor
  · exact fun h => ⟨h.takes, h.none rfl t hhead⟩
  · rintro ⟨rfl, hl⟩
    refine ⟨rfl, fun _ u hu => ?_⟩
    rw [hhead] at hu
    cases hu
    exact hl

/-- After a keyword a fact is a goal, and `goals` makes facts that follow goals. -/
theorem gives_statement_iff_of_keyword {k : Keyword} (hl : t.lexeme = .identifier k.word)
    {s : Option Statement} : Gives statement c s c' ↔
      Gives (body true) ((c.after rest).inMode (c.goalMode || k == .goals)) s c' := by
  have hhead : c.rest.head? = some t := by rw [ht]; rfl
  have hword : ∀ m : Keyword, t.isWord m.word = (k == m) := by
    intro m
    rw [Token.isWord, hl]
    cases k <;> cases m <;> decide
  rw [statement_eq, gives_peek_bind_iff, hhead]
  simp only [gives_get_bind_iff, hword]
  cases k with
  | goal =>
    have hmode : (c.after rest).inMode (c.goalMode || Keyword.goal == .goals) = c.after rest := by
      rw [show (Keyword.goal == Keyword.goals) = false from rfl, Bool.or_false]
      exact Cursor.inMode_goalMode _
    rw [if_pos (beq_self_eq_true _), gives_bind_iff, hmode]
    constructor
    · rintro ⟨u, c₁, hu, hbody⟩
      exact ((gives_next_iff_of_rest ht).1 hu).2 ▸ hbody
    · exact fun hbody => ⟨t, _, (gives_next_iff_of_rest ht).2 ⟨rfl, rfl⟩, hbody⟩
  | goals =>
    have hmode : (c.goalMode || Keyword.goals == .goals) = true := Bool.or_true _
    rw [if_neg (by decide), if_pos (beq_self_eq_true _), gives_bind_iff, hmode]
    simp only [gives_bind_iff, gives_setGoalMode_iff]
    constructor
    · rintro ⟨u, c₁, hu, -, _, rfl, hbody⟩
      exact ((gives_next_iff_of_rest ht).1 hu).2 ▸ hbody
    · exact fun hbody => ⟨t, _, (gives_next_iff_of_rest ht).2 ⟨rfl, rfl⟩, (), _, rfl, hbody⟩

/-- Without a keyword, a fact is a goal if the switch says so. -/
theorem gives_statement_iff_of_no_keyword (hl : ∀ k : Keyword, t.lexeme ≠ .identifier k.word)
    {s : Option Statement} : Gives statement c s c' ↔ Gives (body c.goalMode) c s c' := by
  have hhead : c.rest.head? = some t := by rw [ht]; rfl
  have hword : ∀ k : Keyword, t.isWord k.word = false := fun k => beq_eq_false_iff_ne.2 (hl k)
  rw [statement_eq, gives_peek_bind_iff, hhead]
  simp only [gives_get_bind_iff, hword, Bool.false_eq_true, if_false]

end

/-- A statement starts with a keyword if it can. -/
theorem gives_statement_iff_keyword {s : Option Statement} (hrest : c.rest ≠ []) :
    Gives statement c s c' ↔ ∃ (k : Option Keyword) (c₁ : Cursor), TakesKeyword k c c₁ ∧
      Gives (body (c₁.goalMode || k.isSome)) (c₁.inMode (c₁.goalMode || k == some .goals)) s
        c' := by
  obtain ⟨t, rest, ht⟩ := List.exists_cons_of_ne_nil hrest
  have hkeyword : ∀ k : Keyword,
      Gives (body ((c.after rest).goalMode || (some k).isSome))
          ((c.after rest).inMode ((c.after rest).goalMode || some k == some .goals)) s c' ↔
        Gives (body true) ((c.after rest).inMode (c.goalMode || k == .goals)) s c' := by
    intro k
    rw [Option.isSome_some, Bool.or_true, Option.some_beq_some]
    rfl
  by_cases h : ∃ k : Keyword, t.lexeme = .identifier k.word
  · obtain ⟨k, hl⟩ := h
    rw [gives_statement_iff_of_keyword ht hl]
    constructor
    · exact fun hbody =>
        ⟨some k, _, (takesKeyword_some_iff ht).2 ⟨hl, rfl⟩, (hkeyword k).2 hbody⟩
    · rintro ⟨_ | k', c₁, hk, hbody⟩
      · exact absurd hl (((takesKeyword_none_iff ht).1 hk).2 k)
      · obtain ⟨hl', rfl⟩ := (takesKeyword_some_iff ht).1 hk
        obtain rfl : k = k' := Keyword.word_inj (Lexeme.identifier.inj (hl.symm.trans hl'))
        exact (hkeyword k).1 hbody
  · have hl : ∀ k : Keyword, t.lexeme ≠ .identifier k.word := fun k hk => h ⟨k, hk⟩
    rw [gives_statement_iff_of_no_keyword ht hl]
    constructor
    · exact fun hbody => ⟨none, c, (takesKeyword_none_iff ht).2 ⟨rfl, hl⟩, by simpa using hbody⟩
    · rintro ⟨_ | k, c₁, hk, hbody⟩
      · obtain ⟨rfl, -⟩ := (takesKeyword_none_iff ht).1 hk
        simpa using hbody
      · exact absurd ((takesKeyword_some_iff ht).1 hk).1 (hl k)

/-- There is no statement exactly at the end of the input. -/
theorem gives_statement_none_iff : Gives statement c none c' ↔ c.rest = [] ∧ c' = c := by
  by_cases hrest : c.rest = []
  · rw [statement_eq, gives_peek_bind_iff, hrest]
    simp [gives_pure_iff]
  · rw [gives_statement_iff_keyword hrest]
    simp [not_gives_body_none, hrest]

/-- **A statement** is read exactly as it is written. The grammar has no `goal` before an action,
but the reader takes it if facts are goals anyway. -/
theorem gives_statement_iff {s : Statement} :
    Gives statement c (some s) c' ↔ ∃ (w : WrittenStatement) (c₁ : Cursor), w.Leads ∧
      (w.keyword = some .goal → (∃ l, w.body = .fact l) ∨ c.goalMode = true) ∧
      c.Takes w.lexemes c₁ ∧ c' = c₁.inMode (w.modeAfter c.goalMode) ∧ w.Means c.goalMode s := by
  by_cases hrest : c.rest = []
  · constructor
    · intro h
      cases h.symm.trans (gives_statement_none_iff.2 ⟨hrest, rfl⟩)
    · rintro ⟨w, c₁, -, -, htakes, -⟩
      have htokens := htakes.rest
      rw [hrest] at htokens
      simp [WrittenStatement.lexemes] at htokens
  · rw [gives_statement_iff_keyword hrest]
    simp only [gives_body_of_keyword_iff]
    constructor
    · rintro ⟨k, c₁, hk, b, c₂, hleads, hgoal, htakes, rfl, hmeans⟩
      have hmode : c₁.goalMode = c.goalMode := hk.takes.goalMode
      rw [hmode] at hgoal hmeans ⊢
      refine ⟨⟨k, b⟩, c₂, ⟨?_, hleads⟩, hgoal, hk.takes.append htakes, rfl, hmeans⟩
      -- a statement without a keyword must not begin like one with a keyword
      rintro rfl k hname
      obtain ⟨t, ht, hl⟩ := htakes.head?
      obtain rfl := hk.takes
      exact hk.none rfl t ht k (hname ▸ hl)
    · rintro ⟨⟨k, b⟩, c₂, ⟨hkeyword, hleads⟩, hgoal, htakes, rfl, hmeans⟩
      obtain ⟨c₁, hk, htakes⟩ := Cursor.takes_append_iff.1 htakes
      have hmode : c₁.goalMode = c.goalMode := hk.goalMode
      refine ⟨k, c₁, ⟨hk, ?_⟩, ?_⟩
      · rintro rfl t ht k' hl
        obtain rfl := hk
        obtain ⟨u, hu, hname⟩ := htakes.head?
        rw [hu] at ht
        cases ht
        exact hkeyword rfl k' (Lexeme.identifier.inj (hname.symm.trans hl))
      · rw [hmode]
        exact ⟨b, c₂, hleads, hgoal, htakes, rfl, hmeans⟩

end Reading

end Strips
