import Strips.Proofs.Layout
import Strips.Proofs.Parsing
import Strips.Proofs.Rounds

/-!
# Reading goes on

A reader of statements never leaves its tokens, never goes back, and if it fails then it names the
place of a token. All readers are put together from a few, so it is enough that these do so, and
that readers one after the other do so if each does. Whatever starts by taking a token has then
taken one, however it ends. So the next statement takes a token unless none is left, and asking
again after an error comes to the end, too.

With this a problem text is either a problem or refused with a place in it. The schemas of a problem
are no instances and its facts are ground, so it can be loaded on every graph.

## Main definitions

* `Cursor.On` – a cursor stands in a list of tokens.
* `Reading.Walks`, `Reading.Advances` – what a reader does with such a cursor.
* `Cursor.afterCalls` – statements are asked for again and again, also after errors.

## Main results

* `Reading.Loops.walks` – lists of items, by induction.
* `Reading.advances_statement` – the reader of statements.
* `Cursor.nextStatement_progresses` – every call takes a token until none is left.
* `Problem.parse_located` – a text is a problem, or the error has a place in it.
-/

namespace Strips

/-- The error is at the place of one of the tokens. -/
def SyntaxError.PointsInto (e : SyntaxError) (tokens : List Token) : Prop :=
  ∃ t ∈ tokens, e.position? = some t.position

/-! ### Cursors on tokens -/

namespace Cursor

/-- The cursor stands in the list of tokens, before those that it has not taken. -/
structure On (c : Cursor) (tokens : List Token) : Prop where
  taken_le : c.taken ≤ tokens.length
  rest : c.rest = tokens.drop c.taken
  last : c.last = tokens.getLast?.map Token.position

variable {c : Cursor} {tokens : List Token}

theorem on_ofTokens (tokens : List Token) : (ofTokens tokens).On tokens :=
  ⟨Nat.zero_le _, List.drop_zero.symm, rfl⟩

theorem On.inMode (h : c.On tokens) (mode : Bool) : (c.inMode mode).On tokens :=
  ⟨h.taken_le, h.rest, h.last⟩

theorem On.mem (h : c.On tokens) {t : Token} (ht : t ∈ c.rest) : t ∈ tokens :=
  List.mem_of_mem_drop (h.rest ▸ ht)

theorem On.after (h : c.On tokens) {t : Token} {rest : List Token} (hrest : c.rest = t :: rest) :
    (c.after rest).On tokens := by
  have hdrop : tokens.drop c.taken = t :: rest := h.rest.symm.trans hrest
  refine ⟨?_, ?_, h.last⟩
  · have hlt : c.taken < tokens.length := by
      by_contra hle
      rw [List.drop_eq_nil_of_le (Nat.le_of_not_lt hle)] at hdrop
      cases hdrop
    exact hlt
  · change rest = tokens.drop (c.taken + 1)
    rw [← List.drop_drop, hdrop, List.drop_one, List.tail_cons]

theorem On.rest_eq_nil_iff (h : c.On tokens) : c.rest = [] ↔ c.taken = tokens.length := by
  rw [h.rest, List.drop_eq_nil_iff]
  exact ⟨Nat.le_antisymm h.taken_le, Nat.le_of_eq ∘ Eq.symm⟩

/-- At the end of the input the error is at the last token. -/
theorem On.pointsInto_last (h : c.On tokens) (hne : tokens ≠ []) :
    (SyntaxError.endOfInput c.last).PointsInto tokens := by
  refine ⟨tokens.getLast hne, List.getLast_mem hne, ?_⟩
  rw [SyntaxError.position?, h.last, List.getLast?_eq_some_getLast hne, Option.map_some]

end Cursor

/-! ### Readers on tokens -/

namespace Reading

variable {α β : Type} {tokens : List Token} {c c' : Cursor}

theorem outcome_bind_of_gives {r : Reading α} {f : α → Reading β} {x : α} (h : Gives r c x c') :
    (r >>= f).outcome c = (f x).outcome c' := by
  rw [Gives, outcome] at h
  rw [outcome, run_bind, h]
  rfl

theorem outcome_bind_of_error {r : Reading α} {f : α → Reading β} {e : SyntaxError}
    (h : r.outcome c = (.error e, c')) : (r >>= f).outcome c = (.error e, c') := by
  rw [outcome] at h
  rw [outcome, run_bind, h]

/-- What comes of a reader leaves the cursor in the tokens and not before where it was, and an error
is at the place of a token. -/
structure Keeps (tokens : List Token) (c : Cursor) (o : Except SyntaxError α × Cursor) : Prop where
  on : o.2.On tokens
  taken_le : c.taken ≤ o.2.taken
  pointsInto : ∀ e, o.1 = .error e → e.PointsInto tokens

/-- The reader does so from anywhere in the tokens. -/
def Walks (tokens : List Token) (r : Reading α) : Prop :=
  ∀ c : Cursor, c.On tokens → Keeps tokens c (r.outcome c)

/-- If any tokens are left, then the reader takes one of them at least, however it ends. -/
structure Advances (tokens : List Token) (r : Reading α) : Prop where
  walks : Walks tokens r
  taken_lt : ∀ {c : Cursor}, c.On tokens → c.rest ≠ [] → c.taken < (r.outcome c).2.taken

section Bind

variable {r : Reading α} {f : α → Reading β}

/-- **One reader after the other.** The second one may depend on what the first returns. -/
theorem Walks.bind_of_gives (hr : Walks tokens r)
    (hf : ∀ {c x c'}, c.On tokens → Gives r c x c' → Walks tokens (f x)) :
    Walks tokens (r >>= f) := by
  intro c hc
  have hfirst := hr c hc
  rcases hrun : r.outcome c with ⟨e | x, c₁⟩
  · rw [hrun] at hfirst
    rw [outcome_bind_of_error hrun]
    refine ⟨hfirst.on, hfirst.taken_le, fun e' he => hfirst.pointsInto e' ?_⟩
    cases he
    rfl
  · rw [hrun] at hfirst
    rw [outcome_bind_of_gives hrun]
    have hsecond := hf hc hrun c₁ hfirst.on
    exact ⟨hsecond.on, Nat.le_trans hfirst.taken_le hsecond.taken_le, hsecond.pointsInto⟩

/-- What the first reader has taken, the second one leaves taken. -/
theorem Advances.bind_of_gives (hr : Advances tokens r)
    (hf : ∀ {c x c'}, c.On tokens → Gives r c x c' → Walks tokens (f x)) :
    Advances tokens (r >>= f) where
  walks := hr.walks.bind_of_gives hf
  taken_lt {c} hc hrest := by
    have hfirst := hr.walks c hc
    have hlt := hr.taken_lt hc hrest
    rcases hrun : r.outcome c with ⟨e | x, c₁⟩
    · rw [hrun] at hlt
      rwa [outcome_bind_of_error hrun]
    · rw [hrun] at hfirst hlt
      rw [outcome_bind_of_gives hrun]
      exact Nat.lt_of_lt_of_le hlt (hf hc hrun c₁ hfirst.on).taken_le

end Bind

theorem Walks.bind {r : Reading α} {f : α → Reading β} (hr : Walks tokens r)
    (hf : ∀ x, Walks tokens (f x)) : Walks tokens (r >>= f) :=
  hr.bind_of_gives fun _ _ => hf _

theorem Walks.pure (x : α) : Walks tokens (pure x : Reading α) :=
  fun _ hc => ⟨hc, Nat.le_refl _, nofun⟩

theorem Walks.throw {e : SyntaxError} (he : e.PointsInto tokens) :
    Walks tokens (throw e : Reading α) := by
  refine fun _ hc => ⟨hc, Nat.le_refl _, fun e' heq => ?_⟩
  cases heq
  exact he

theorem Walks.unexpected {t : Token} (ht : t ∈ tokens) (expected : Expectation) :
    Walks tokens (unexpected t expected : Reading α) := .throw ⟨t, ht, rfl⟩

theorem Walks.get : Walks tokens get := fun _ hc => ⟨hc, Nat.le_refl _, nofun⟩

theorem Walks.peek : Walks tokens peek := fun _ hc => ⟨hc, Nat.le_refl _, nofun⟩

theorem Walks.setGoalMode (mode : Bool) : Walks tokens (setGoalMode mode) :=
  fun _ hc => ⟨hc.inMode mode, Nat.le_refl _, nofun⟩

/-- Looking at the next token, which is one of the tokens. -/
theorem Walks.peek_bind {f : Option Token → Reading β}
    (hf : ∀ x, (∀ t ∈ x, t ∈ tokens) → Walks tokens (f x)) : Walks tokens (Reading.peek >>= f) :=
  Walks.peek.bind_of_gives fun hc hx => by
    obtain ⟨rfl, -⟩ := gives_peek_iff.1 hx
    exact hf _ fun t ht => hc.mem (List.mem_of_mem_head? ht)

/-- Looking at the next token if there is one. -/
theorem Advances.peek_bind {f : Option Token → Reading β} (hnone : Walks tokens (f none))
    (hf : ∀ t, Advances tokens (f (some t))) : Advances tokens (Reading.peek >>= f) where
  walks := by
    refine Walks.peek.bind fun x => ?_
    cases x with
    | none => exact hnone
    | some t => exact (hf t).walks
  taken_lt {c} hc hrest := by
    obtain ⟨t, rest, ht⟩ := List.exists_cons_of_ne_nil hrest
    have hpeek : Gives Reading.peek c (some t) c := gives_peek_iff.2 ⟨by rw [ht]; rfl, rfl⟩
    rw [outcome_bind_of_gives hpeek]
    exact (hf t).taken_lt hc hrest

theorem Advances.get_bind {f : Cursor → Reading β} (hf : ∀ x, Advances tokens (f x)) :
    Advances tokens (get >>= f) where
  walks := Walks.get.bind fun x => (hf x).walks
  taken_lt {c} hc hrest := by
    have hget : Gives get c c c := gives_get_iff.2 ⟨rfl, rfl⟩
    rw [outcome_bind_of_gives hget]
    exact (hf c).taken_lt hc hrest

section Nonempty

variable (hne : tokens ≠ [])

include hne

theorem Walks.endOfInput : Walks tokens (endOfInput : Reading α) := by
  refine fun _ hc => ⟨hc, Nat.le_refl _, fun e heq => ?_⟩
  cases heq
  exact hc.pointsInto_last hne

theorem advances_next : Advances tokens next := by
  refine ⟨fun c hc => ?_, fun {c} hc hrest => ?_⟩
  · rw [outcome_next]
    cases hrest : c.rest with
    | nil =>
      refine ⟨hc, Nat.le_refl _, fun e heq => ?_⟩
      cases heq
      exact hc.pointsInto_last hne
    | cons t rest => exact ⟨hc.after hrest, Nat.le_succ _, nofun⟩
  · obtain ⟨t, rest, hrest⟩ := List.exists_cons_of_ne_nil hrest
    rw [outcome_next, hrest]
    exact Nat.lt_succ_self _

/-- Taking the next token, which is one of the tokens. -/
theorem Advances.next_bind {f : Token → Reading β} (hf : ∀ t ∈ tokens, Walks tokens (f t)) :
    Advances tokens (next >>= f) :=
  (advances_next hne).bind_of_gives fun hc ht => by
    obtain ⟨rest, hrest, -⟩ := gives_next_iff.1 ht
    exact hf _ (hc.mem (hrest ▸ List.mem_cons_self))

theorem Walks.next_bind {f : Token → Reading β} (hf : ∀ t ∈ tokens, Walks tokens (f t)) :
    Walks tokens (next >>= f) := (Advances.next_bind hne hf).walks

/-! ### Readers of items and lists -/

theorem advances_identifier (expected : Expectation) : Advances tokens (identifier expected) := by
  refine Advances.next_bind hne fun t ht => ?_
  split
  · exact .pure _
  · exact .unexpected ht expected

/-- Taking an identifier, which is one of the tokens. -/
theorem Advances.identifier_bind {expected : Expectation} {f : Token × String → Reading β}
    (hf : ∀ t ∈ tokens, ∀ x, Walks tokens (f (t, x))) :
    Advances tokens (identifier expected >>= f) :=
  (advances_identifier hne expected).bind_of_gives fun {c x c'} hc hx => by
    obtain ⟨rest, hrest, -⟩ := gives_next_iff.1 (gives_identifier_iff.1 hx).1
    exact hf _ (hc.mem (hrest ▸ List.mem_cons_self)) _

theorem Walks.mark (lexeme : Lexeme) (expected : Expectation) :
    Walks tokens (mark lexeme expected) := by
  refine Walks.next_bind hne fun t ht => ?_
  split
  · exact .pure _
  · exact .unexpected ht expected

omit hne in
theorem Walks.nameOf {t : Token} (ht : t ∈ tokens) {expected : Expectation}
    {f : String → Reading α} (hf : ∀ x, Walks tokens (f x)) :
    Walks tokens (nameOf t expected f) := by
  rw [Reading.nameOf]
  split
  · exact hf _
  · exact .unexpected ht expected

theorem Walks.turn {terminator : Lexeme} {noComma noItem : Expectation} {first : Bool}
    {stop : Reading α} {f : String → Reading α} (hstop : Walks tokens stop)
    (hf : ∀ x, Walks tokens (f x)) :
    Walks tokens (turn terminator noComma noItem first stop f) := by
  refine Walks.next_bind hne fun t ht => ?_
  split
  · exact hstop
  · split
    · exact .nameOf ht hf
    · split
      · exact Walks.next_bind hne fun u hu => .nameOf hu hf
      · exact .unexpected ht noComma

/-- A loop over a list, if its items are read so: by induction on the turns that are left. -/
theorem Loops.walks {terminator : Lexeme} {item : String → Vocabulary → Reading (β × Vocabulary)}
    {loop : Nat → List β → Vocabulary → Reading (List β × Vocabulary)}
    (hloop : Loops terminator item loop) (hitem : ∀ name v, Walks tokens (item name v)) :
    ∀ (fuel : Nat) (items : List β) (v : Vocabulary), Walks tokens (loop fuel items v)
  | 0, items, v => by
    rw [hloop.zero]
    exact .endOfInput hne
  | fuel + 1, items, v => by
    obtain ⟨noComma, noItem, hsucc⟩ := hloop.succ
    rw [hsucc]
    exact .turn hne (.pure _) fun name =>
      (hitem name v).bind fun _ => Loops.walks hloop hitem fuel _ _

theorem walks_literal (name : String) (v : Vocabulary) : Walks tokens (literal name v) := by
  refine Walks.peek.bind fun following => ?_
  split
  · refine (advances_next hne).walks.bind fun _ => Walks.get.bind fun _ => ?_
    exact (loops_arguments.walks hne (fun _ _ => .pure _) _ _ _).bind fun _ => .pure _
  · exact .pure _

theorem walks_effect (name : String) (v : Vocabulary) : Walks tokens (effect name v) := by
  rw [effect]
  split
  · exact (advances_identifier hne _).walks.bind fun _ =>
      (walks_literal hne _ v).bind fun _ => .pure _
  · exact (walks_literal hne _ v).bind fun _ => .pure _

/-! ### Statements -/

/-- What is wrong with a whole action is put down to its name. -/
theorem walks_schema (name : String) {position : Position}
    (hposition : ∃ t ∈ tokens, position = t.position) :
    Walks tokens (schema name position) := by
  have hliterals := loops_listUntil .arrow nofun nofun nofun literal
  have heffects := loops_listUntil .dot nofun nofun nofun effect
  refine (Walks.mark hne _ _).bind fun _ => Walks.get.bind fun _ => ?_
  refine (hliterals.walks hne (walks_literal hne) _ _ _).bind fun _ => ?_
  refine (heffects.walks hne (walks_effect hne) _ _ _).bind fun _ => ?_
  dsimp only
  split
  · exact .pure _
  · obtain ⟨t, ht, rfl⟩ := hposition
    exact .throw ⟨t, ht, rfl⟩

/-- So is a variable in a fact. -/
theorem walks_fact (name : String) {position : Position}
    (hposition : ∃ t ∈ tokens, position = t.position) : Walks tokens (fact name position) := by
  refine (walks_literal hne name {}).bind fun _ => (Walks.mark hne _ _).bind fun _ => ?_
  split
  · exact .pure _
  · obtain ⟨t, ht, rfl⟩ := hposition
    exact .throw ⟨t, ht, rfl⟩

theorem advances_body (isGoal : Bool) : Advances tokens (body isGoal) := by
  rw [body_eq]
  refine Advances.identifier_bind hne fun t ht x => Walks.peek_bind fun following hfollowing => ?_
  have hposition : ∃ u ∈ tokens, t.position = u.position := ⟨t, ht, rfl⟩
  have hfact : Walks tokens (factBody isGoal (t, x)) :=
    (walks_fact hne x hposition).bind fun _ => .pure _
  split
  · exact .endOfInput hne
  · rename_i u
    have hu : u ∈ tokens := hfollowing u rfl
    split
    · refine Walks.get.bind fun cursor => ?_
      split
      · exact .unexpected hu _
      · exact (Walks.setGoalMode false).bind fun _ =>
          (walks_schema hne x hposition).bind fun _ => .pure _
    · exact hfact
    · exact hfact
    · exact .unexpected hu _

/-- **The reader of statements** stays in the tokens, and names one of them if it fails. It takes a
token if any is left: a keyword, or what stands where the name should be. -/
theorem advances_statement : Advances tokens statement := by
  have hbody : ∀ isGoal, Walks tokens (body isGoal) :=
    fun isGoal => (advances_body hne isGoal).walks
  rw [statement_eq]
  refine .peek_bind (.pure none) fun first => .get_bind fun cursor => ?_
  split
  · exact .next_bind hne fun _ _ => hbody true
  · split
    · exact .next_bind hne fun _ _ => (Walks.setGoalMode true).bind fun _ => hbody true
    · exact advances_body hne _

end Nonempty

end Reading

/-! ### Calls for statements -/

namespace Cursor

variable {c : Cursor} {tokens : List Token}

/-- The cursor after so many calls for the next statement, whatever came of them. -/
def afterCalls (c : Cursor) : Nat → Cursor
  | 0 => c
  | n + 1 => (c.afterCalls n).nextStatement.2

theorem nextStatement_of_rest_eq_nil (h : c.rest = []) : c.nextStatement = (.ok none, c) :=
  Reading.gives_statement_none_iff.2 ⟨h, rfl⟩

theorem On.advances (h : c.On tokens) (hrest : c.rest ≠ []) :
    Reading.Advances tokens Reading.statement := by
  obtain ⟨t, ht⟩ := List.exists_mem_of_ne_nil _ hrest
  exact Reading.advances_statement (List.ne_nil_of_mem (h.mem ht))

theorem On.nextStatement (h : c.On tokens) : c.nextStatement.2.On tokens := by
  by_cases hrest : c.rest = []
  · rw [nextStatement_of_rest_eq_nil hrest]
    exact h
  · exact ((h.advances hrest).walks c h).on

theorem On.afterCalls (h : c.On tokens) : ∀ n, (c.afterCalls n).On tokens
  | 0 => h
  | n + 1 => (h.afterCalls n).nextStatement

theorem On.nextStatement_eq_none_iff (h : c.On tokens) :
    c.nextStatement.1 = .ok none ↔ c.taken = tokens.length := by
  rw [← h.rest_eq_nil_iff]
  constructor
  · intro hnone
    exact (Reading.gives_statement_none_iff.1 (Prod.ext hnone rfl :
      Reading.Gives Reading.statement c none c.nextStatement.2)).1
  · intro hrest
    rw [nextStatement_of_rest_eq_nil hrest]

theorem On.taken_lt_nextStatement (h : c.On tokens) (hnone : c.nextStatement.1 ≠ .ok none) :
    c.taken < c.nextStatement.2.taken := by
  have hrest : c.rest ≠ [] :=
    fun hrest => hnone (h.nextStatement_eq_none_iff.2 (h.rest_eq_nil_iff.1 hrest))
  exact (h.advances hrest).taken_lt h hrest

theorem On.pointsInto_nextStatement (h : c.On tokens) {e : SyntaxError}
    (he : c.nextStatement.1 = .error e) : e.PointsInto tokens := by
  by_cases hrest : c.rest = []
  · rw [nextStatement_of_rest_eq_nil hrest] at he
    cases he
  · exact ((h.advances hrest).walks c h).pointsInto e he

/-- After so many calls one of them has found the end, or as many tokens have been taken. -/
theorem On.exists_end_or_le (h : c.On tokens) : ∀ n,
    (∃ m < n, (c.afterCalls m).nextStatement.1 = .ok none) ∨ n ≤ (c.afterCalls n).taken
  | 0 => .inr (Nat.zero_le _)
  | n + 1 => by
    rcases h.exists_end_or_le n with ⟨m, hm, hend⟩ | hle
    · exact .inl ⟨m, Nat.lt_succ_of_lt hm, hend⟩
    · by_cases hend : (c.afterCalls n).nextStatement.1 = .ok none
      · exact .inl ⟨n, Nat.lt_succ_self n, hend⟩
      · exact .inr (Nat.lt_of_le_of_lt hle ((h.afterCalls n).taken_lt_nextStatement hend))

/-- **Reading statements always goes on**, also after calls that failed. No call goes past the
tokens, a call finds no statement exactly if none of them is left, and every other call takes a
token. So whoever asks until there is no statement asks once more often than there are tokens at
the most. -/
theorem nextStatement_progresses (tokens : List Token) :
    (∀ n, ((ofTokens tokens).afterCalls n).taken ≤ tokens.length ∧
      (((ofTokens tokens).afterCalls n).nextStatement.1 = .ok none ↔
        ((ofTokens tokens).afterCalls n).taken = tokens.length) ∧
      (((ofTokens tokens).afterCalls n).nextStatement.1 ≠ .ok none →
        ((ofTokens tokens).afterCalls n).taken + 1 ≤
          ((ofTokens tokens).afterCalls (n + 1)).taken)) ∧
    ∃ n < tokens.length + 1, ((ofTokens tokens).afterCalls n).nextStatement.1 = .ok none := by
  have hon := (on_ofTokens tokens).afterCalls
  refine ⟨fun n => ⟨(hon n).taken_le, (hon n).nextStatement_eq_none_iff,
    (hon n).taken_lt_nextStatement⟩, ?_⟩
  rcases (on_ofTokens tokens).exists_end_or_le (tokens.length + 1) with hend | hle
  · exact hend
  · have hbound := (hon (tokens.length + 1)).taken_le
    omega

end Cursor

/-! ### Texts -/

namespace Problem

variable {tokens : List Token}

theorem pointsInto_of_read : ∀ {fuel : Nat} {c : Cursor} {p : Problem} {e : SyntaxError},
    c.On tokens → read fuel c p = .error e → e.PointsInto tokens
  | fuel + 1, c, p, e, hc, h => by
    have hnext := hc.nextStatement
    have hpoints : ∀ {e}, c.nextStatement.1 = .error e → e.PointsInto tokens :=
      hc.pointsInto_nextStatement
    rw [read] at h
    split at h
    · rename_i e' c' hcall
      cases h
      exact hpoints (by rw [hcall])
    · cases h
    · rename_i s c' hcall
      rw [hcall] at hnext
      exact pointsInto_of_read hnext h

/-- Every graph takes a problem of regular schemas. -/
theorem load_eq_ok {p : Problem} (hreg : ∀ s ∈ p.schemas, s.Regular) (g : Graph) :
    (p.load g).1 = .ok () := by
  simp only [load, Graph.load, Schema.find?_isInstance hreg, ofList_literals, isGround_literals,
    factsOf?_literals, Bool.not_true, Bool.false_eq_true, if_false]

/-- **A text is a problem, or the error has a place in it.** The problem can be loaded on every
graph. The error is at one of the tokens, or at the character at which the text stops to be read as
tokens. And nothing else can go wrong: an argument has a first character, by which it is known to be
a variable or a constant. -/
theorem parse_located (text : String) :
    ((∃ p, parse text = .ok p ∧ ∀ g : Graph, (p.load g).1 = .ok ()) ∨
      ∃ e position, parse text = .error e ∧ e.position? = some position ∧
        ((∃ tokens, tokenize text = .ok tokens ∧ ∃ t ∈ tokens, t.position = position) ∨
          ∃ stop : LexError, tokenize text = .error stop ∧ stop.Stops text.toList ∧
            stop.position = position)) ∧
    ∀ tokens, tokenize text = .ok tokens → ∀ t ∈ tokens, t.text? ≠ some "" := by
  constructor
  · cases hparse : parse text with
    | ok p => exact .inl ⟨p, rfl, load_eq_ok (regular_of_parse hparse)⟩
    | error e =>
      right
      rw [parse] at hparse
      split at hparse
      · rename_i stop hstop
        cases hparse
        exact ⟨_, stop.position, rfl, rfl, .inr ⟨stop, hstop, stops_of_tokenize hstop, rfl⟩⟩
      · rename_i tokens htokens
        obtain ⟨t, ht, hposition⟩ := pointsInto_of_read (Cursor.on_ofTokens tokens) hparse
        exact ⟨e, t.position, rfl, hposition, .inl ⟨tokens, htokens, t, ht, rfl⟩⟩
  · intro tokens htokens t ht hempty
    obtain ⟨lexeme, position⟩ := t
    cases lexeme with
    | identifier x =>
      cases hempty
      obtain ⟨c, rest, hword, -⟩ := isWord_of_tokenize htokens (List.mem_map_of_mem ht)
      cases hword
    | _ => cases hempty

end Problem

end Strips
