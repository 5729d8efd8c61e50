import Strips.Proofs.Acceptance
import Strips.Proofs.Progress

/-!
# Blocks of goals

The word `goals` opens a block in which facts are goals, and the next action closes it. Whether a
block is open is all that a reader of statements keeps from one statement to the next. It is decided
by the tokens at which the statements so far have started, whatever came of them: also an action
that is refused closes the block, and so do `goals` and `goal` before an action.

So it depends on the history whether `goal` may stand before an action. Outside a block it may not,
and the error is at the `::` that follows the name. Within a block the reader takes facts to be
goals anyway, and reads the action as if `goal` did not stand there.

## Main definitions

* `Reading.Steady` – a reader neither opens nor closes a block.
* `Cursor.OpensBlock`, `Cursor.StartsAction` – the statements that do.
* `Cursor.InBlock` – a block is open after so many calls.

## Main results

* `Cursor.goalMode_nextStatement` – one call.
* `Cursor.goalMode_afterCalls_iff` – any number of calls.
* `Cursor.goal_refused_outside_blocks` – `goal` before an action.
-/

namespace Strips

/-! ### Readers that leave the block as it is -/

namespace Reading

variable {α β : Type} {c c' : Cursor}

/-- The reader neither opens nor closes a block, however it ends. -/
def Steady (r : Reading α) : Prop := ∀ c, (r.outcome c).2.goalMode = c.goalMode

theorem Steady.of_gives {r : Reading α} (hr : Steady r) {x : α} (h : Gives r c x c') :
    c'.goalMode = c.goalMode := by
  have hc := hr c
  rwa [show r.outcome c = (.ok x, c') from h] at hc

theorem Steady.bind {r : Reading α} {f : α → Reading β} (hr : Steady r) (hf : ∀ x, Steady (f x)) :
    Steady (r >>= f) := by
  intro c
  have hfirst := hr c
  rcases hrun : r.outcome c with ⟨e | x, c₁⟩
  · rw [hrun] at hfirst
    rw [outcome_bind_of_error hrun]
    exact hfirst
  · rw [hrun] at hfirst
    rw [outcome_bind_of_gives hrun]
    exact (hf x c₁).trans hfirst

theorem Steady.pure (x : α) : Steady (pure x : Reading α) := fun _ => rfl

theorem Steady.throw (e : SyntaxError) : Steady (throw e : Reading α) := fun _ => rfl

theorem Steady.unexpected (t : Token) (expected : Expectation) :
    Steady (unexpected t expected : Reading α) := .throw _

theorem Steady.endOfInput : Steady (endOfInput : Reading α) := fun _ => rfl

theorem Steady.get : Steady get := fun _ => rfl

theorem Steady.peek : Steady peek := fun _ => rfl

theorem Steady.next : Steady next := by
  intro c
  rw [outcome_next]
  cases c.rest <;> rfl

theorem Steady.identifier (expected : Expectation) : Steady (identifier expected) := by
  refine Steady.next.bind fun t => ?_
  split
  · exact .pure _
  · exact .unexpected t expected

theorem Steady.mark (lexeme : Lexeme) (expected : Expectation) : Steady (mark lexeme expected) := by
  refine Steady.next.bind fun t => ?_
  split
  · exact .pure _
  · exact .unexpected t expected

theorem Steady.nameOf {t : Token} {expected : Expectation} {f : String → Reading α}
    (hf : ∀ x, Steady (f x)) : Steady (nameOf t expected f) := by
  rw [Reading.nameOf]
  split
  · exact hf _
  · exact .unexpected t expected

theorem Steady.turn {terminator : Lexeme} {noComma noItem : Expectation} {first : Bool}
    {stop : Reading α} {f : String → Reading α} (hstop : Steady stop) (hf : ∀ x, Steady (f x)) :
    Steady (turn terminator noComma noItem first stop f) := by
  refine Steady.next.bind fun t => ?_
  split
  · exact hstop
  · split
    · exact .nameOf hf
    · split
      · exact Steady.next.bind fun u => .nameOf hf
      · exact .unexpected t noComma

/-- A loop over a list, by induction on the turns that are left. -/
theorem Loops.steady {terminator : Lexeme} {item : String → Vocabulary → Reading (β × Vocabulary)}
    {loop : Nat → List β → Vocabulary → Reading (List β × Vocabulary)}
    (hloop : Loops terminator item loop) (hitem : ∀ name v, Steady (item name v)) :
    ∀ (fuel : Nat) (items : List β) (v : Vocabulary), Steady (loop fuel items v)
  | 0, items, v => by
    rw [hloop.zero]
    exact .endOfInput
  | fuel + 1, items, v => by
    obtain ⟨noComma, noItem, hsucc⟩ := hloop.succ
    rw [hsucc]
    exact .turn (.pure _) fun name =>
      (hitem name v).bind fun _ => Loops.steady hloop hitem fuel _ _

theorem steady_literal (name : String) (v : Vocabulary) : Steady (literal name v) := by
  refine Steady.peek.bind fun following => ?_
  split
  · refine Steady.next.bind fun _ => Steady.get.bind fun _ => ?_
    exact (loops_arguments.steady (fun _ _ => .pure _) _ _ _).bind fun _ => .pure _
  · exact .pure _

theorem steady_effect (name : String) (v : Vocabulary) : Steady (effect name v) := by
  rw [effect]
  split
  · exact (Steady.identifier _).bind fun _ => (steady_literal _ v).bind fun _ => .pure _
  · exact (steady_literal _ v).bind fun _ => .pure _

theorem steady_schema (name : String) (position : Position) : Steady (schema name position) := by
  have hliterals := loops_listUntil .arrow nofun nofun nofun literal
  have heffects := loops_listUntil .dot nofun nofun nofun effect
  refine (Steady.mark _ _).bind fun _ => Steady.get.bind fun _ => ?_
  refine (hliterals.steady steady_literal _ _ _).bind fun _ => ?_
  refine (heffects.steady steady_effect _ _ _).bind fun _ => ?_
  dsimp only
  split
  · exact .pure _
  · exact .throw _

theorem steady_factBody (isGoal : Bool) (name : Token × String) :
    Steady (factBody isGoal name) := by
  refine Steady.bind ?_ fun _ => .pure _
  refine (steady_literal _ {}).bind fun _ => (Steady.mark _ _).bind fun _ => ?_
  split
  · exact .pure _
  · exact .throw _

/-! ### Statements that open or close a block -/

/-- An action closes the block, also if it is refused. If there is none, it is refused for a `goal`
before it, and there is none afterwards. -/
theorem goalMode_actionBody (isGoal : Bool) (name : Token × String) (t : Token) (c : Cursor) :
    ((actionBody isGoal name t).outcome c).2.goalMode = false := by
  have hget : Gives get c c c := gives_get_iff.2 ⟨rfl, rfl⟩
  rw [actionBody, outcome_bind_of_gives hget]
  split
  · rename_i hgoal
    rw [Bool.and_eq_true, Bool.not_eq_true'] at hgoal
    exact hgoal.2
  · have hset : Gives (setGoalMode false) c () (c.inMode false) := gives_setGoalMode_iff.2 rfl
    rw [outcome_bind_of_gives hset]
    exact ((steady_schema _ _).bind fun _ => .pure _) (c.inMode false)

end Reading

/-- A name and `::` come next. -/
def Lexeme.NameAction (ls : List Lexeme) : Prop := ∃ x rest, ls = .identifier x :: .quadDot :: rest

/-- What the reader takes for the rest of a statement, after its keyword. -/
def Lexeme.afterKeyword : List Lexeme → List Lexeme
  | [] => []
  | l :: rest => if l ∈ [.identifier Keyword.goal.word, .identifier Keyword.goals.word] then rest
      else l :: rest

namespace Reading

theorem goalMode_body_iff (isGoal : Bool) (c : Cursor) :
    ((body isGoal).outcome c).2.goalMode = true ↔
      ¬Lexeme.NameAction (c.rest.map (·.lexeme)) ∧ c.goalMode = true := by
  rw [body_eq]
  rcases hname : (identifier .name).outcome c with ⟨e | ⟨t, x⟩, c₁⟩
  · have hmode := Steady.identifier .name c
    rw [hname] at hmode
    rw [outcome_bind_of_error hname, hmode, iff_and_self]
    rintro - ⟨x, rest, hrest⟩
    obtain ⟨t, tail, ht, hl, -⟩ := List.map_eq_cons_iff.1 hrest
    have hgives : Gives (identifier .name) c (t, x) (c.after tail) :=
      gives_identifier_iff.2 ⟨gives_next_iff.2 ⟨tail, ht, rfl⟩, hl⟩
    cases hname.symm.trans hgives
  · have hmode : c₁.goalMode = c.goalMode := (Steady.identifier _).of_gives hname
    obtain ⟨hnext, hl⟩ := gives_identifier_iff.1 hname
    obtain ⟨tail, ht, rfl⟩ := gives_next_iff.1 hnext
    have hpeek : Gives peek (c.after tail) tail.head? (c.after tail) := gives_peek_iff.2 ⟨rfl, rfl⟩
    have hnamed : Lexeme.NameAction (c.rest.map (·.lexeme)) ↔
        ∃ q ∈ tail.head?, q.lexeme = .quadDot := by
      rw [ht, List.map_cons, hl]
      cases tail <;> simp [Lexeme.NameAction]
    rw [outcome_bind_of_gives hname, outcome_bind_of_gives hpeek, hnamed, ← hmode]
    cases tail with
    | nil => simpa using Steady.endOfInput (α := Option Statement) (c.after [])
    | cons q tail =>
      simp only [List.head?_cons, Option.mem_def, Option.some.injEq, exists_eq_left']
      split
      · rename_i hq
        simp [hq, goalMode_actionBody]
      · rename_i hq
        simp [hq, steady_factBody isGoal (t, x) _]
      · rename_i hq
        simp [hq, steady_factBody isGoal (t, x) _]
      · rename_i hquad _ _
        have hq : q.lexeme ≠ .quadDot := hquad
        simp [hq, Steady.unexpected (α := Option Statement) q .afterName (c.after (q :: tail))]

end Reading

namespace Cursor

/-- The word `goals` comes next. -/
def OpensBlock (c : Cursor) : Prop :=
  ∃ t ∈ c.rest.head?, t.lexeme = .identifier Keyword.goals.word

/-- The name of an action and `::` come next, perhaps after a keyword. -/
def StartsAction (c : Cursor) : Prop :=
  Lexeme.NameAction (Lexeme.afterKeyword (c.rest.map (·.lexeme)))

open Reading in
/-- **One call.** After it a block is open if it was before or `goals` opened it, and no action has
closed it. -/
theorem goalMode_nextStatement_iff (c : Cursor) :
    c.nextStatement.2.goalMode = true ↔
      ¬c.StartsAction ∧ (c.OpensBlock ∨ c.goalMode = true) := by
  have hpeek : Gives peek c c.rest.head? c := gives_peek_iff.2 ⟨rfl, rfl⟩
  have hget : Gives get c c c := gives_get_iff.2 ⟨rfl, rfl⟩
  change (statement.outcome c).2.goalMode = true ↔ _
  rw [statement_eq, outcome_bind_of_gives hpeek, StartsAction, OpensBlock]
  cases hrest : c.rest with
  | nil => simp [Lexeme.afterKeyword, Lexeme.NameAction, Steady.pure (none : Option Statement) c]
  | cons t tail =>
    have hnext : Gives next c t (c.after tail) := gives_next_iff.2 ⟨tail, hrest, rfl⟩
    have hset : Gives (setGoalMode true) (c.after tail) () ((c.after tail).inMode true) :=
      gives_setGoalMode_iff.2 rfl
    have hword : ∀ k : Keyword, t.isWord k.word = true ↔ t.lexeme = .identifier k.word :=
      fun k => beq_iff_eq
    have hne : Lexeme.identifier Keyword.goal.word ≠ .identifier Keyword.goals.word := by decide
    simp only [List.head?_cons, outcome_bind_of_gives hget, List.map_cons, Lexeme.afterKeyword,
      hword, Option.mem_def, Option.some.injEq, exists_eq_left', List.mem_cons, List.not_mem_nil,
      or_false]
    by_cases hgoal : t.lexeme = .identifier Keyword.goal.word
    · rw [if_pos hgoal, outcome_bind_of_gives hnext, goalMode_body_iff, if_pos (.inl hgoal), hgoal]
      simp only [hne, false_or]
      exact Iff.rfl
    · by_cases hgoals : t.lexeme = .identifier Keyword.goals.word
      · rw [if_neg hgoal, if_pos hgoals, outcome_bind_of_gives hnext, outcome_bind_of_gives hset,
          goalMode_body_iff, if_pos (.inr hgoals)]
        simp only [hgoals, true_or, and_true]
        exact and_iff_left rfl
      · rw [if_neg hgoal, if_neg hgoals, goalMode_body_iff, if_neg (not_or.2 ⟨hgoal, hgoals⟩),
          hrest, List.map_cons]
        simp only [hgoals, false_or]

/-- A block is open after so many calls: `goals` opened it at one of them, and no action has started
since. -/
def InBlock (tokens : List Token) (n : Nat) : Prop :=
  ∃ m < n, ((ofTokens tokens).afterCalls m).OpensBlock ∧
    ∀ k, m ≤ k → k < n → ¬((ofTokens tokens).afterCalls k).StartsAction

/-- **Any number of calls.** Facts are goals exactly within blocks. -/
theorem goalMode_afterCalls_iff (tokens : List Token) : ∀ n,
    ((ofTokens tokens).afterCalls n).goalMode = true ↔ InBlock tokens n
  | 0 => ⟨nofun, nofun⟩
  | n + 1 => by
    rw [afterCalls, goalMode_nextStatement_iff, goalMode_afterCalls_iff tokens n]
    constructor
    · rintro ⟨haction, hopens | ⟨m, hm, hopens, hsince⟩⟩
      · refine ⟨n, Nat.lt_succ_self n, hopens, fun k hk hkn => ?_⟩
        rwa [Nat.le_antisymm (Nat.le_of_lt_succ hkn) hk]
      · refine ⟨m, Nat.lt_succ_of_lt hm, hopens, fun k hk hkn => ?_⟩
        rcases Nat.lt_succ_iff_lt_or_eq.1 hkn with hkn | rfl
        · exact hsince k hk hkn
        · exact haction
    · rintro ⟨m, hm, hopens, hsince⟩
      refine ⟨hsince n (Nat.le_of_lt_succ hm) (Nat.lt_succ_self n), ?_⟩
      rcases Nat.lt_succ_iff_lt_or_eq.1 hm with hm | rfl
      · exact .inr ⟨m, hm, hopens, fun k hk hkn => hsince k hk (Nat.lt_succ_of_lt hkn)⟩
      · exact .inl hopens

/-! ### `goal` before an action -/

section Goal

variable {c : Cursor} {goal name quad : Token} {rest : List Token} {x : String}
  (hrest : c.rest = goal :: name :: quad :: rest)
  (hgoal : goal.lexeme = .identifier Keyword.goal.word) (hname : name.lexeme = .identifier x)
  (hquad : quad.lexeme = .quadDot)

include hrest hgoal hname hquad

open Reading in
/-- What comes of an action after `goal`. -/
theorem nextStatement_of_goal :
    c.nextStatement = (actionBody true (name, x) quad).outcome
      ((c.after (name :: quad :: rest)).after (quad :: rest)) := by
  have hpeek : Gives peek c c.rest.head? c := gives_peek_iff.2 ⟨rfl, rfl⟩
  have hget : Gives get c c c := gives_get_iff.2 ⟨rfl, rfl⟩
  have hnext : Gives next c goal (c.after (name :: quad :: rest)) :=
    gives_next_iff.2 ⟨_, hrest, rfl⟩
  have hidentifier : Gives (identifier .name) (c.after (name :: quad :: rest)) (name, x)
      ((c.after (name :: quad :: rest)).after (quad :: rest)) :=
    gives_identifier_iff.2 ⟨gives_next_iff.2 ⟨_, rfl, rfl⟩, hname⟩
  have hfollowing : Gives peek ((c.after (name :: quad :: rest)).after (quad :: rest)) (some quad)
      ((c.after (name :: quad :: rest)).after (quad :: rest)) := gives_peek_iff.2 ⟨rfl, rfl⟩
  have hword : goal.isWord Keyword.goal.word = true := beq_iff_eq.2 hgoal
  change statement.outcome c = _
  rw [statement_eq, outcome_bind_of_gives hpeek, hrest]
  simp only [List.head?_cons, outcome_bind_of_gives hget, hword, if_true,
    outcome_bind_of_gives hnext]
  rw [body_eq, outcome_bind_of_gives hidentifier, outcome_bind_of_gives hfollowing]
  simp only [hquad]

/-- Where no block is open, the action is refused at its `::`, and has not been touched. -/
theorem nextStatement_of_goal_of_goalMode_eq_false (hmode : c.goalMode = false) :
    c.nextStatement = (.error (.unexpected quad .factAfterGoal),
      (c.after (name :: quad :: rest)).after (quad :: rest)) := by
  have hmode' : ((c.after (name :: quad :: rest)).after (quad :: rest)).goalMode = false := hmode
  have hget : Reading.Gives get ((c.after (name :: quad :: rest)).after (quad :: rest))
      ((c.after (name :: quad :: rest)).after (quad :: rest))
      ((c.after (name :: quad :: rest)).after (quad :: rest)) := Reading.gives_get_iff.2 ⟨rfl, rfl⟩
  rw [nextStatement_of_goal hrest hgoal hname hquad, Reading.actionBody,
    Reading.outcome_bind_of_gives hget, hmode']
  rfl

end Goal

/-- Within a block an action of the grammar is read after `goal`. -/
theorem exists_nextStatement_of_goal_of_goalMode {c : Cursor} (hmode : c.goalMode = true)
    {a : WrittenAction} (hleads : ∀ e ∈ a.effects, e.Leads) (hadmissible : a.Admissible)
    {more : List Lexeme}
    (hrest : c.rest.map (·.lexeme) =
      (⟨some .goal, .action a⟩ : WrittenStatement).lexemes ++ more) :
    ∃ s cell c', c.nextStatement = (.ok (some (.schema s)), c') ∧ s.Says a cell ∧
      c'.rest.map (·.lexeme) = more := by
  obtain ⟨c₁, htakes⟩ := exists_takes hrest
  obtain ⟨s, hs⟩ := WrittenAction.exists_build_iff.2 hadmissible
  have hstatement := Reading.gives_statement_iff.2
    ⟨⟨some .goal, .action a⟩, c₁, ⟨nofun, fun _ h => WrittenBody.action.inj h ▸ hleads⟩,
      fun _ => .inr hmode, htakes, rfl, s, hs, rfl⟩
  exact ⟨s, _, _, hstatement, WrittenAction.says_of_build hs,
    (List.append_cancel_left (hrest.symm.trans htakes.rest)).symm⟩

/-- **An action after `goal`** is refused at its `::` unless a block of goals is open, whatever was
read before. In a block every action of the grammar is read there. -/
theorem goal_refused_outside_blocks {tokens : List Token} {n : Nat} {goal name quad : Token}
    {rest : List Token} {x : String}
    (hrest : ((ofTokens tokens).afterCalls n).rest = goal :: name :: quad :: rest)
    (hgoal : goal.lexeme = .identifier "goal") (hname : name.lexeme = .identifier x)
    (hquad : quad.lexeme = .quadDot) :
    (¬InBlock tokens n → ((ofTokens tokens).afterCalls n).nextStatement.1 =
      .error (.unexpected quad .factAfterGoal)) ∧
    (InBlock tokens n → ∀ (a : WrittenAction) (more : List Lexeme),
      a.name = x → (∀ e ∈ a.effects, e.Leads) → a.Admissible →
      (quad :: rest).map (·.lexeme) = a.tail ++ more →
      ∃ s cell, ((ofTokens tokens).afterCalls n).nextStatement.1 = .ok (some (.schema s)) ∧
        s.Says a cell ∧
        ((ofTokens tokens).afterCalls (n + 1)).rest.map (·.lexeme) = more) := by
  rw [← goalMode_afterCalls_iff, Bool.not_eq_true]
  constructor
  · intro hmode
    rw [nextStatement_of_goal_of_goalMode_eq_false hrest hgoal hname hquad hmode]
  · rintro hmode a more rfl hleads hadmissible htail
    have hlexemes : ((ofTokens tokens).afterCalls n).rest.map (·.lexeme) =
        (⟨some .goal, .action a⟩ : WrittenStatement).lexemes ++ more := by
      rw [hrest, List.map_cons, List.map_cons, htail, hgoal, hname]
      rfl
    obtain ⟨s, cell, c', hnext, hstated, hmore⟩ :=
      exists_nextStatement_of_goal_of_goalMode hmode hleads hadmissible hlexemes
    refine ⟨s, cell, by rw [hnext], hstated, ?_⟩
    rw [afterCalls, hnext]
    exact hmore

/-- An action has closed the block of goals. -/
theorem goal_refused_outside_blocks_fly :
    ¬InBlock ((tokenize "goals up. fly :: up => up. goal fly :: up => up.").toOption.getD []) 2 ∧
    ((ofTokens ((tokenize
      "goals up. fly :: up => up. goal fly :: up => up.").toOption.getD [])).afterCalls
        2).nextStatement.1 = .error (.unexpected ⟨.quadDot, ⟨1, 37⟩⟩ .factAfterGoal) := by
  have hblock : ¬InBlock
      ((tokenize "goals up. fly :: up => up. goal fly :: up => up.").toOption.getD []) 2 := by
    rw [← goalMode_afterCalls_iff]
    decide +kernel
  have hrest : ((ofTokens ((tokenize
      "goals up. fly :: up => up. goal fly :: up => up.").toOption.getD [])).afterCalls 2).rest =
      ⟨.identifier "goal", ⟨1, 28⟩⟩ :: ⟨.identifier "fly", ⟨1, 33⟩⟩ :: ⟨.quadDot, ⟨1, 37⟩⟩ ::
        [⟨.identifier "up", ⟨1, 40⟩⟩, ⟨.arrow, ⟨1, 43⟩⟩, ⟨.identifier "up", ⟨1, 46⟩⟩,
          ⟨.dot, ⟨1, 48⟩⟩] := by
    decide +kernel
  exact ⟨hblock, (goal_refused_outside_blocks hrest rfl rfl rfl).1 hblock⟩

/-- So it is not refused after every history: here a block is open. -/
theorem goal_not_always_refused :
    ¬∀ {tokens : List Token} {n : Nat} {goal name quad : Token} {rest : List Token} {x : String},
      ((ofTokens tokens).afterCalls n).rest = goal :: name :: quad :: rest →
      goal.lexeme = .identifier "goal" → name.lexeme = .identifier x → quad.lexeme = .quadDot →
      ((ofTokens tokens).afterCalls n).nextStatement.1 =
        .error (.unexpected quad .factAfterGoal) := by
  intro h
  have hread : ((ofTokens ((tokenize "goals up. goal fly :: up => up.").toOption.getD
      [])).afterCalls 1).nextStatement.1.toOption.isSome = true := by decide +kernel
  have hrest : ((ofTokens ((tokenize "goals up. goal fly :: up => up.").toOption.getD
      [])).afterCalls 1).rest =
      ⟨.identifier "goal", ⟨1, 11⟩⟩ :: ⟨.identifier "fly", ⟨1, 16⟩⟩ :: ⟨.quadDot, ⟨1, 20⟩⟩ ::
        [⟨.identifier "up", ⟨1, 23⟩⟩, ⟨.arrow, ⟨1, 26⟩⟩, ⟨.identifier "up", ⟨1, 29⟩⟩,
          ⟨.dot, ⟨1, 31⟩⟩] := by
    decide +kernel
  rw [h hrest rfl rfl rfl] at hread
  cases hread

end Cursor

end Strips
