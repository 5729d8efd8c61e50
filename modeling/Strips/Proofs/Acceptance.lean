import Strips.Proofs.Elaboration

/-!
# The texts that are read

A text is read as a problem exactly if it is a sequence of statements of the grammar that use their
variables as they may, and the problem lists what they say. Each statement is read as it is written,
so both follow by induction on the statements. What passes from one to the next is whether facts are
goals.

The reader takes one thing more: after `goals` it lets `goal` stand before an action. Texts with
`goal` before an action are left out.

## Main definitions

* `WrittenStatement.Accepted` – statements, one after the other, that the reader takes.
* `GoalBeforeAction` – somewhere `goal` stands before an action.

## Main results

* `Problem.read_eq_ok_iff` – reading statements up to the end.
* `Problem.parse_accepts_grammar` – the texts of problems, and what is read from them.
-/

namespace Strips

namespace WrittenStatement

/-- A statement of the grammar and of the right use of variables says something. -/
theorem exists_means_iff {w : WrittenStatement} (goalMode : Bool) :
    (∃ s, w.Means goalMode s) ↔ w.Admissible := by
  obtain ⟨k, l | a⟩ := w
  · constructor
    · rintro ⟨s, f, hf, -⟩
      exact (WrittenLiteral.fact?_eq_some_iff.1 hf).1
    · exact fun h => ⟨_, l.fact, WrittenLiteral.fact?_eq_some_iff.2 ⟨h, rfl⟩, rfl⟩
  · constructor
    · rintro ⟨s, t, ht, -⟩
      exact WrittenAction.exists_build_iff.1 ⟨t, ht⟩
    · intro h
      obtain ⟨t, ht⟩ := WrittenAction.exists_build_iff.2 h
      exact ⟨.schema t, t, ht, rfl⟩

/-- Statements that the reader takes, and what it reads. -/
inductive Accepted : Bool → List WrittenStatement → List Statement → Prop
  | nil {goalMode} : Accepted goalMode [] []
  | cons {goalMode w ws s ss} : w.Leads →
      (w.keyword = some .goal → (∃ l, w.body = .fact l) ∨ goalMode = true) → w.Means goalMode s →
      Accepted (w.modeAfter goalMode) ws ss → Accepted goalMode (w :: ws) (s :: ss)

end WrittenStatement

namespace Problem

open WrittenStatement

/-- **Reading up to the end** is successful exactly for statements that are accepted. -/
theorem read_eq_ok_iff : ∀ {fuel : Nat} {c : Cursor} {p q : Problem}, c.rest.length < fuel →
    (read fuel c p = .ok q ↔ ∃ ws ss, Accepted c.goalMode ws ss ∧
      c.rest.map (·.lexeme) = ws.flatMap (·.lexemes) ∧ q = ss.foldl add p)
  | fuel + 1, c, p, q, hfuel => by
    have hnext : ∀ {s c'}, c.nextStatement = (.ok s, c') ↔ Reading.Gives Reading.statement c s c' :=
      Iff.rfl
    constructor
    · intro h
      rw [read] at h
      rcases hs : c.nextStatement with ⟨e | _ | s, c'⟩
      · rw [hs] at h
        cases h
      · rw [hs] at h
        obtain ⟨hrest, -⟩ := Reading.gives_statement_none_iff.1 (hnext.1 hs)
        exact ⟨[], [], .nil, by rw [hrest]; rfl, (Except.ok.inj h).symm⟩
      · rw [hs] at h
        obtain ⟨w, c₁, hleads, hgoal, htakes, rfl, hmeans⟩ :=
          Reading.gives_statement_iff.1 (hnext.1 hs)
        have hrest := htakes.rest
        have hlength := congrArg List.length hrest
        have hpos := w.length_lexemes_pos
        simp only [List.length_append, List.length_map] at hlength
        have hfuel' : (c₁.inMode (w.modeAfter c.goalMode)).rest.length < fuel := by
          change c₁.rest.length < fuel
          omega
        obtain ⟨ws, ss, haccepted, hws, rfl⟩ := (read_eq_ok_iff hfuel').1 h
        exact ⟨w :: ws, s :: ss, .cons hleads hgoal hmeans haccepted, by
          rw [hrest, List.flatMap_cons, ← hws]
          rfl, rfl⟩
    · rintro ⟨ws, ss, haccepted, hws, rfl⟩
      rw [read]
      cases haccepted with
      | nil =>
        have hnone := hnext.2 (Reading.gives_statement_none_iff.2 ⟨List.map_eq_nil_iff.1 hws, rfl⟩)
        rw [hnone]
        rfl
      | @cons _ w ws s ss hleads hgoal hmeans haccepted =>
        rw [List.flatMap_cons] at hws
        obtain ⟨c₁, htakes⟩ := Cursor.exists_takes hws
        have hstatement := hnext.2
          (Reading.gives_statement_iff.2 ⟨w, c₁, hleads, hgoal, htakes, rfl, hmeans⟩)
        have hrest := htakes.rest
        have hlength := congrArg List.length hrest
        have hpos := w.length_lexemes_pos
        simp only [List.length_append, List.length_map] at hlength
        have hfuel' : (c₁.inMode (w.modeAfter c.goalMode)).rest.length < fuel := by
          change c₁.rest.length < fuel
          omega
        rw [hstatement]
        exact (read_eq_ok_iff hfuel').2
          ⟨ws, ss, haccepted, (List.append_cancel_left (hws.symm.trans hrest)).symm, rfl⟩

/-! ### What is listed -/

theorem insertFact_eraseDups (done : List Fact) (f : Fact) :
    insertFact done.eraseDups f = (done ++ [f]).eraseDups := by
  rw [eraseDups_concat, insertFact]
  simp only [List.contains_iff_mem, List.mem_eraseDups]

/-- What accepted statements add to a problem. -/
theorem lists_of_accepted {mode : Bool} {ws : List WrittenStatement} {ss : List Statement}
    (h : Accepted mode ws ss) {p : Problem} {initial goals : List Fact}
    (hinitial : p.initial = initial.eraseDups) (hgoals : p.goals = goals.eraseDups) :
    (∃ schemas, (ss.foldl add p).schemas = p.schemas ++ schemas ∧
      List.Forall₂ (fun s a => ∃ cell, s.Says a cell) schemas (ws.filterMap (·.action?))) ∧
    (ss.foldl add p).initial =
      (initial ++ ((facts mode ws).filter (!·.1)).map Prod.snd).eraseDups ∧
    (ss.foldl add p).goals = (goals ++ ((facts mode ws).filter (·.1)).map Prod.snd).eraseDups := by
  induction h generalizing p initial goals with
  | nil =>
    exact ⟨⟨[], by simp, .nil⟩, by simpa [facts] using hinitial, by simpa [facts] using hgoals⟩
  | @cons mode w ws s ss hleads hgoal hmeans haccepted ih =>
    obtain ⟨k, l | a⟩ := w
    · obtain ⟨f, hf, rfl⟩ := hmeans
      obtain ⟨-, rfl⟩ := WrittenLiteral.fact?_eq_some_iff.1 hf
      have hfacts : facts mode (⟨k, .fact l⟩ :: ws) = (mode || k.isSome, l.fact) ::
          facts ((⟨k, .fact l⟩ : WrittenStatement).modeAfter mode) ws := rfl
      rw [hfacts, List.filterMap_cons_none rfl, List.foldl_cons]
      cases mode || k.isSome with
      | true =>
        have hgoals' : (p.add (.goal l.fact)).goals = (goals ++ [l.fact]).eraseDups := by
          rw [← insertFact_eraseDups, ← hgoals]
          rfl
        have hschemas : (p.add (.goal l.fact)).schemas = p.schemas := rfl
        simpa [hschemas] using ih (p := p.add (.goal l.fact)) hinitial hgoals'
      | false =>
        have hinitial' : (p.add (.fact l.fact)).initial = (initial ++ [l.fact]).eraseDups := by
          rw [← insertFact_eraseDups, ← hinitial]
          rfl
        have hschemas : (p.add (.fact l.fact)).schemas = p.schemas := rfl
        simpa [hschemas] using ih (p := p.add (.fact l.fact)) hinitial' hgoals
    · obtain ⟨t, ht, rfl⟩ := hmeans
      obtain ⟨⟨schemas, hschemas, hsays⟩, hinitial', hgoals'⟩ :=
        ih (p := p.add (.schema t)) hinitial hgoals
      refine ⟨⟨t :: schemas, ?_, .cons ⟨_, WrittenAction.says_of_build ht⟩ hsays⟩, hinitial',
        hgoals'⟩
      rw [List.foldl_cons, hschemas]
      simp [add]

/-- The problem of accepted statements lists them. -/
theorem lists_foldl {ws : List WrittenStatement} {ss : List Statement} (h : Accepted false ws ss) :
    (ss.foldl add {}).Lists ws := by
  have hnone : ([] : List Fact) = ([] : List Fact).eraseDups := rfl
  obtain ⟨⟨schemas, hschemas, hsays⟩, hinitial, hgoals⟩ :=
    lists_of_accepted h (p := {}) hnone hnone
  rw [List.nil_append] at hschemas hinitial hgoals
  exact ⟨hschemas ▸ hsays, hinitial, hgoals⟩

end Problem

/-! ### Texts -/

namespace WrittenStatement

/-- Statements of the grammar and of the right use of variables are accepted. -/
theorem exists_accepted : ∀ (mode : Bool) {ws : List WrittenStatement},
    (∀ w ∈ ws, w.Grammatical ∧ w.Admissible) → ∃ ss, Accepted mode ws ss
  | _, [], _ => ⟨[], .nil⟩
  | mode, w :: ws, h => by
    obtain ⟨⟨hgrammatical, hadmissible⟩, hws⟩ := List.forall_mem_cons.1 h
    obtain ⟨s, hs⟩ := (exists_means_iff mode).2 hadmissible
    obtain ⟨ss, hss⟩ := exists_accepted (w.modeAfter mode) hws
    exact ⟨s :: ss, .cons hgrammatical.toLeads (fun hk => .inl (hgrammatical.fact hk)) hs hss⟩

end WrittenStatement

/-- After statements of the grammar, `goal` stands before an action. -/
def GoalBeforeAction (ls : List Lexeme) : Prop :=
  ∃ (ws : List WrittenStatement) (a : WrittenAction) (rest : List Lexeme),
    (∀ w ∈ ws, w.Grammatical) ∧ (∀ e ∈ a.effects, e.Leads) ∧
      ls = ws.flatMap (·.lexemes) ++
        ((⟨some .goal, .action a⟩ : WrittenStatement).lexemes ++ rest)

theorem GoalBeforeAction.goal_mem {ls : List Lexeme} (h : GoalBeforeAction ls) :
    .identifier "goal" ∈ ls := by
  obtain ⟨ws, a, rest, -, -, rfl⟩ := h
  exact List.mem_append_right _ (List.mem_append_left _ List.mem_cons_self)

namespace WrittenStatement

/-- Accepted statements after others are those of the grammar, if `goal` does not stand before an
action. -/
theorem grammatical_of_accepted {mode : Bool} {ws : List WrittenStatement} {ss : List Statement}
    (h : Accepted mode ws ss) (before : List WrittenStatement)
    (hbefore : ∀ w ∈ before, w.Grammatical)
    (hgoal : ¬GoalBeforeAction (before.flatMap (·.lexemes) ++ ws.flatMap (·.lexemes))) :
    ∀ w ∈ ws, w.Grammatical ∧ w.Admissible := by
  induction h generalizing before with
  | nil => exact fun w hw => absurd hw List.not_mem_nil
  | @cons mode w ws s ss hleads hfact hmeans haccepted ih =>
    have hw : w.Grammatical := by
      refine ⟨hleads, fun hk => ?_⟩
      obtain ⟨k, l | a⟩ := w
      · exact ⟨l, rfl⟩
      · obtain rfl : k = some .goal := hk
        exact absurd ⟨before, a, ws.flatMap (·.lexemes), hbefore, hleads.effects a rfl,
          by rw [List.flatMap_cons]⟩ hgoal
    refine List.forall_mem_cons.2 ⟨⟨hw, (exists_means_iff mode).1 ⟨s, hmeans⟩⟩, ?_⟩
    refine ih (before ++ [w]) (fun v hv => ?_) ?_
    · rcases List.mem_append.1 hv with hv | hv
      · exact hbefore v hv
      · exact List.mem_singleton.1 hv ▸ hw
    · simpa using hgoal

end WrittenStatement

namespace Problem

open WrittenStatement

/-- Lists of tokens that are read, and what is read from them. -/
theorem ofTokens_eq_ok_iff {tokens : List Token} {p : Problem} :
    ofTokens tokens = .ok p ↔ ∃ ws ss, Accepted false ws ss ∧
      tokens.map (·.lexeme) = ws.flatMap (·.lexemes) ∧ p = ss.foldl add {} :=
  read_eq_ok_iff (Nat.lt_succ_self _)

/-- **The reader accepts exactly the grammar**, and the problem lists exactly what is written: in a
text without `goal` before an action. -/
theorem parse_accepts_grammar {text : String} {tokens : List Token}
    (htokens : tokenize text = .ok tokens)
    (hgoal : ¬GoalBeforeAction (tokens.map (·.lexeme))) :
    ((∃ p, parse text = .ok p) ↔ ∃ ws : List WrittenStatement,
      tokens.map (·.lexeme) = ws.flatMap (·.lexemes) ∧
        ∀ w ∈ ws, w.Grammatical ∧ w.Admissible) ∧
    ∀ (p : Problem) (ws : List WrittenStatement), parse text = .ok p →
      tokens.map (·.lexeme) = ws.flatMap (·.lexemes) →
        (∀ w ∈ ws, w.Grammatical ∧ w.Admissible) → p.Lists ws := by
  have hparse : ∀ p, parse text = .ok p ↔ ofTokens tokens = .ok p := by
    intro p
    rw [parse, htokens]
  refine ⟨⟨?_, ?_⟩, fun p ws hp hws hvalid => ?_⟩
  · rintro ⟨p, hp⟩
    obtain ⟨ws, ss, haccepted, hws, -⟩ := ofTokens_eq_ok_iff.1 ((hparse p).1 hp)
    refine ⟨ws, hws, grammatical_of_accepted haccepted []
      (fun w hw => absurd hw List.not_mem_nil) ?_⟩
    rwa [List.flatMap_nil, List.nil_append, ← hws]
  · rintro ⟨ws, hws, hvalid⟩
    obtain ⟨ss, hss⟩ := exists_accepted false hvalid
    exact ⟨_, (hparse _).2 (ofTokens_eq_ok_iff.2 ⟨ws, ss, hss, hws, rfl⟩)⟩
  · obtain ⟨ss, hss⟩ := exists_accepted false hvalid
    have hp' := (hparse _).2 (ofTokens_eq_ok_iff.2 ⟨ws, ss, hss, hws, rfl⟩)
    rw [hp] at hp'
    cases hp'
    exact lists_foldl hss

/-- A problem with an action, an initial fact, and a goal. -/
theorem parse_accepts_grammar_move :
    ∃ p, parse "go :: at(X), distinct(X, b) => not at(X), at(b). at(a). goals at(b)." = .ok p ∧
      p.Lists [⟨none, .action ⟨"go", [⟨"at", some ["X"]⟩, ⟨"distinct", some ["X", "b"]⟩],
        [⟨true, ⟨"at", some ["X"]⟩⟩, ⟨false, ⟨"at", some ["b"]⟩⟩]⟩⟩,
        ⟨none, .fact ⟨"at", some ["a"]⟩⟩, ⟨some .goals, .fact ⟨"at", some ["b"]⟩⟩] := by
  generalize hws : ([_, _, _] : List WrittenStatement) = ws
  have htokens : tokenize "go :: at(X), distinct(X, b) => not at(X), at(b). at(a). goals at(b)." =
      .ok ((tokenize
        "go :: at(X), distinct(X, b) => not at(X), at(b). at(a). goals at(b).").toOption.getD
        []) := by
    rfl
  have hgoal : ¬GoalBeforeAction (((tokenize
      "go :: at(X), distinct(X, b) => not at(X), at(b). at(a). goals at(b).").toOption.getD []).map
        (·.lexeme)) := fun h => absurd h.goal_mem (by decide +kernel)
  have hlexemes : ((tokenize
      "go :: at(X), distinct(X, b) => not at(X), at(b). at(a). goals at(b).").toOption.getD []).map
        (·.lexeme) = ws.flatMap (·.lexemes) := by
    rw [← hws]
    decide +kernel
  have hvalid : ∀ w ∈ ws, w.Grammatical ∧ w.Admissible := by
    rw [← hws]
    simp only [List.forall_mem_cons]
    refine ⟨⟨⟨⟨?_, ?_⟩, nofun⟩, ⟨?_, ?_⟩⟩, ⟨⟨⟨?_, nofun⟩, nofun⟩, rfl⟩,
      ⟨⟨⟨nofun, nofun⟩, nofun⟩, rfl⟩, nofun⟩
    · rintro - (_ | _) <;> decide
    · rintro _ ⟨⟩
      simp [WrittenEffect.Leads]
    · intro l hl
      obtain rfl : l = ⟨"distinct", some ["X", "b"]⟩ := by
        simpa [WrittenAction.constraints, distinctName] using hl
      exact ⟨"X", "b", rfl, by decide⟩
    · have hX : (⟨"at", some ["X"]⟩ : WrittenLiteral) ∈
          (⟨"go", [⟨"at", some ["X"]⟩, ⟨"distinct", some ["X", "b"]⟩],
            [⟨true, ⟨"at", some ["X"]⟩⟩, ⟨false, ⟨"at", some ["b"]⟩⟩]⟩ : WrittenAction).needed := by
        simp [WrittenAction.needed, distinctName]
      intro e he x hx
      rcases List.mem_pair.1 he with rfl | rfl
      · exact ⟨_, hX, hx⟩
      · have hb : (⟨"at", some ["b"]⟩ : WrittenLiteral).vars = [] := rfl
        exact absurd hx (by simp [hb])
    · rintro - (_ | _) <;> decide
  obtain ⟨⟨-, hparse⟩, hlists⟩ := parse_accepts_grammar htokens hgoal
  obtain ⟨p, hp⟩ := hparse ⟨ws, hlexemes, hvalid⟩
  exact ⟨p, hp, hlists p ws hp hlexemes hvalid⟩

end Problem

end Strips
