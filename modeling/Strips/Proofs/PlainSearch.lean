import Strips.Proofs.Consistency

/-!
# No-goods change no answer

The search records the sets of facts for which it failed and does not try again what contains one of
them. Without this it is a plain backtracking search. Both give the same answer, plan for plan,
whatever was searched before and however many levels there were at that time.

A no-good is sealed: what covers it needs a set that is blocked one level down. Every cover of a set
that contains it is one of its covers too, so by induction on the levels the plain search fails for
whatever is blocked. A set that is passed over is therefore one for which the plain search would
have come back empty-handed, and the branch that succeeds first is the same.

## Main definitions

* `plainSearch` – the search that neither records nor consults no-goods.
* `Graph.plainAnswer` – what such a search answers for a graph.

## Main results

* `plainSearch_eq_none_of_blocked` – the plain search fails for blocked sets.
* `search_fst` – the search answers what the plain search answers.
* `Graph.extract_fst_eq_plainAnswer` – so it does after any number of expansions and searches.
* `Graph.plainAnswer_eq_plainSearch` – from the first expansion on the answer is that of the plain
  search on the levels, with no regard to what the graph says about its goals.
-/

namespace Strips

variable {φ α : Type} [BEq φ] [BEq α] {needs : α → List φ}

/-- Find steps that make the required facts true at the newest of the levels, newest first: take the
first cover for which that can be done with what it needs at the level before. -/
def plainSearch (needs : α → List φ) : List (Stage φ α) → List φ → Option (List α)
  | [], _ => none
  | [stage], required => if stage.supports required then some [] else none
  | stage :: earlier, required =>
    if !stage.supports required then none
    else (covers stage.isMutex stage.support [] required).findSome? fun chosen =>
      (plainSearch needs earlier (preconditionsOf needs chosen)).map (· ++ chosen)

theorem plainSearch_cons (stage next : Stage φ α) (rest : List (Stage φ α)) (facts : List φ) :
    plainSearch needs (stage :: next :: rest) facts =
      if !stage.supports facts then none
      else (covers stage.isMutex stage.support [] facts).findSome? fun chosen =>
        (plainSearch needs (next :: rest) (preconditionsOf needs chosen)).map (· ++ chosen) := by
  rw [plainSearch]
  rintro ⟨⟩

theorem plainSearch_eq_none {stage : Stage φ α} {rest : List (Stage φ α)} {facts : List φ}
    (h : stage.supports facts = false) : plainSearch needs (stage :: rest) facts = none := by
  cases rest with
  | nil => rw [plainSearch, h, if_neg Bool.false_ne_true]
  | cons next rest => rw [plainSearch_cons, h, Bool.not_false, if_pos rfl]

/-- **A plan that the plain search finds leads through the levels.** -/
theorem plainSearch_solves : ∀ {stages : List (Stage φ α)} {facts : List φ} {plan : List α},
    plainSearch needs stages facts = some plan → Solves needs stages facts plan
  | [], _, _, h => by cases h
  | [stage], facts, plan, h => by
    rw [plainSearch] at h
    split at h
    · rename_i hs
      exact ⟨hs, (Option.some.inj h).symm⟩
    · cases h
  | stage :: next :: rest, facts, plan, h => by
    rw [plainSearch_cons] at h
    split at h
    · cases h
    · obtain ⟨chosen, hchosen, hfound⟩ := List.exists_of_findSome?_eq_some h
      obtain ⟨before, hbefore, rfl⟩ := Option.map_eq_some_iff.1 hfound
      exact ⟨chosen, hchosen, before, plainSearch_solves hbefore, rfl⟩

/-- Trying one thing after the other, when the state has no influence on what an attempt gives. -/
theorem firstOutcome_fst {σ β γ : Type} {attempt : γ → σ → Option β × σ} {ready : σ → Prop}
    {f : γ → Option β} (hready : ∀ x s, ready s → ready (attempt x s).2)
    (hattempt : ∀ x s, ready s → (attempt x s).1 = f x) (xs : List γ) {s : σ} (hs : ready s) :
    (firstOutcome attempt xs s).1 = xs.findSome? f := by
  induction xs generalizing s with
  | nil => rfl
  | cons x xs ih =>
    have hnext := hready x s hs
    have hx := hattempt x s hs
    rw [firstOutcome, List.findSome?_cons]
    rcases hrun : attempt x s with ⟨_ | result, s'⟩
    · rw [hrun] at hnext hx
      rw [← hx]
      exact ih hnext
    · rw [hrun] at hx
      rw [← hx]

variable [LawfulBEq φ] [EquivBEq α]

/-- **The plain search fails for blocked sets** if all no-goods are sealed. -/
theorem plainSearch_eq_none_of_blocked : ∀ {stages : List (Stage φ α)} {noGoods : NoGoods φ}
    {facts : List φ}, (∀ stage ∈ stages, stage.Lawful) → Regressive needs stages noGoods →
      Blocked stages noGoods facts → plainSearch needs stages facts = none
  | [], _, _, _, _, _ => rfl
  | [stage], noGoods, facts, _, hr, hb => by
    have hnone : noGoods.headD [] = [] := hr
    rcases hb with hb | hb
    · exact plainSearch_eq_none hb
    · rw [hnone] at hb
      cases hb
  | stage :: next :: rest, noGoods, facts, hl, hr, hb => by
    obtain ⟨hstage, hrest⟩ := List.forall_mem_cons.1 hl
    rcases hb with hb | hb
    · exact plainSearch_eq_none hb
    · rw [plainSearch_cons]
      split
      · rfl
      · -- every cover of the facts covers the no-good, so what it needs is blocked below
        obtain ⟨noGood, hmem, hsub⟩ := containsNoGood_iff.1 hb
        refine List.findSome?_eq_none_iff.2 fun chosen hchosen => ?_
        have hbelow := hr.1 noGood hmem chosen ((Stage.covers_of_mem hstage hchosen).mono hsub)
        rw [plainSearch_eq_none_of_blocked hrest hr.2 hbelow]
        rfl

/-- **The plain search finds a plan exactly if a descent leads to facts that are supported at the
last level.** -/
theorem isSome_plainSearch_iff
    (hneeds : ∀ {s t : α} {f}, (s == t) = true → f ∈ needs s → f ∈ needs t) :
    ∀ {stages : List (Stage φ α)}, (∀ stage ∈ stages, stage.Lawful) → ∀ {facts : List φ},
      (plainSearch needs stages facts).isSome = true ↔ ∃ last goal, stages.getLast? = some last ∧
        last.supports goal = true ∧ Descends needs (stages.length - 1) stages facts goal
  | [], _, facts => by simp [plainSearch]
  | [stage], hl, facts => by
    rw [plainSearch]
    constructor
    · intro h
      split at h
      · rename_i hs
        exact ⟨stage, facts, rfl, hs, fun _ => id⟩
      · cases h
    · rintro ⟨last, goal, hlast, hs, hsub⟩
      obtain rfl := Option.some.inj hlast
      rw [if_pos ((hl stage List.mem_cons_self).supports_mono hsub hs)]
      rfl
  | stage :: next :: rest, hl, facts => by
    obtain ⟨hstage, hrest⟩ := List.forall_mem_cons.1 hl
    have ih : ∀ chosen, (plainSearch needs (next :: rest) (preconditionsOf needs chosen)).isSome =
        true ↔ _ := fun chosen => isSome_plainSearch_iff hneeds hrest
    rw [plainSearch_cons]
    constructor
    · intro h
      split at h
      · cases h
      · rename_i hs
        obtain ⟨chosen, hchosen, hfound⟩ := List.findSome?_isSome_iff.1 h
        rw [Option.isSome_map] at hfound
        obtain ⟨last, goal, hlast, hgoal, hd⟩ := (ih chosen).1 hfound
        exact ⟨last, goal, List.getLast?_cons_cons.trans hlast, hgoal, by simpa using hs, chosen,
          Stage.covers_of_mem hstage hchosen, hd⟩
    · rintro ⟨last, goal, hlast, hgoal, hsupports, chosen, hchosen, hd⟩
      rw [if_neg (by simp [hsupports])]
      -- the cover need not be one that is visited, but it needs at least what one of these needs
      obtain ⟨visited, hvisited, hsub⟩ := hchosen.exists_mem hstage
      refine List.findSome?_isSome_iff.2 ⟨visited, hvisited, ?_⟩
      rw [Option.isSome_map, ih visited]
      exact ⟨last, goal, List.getLast?_cons_cons.symm.trans hlast, hgoal,
        hd.mono hrest (preconditionsOf_subset hneeds hsub) fun _ => id⟩

/-- **The search answers what the plain search answers** if all no-goods are sealed. -/
theorem search_fst (hneeds : ∀ {s t : α} {f}, (s == t) = true → f ∈ needs s → f ∈ needs t) :
    ∀ {stages : List (Stage φ α)}, (∀ stage ∈ stages, stage.Lawful) →
      ∀ {facts : List φ} {noGoods : NoGoods φ}, noGoods.length = stages.length →
        Regressive needs stages noGoods →
        (search needs stages facts noGoods).1 = plainSearch needs stages facts
  | [], _, _, _, _, _ => rfl
  | [_], _, _, _, _, _ => rfl
  | stage :: next :: rest, hl, facts, [], hlen, _ => by cases hlen
  | stage :: next :: rest, hl, facts, own :: older, hlen, hr => by
    obtain ⟨hstage, hrest⟩ := List.forall_mem_cons.1 hl
    rw [search_cons, List.headD_cons, List.tail_cons]
    by_cases hstop : (!stage.supports facts || containsNoGood own facts) = true
    · -- what is passed over is blocked
      have hb : Blocked (stage :: next :: rest) (own :: older) facts :=
        (Bool.or_eq_true_iff.1 hstop).imp_left fun hs => by simpa using hs
      rw [if_pos hstop, plainSearch_eq_none_of_blocked hl hr hb]
    · rw [if_neg hstop, plainSearch_cons, if_neg fun hs => hstop (by rw [hs, Bool.true_or])]
      have hready : ∀ chosen (s : NoGoods φ), s.length = (next :: rest).length ∧
          Regressive needs (next :: rest) s →
          (goOn needs (next :: rest) chosen s).2.length = (next :: rest).length ∧
            Regressive needs (next :: rest) (goOn needs (next :: rest) chosen s).2 := by
        rintro chosen s ⟨hs, hreg⟩
        rw [goOn_snd]
        have hlearns : Learns needs (next :: rest) s
            (search needs (next :: rest) (preconditionsOf needs chosen) s).2 :=
          (search_learns hneeds hrest hs).1
        exact ⟨hlearns.length_eq.trans hs, hlearns.regressive hreg⟩
      have hattempt : ∀ chosen (s : NoGoods φ), s.length = (next :: rest).length ∧
          Regressive needs (next :: rest) s → (goOn needs (next :: rest) chosen s).1 =
            (plainSearch needs (next :: rest) (preconditionsOf needs chosen)).map
              (· ++ chosen) := by
        rintro chosen s ⟨hs, hreg⟩
        rw [goOn_fst, search_fst hneeds hrest hs hreg]
      have hfirst := firstOutcome_fst hready hattempt
        (covers stage.isMutex stage.support [] facts) ⟨Nat.succ.inj hlen, hr.2⟩
      rw [← hfirst]
      rcases firstOutcome (goOn needs (next :: rest)) (covers stage.isMutex stage.support [] facts)
        older with ⟨_ | plan, older'⟩ <;> rfl

namespace Graph

/-- What a search that neither records nor consults no-goods answers. -/
def plainAnswer (g : Graph) : Except GraphError (Option (List Step)) :=
  if g.levels.isEmpty then .error .notLoaded
  else if !g.goalsReachable then .ok none
  else match g.goalFacts? with
    | none => .ok none
    | some goals => .ok (plainSearch Step.preconditions (stagesOf g.levels) goals)

variable {g : Graph} {p : Problem} {goals : List Fact}

theorem Consistent.plainSearch_eq (h : g.Consistent p goals) :
    (search Step.preconditions (stagesOf g.levels) goals g.noGoods).1 =
      plainSearch Step.preconditions (stagesOf g.levels) goals :=
  search_fst (fun hst => (Step.mem_preconditions_of_beq hst).1) h.ladder.lawful g.length_noGoods
    h.regressive

/-- **No-goods change no answer.** After any number of expansions and searches, in any order, a
search answers what the plain search answers. -/
theorem extract_fst_eq_plainAnswer {text : String} (hp : Problem.parse text = .ok p)
    {strict : Bool} {budget : Int} (hg : p.graph strict budget = .ok g) (calls : List Call) :
    ∃ answer, (g.calls calls).extract.1 = .ok answer ∧
      (g.calls calls).plainAnswer = .ok answer := by
  have hreg := Problem.regular_of_parse hp
  have h := (Problem.consistent_of_graph hreg hg).calls hreg calls
  generalize g.calls calls = g at h
  have hlevels : ¬g.levels.isEmpty = true := by simpa using h.ladder.ne_nil
  rw [plainAnswer, if_neg hlevels]
  cases hreach : g.goalsReachable with
  | false =>
    refine ⟨none, ?_, rfl⟩
    rw [extract, if_neg hlevels, if_pos (by simp [hreach])]
  | true =>
    refine ⟨plainSearch Step.preconditions (stagesOf g.levels) (Problem.eachOnce p.goals), ?_, ?_⟩
    · rw [extract_eq h.ladder.ne_nil hreach h.goals_eq]
      exact congrArg Except.ok h.plainSearch_eq
    · rw [h.goals_eq]
      rfl

/-! ### The guard before a search

A graph on which a problem was just loaded says that its goals are not reachable, whatever its level
holds, and so an empty plan is not found there. From the first expansion on it says what the newest
level says, and the plain search would fail anyway where that is no.
-/

/-- With a level besides the first, the graph says of its goals what the newest level says. -/
def ToldByLevel (g : Graph) (goals : List Fact) : Prop :=
  ∀ newest next rest, stagesOf g.levels = newest :: next :: rest →
    g.goalsReachable = newest.supports goals

theorem ToldByLevel.call (h : g.ToldByLevel goals) (hreg : ∀ s ∈ p.schemas, s.Regular)
    (hc : g.Consistent p goals) (c : Call) : (g.call c).ToldByLevel goals := by
  cases c with
  | expand =>
    change g.expand.2.ToldByLevel goals
    rcases hexpand : g.expand with ⟨e | grew, g'⟩
    · obtain ⟨rfl, -⟩ := hc.expand_eq_error hreg hexpand
      exact h
    · obtain ⟨-, -, -, level, -, -, -, hlevels, -, hreach, -⟩ := hc.expand hexpand
      intro newest next rest hstages
      rw [hlevels] at hstages
      obtain rfl := List.head_eq_of_cons_eq hstages
      exact hreach
  | extract =>
    change g.extract.2.ToldByLevel goals
    cases hreach : g.goalsReachable with
    | false =>
      rw [Graph.extract, if_neg (by simpa using hc.ladder.ne_nil), if_pos (by simp [hreach])]
      exact h
    | true =>
      obtain ⟨answer, g', hextract⟩ := hc.exists_extract
      obtain ⟨-, hg'⟩ := hc.extract hreach hextract
      rw [hextract, hg']
      intro newest next rest hstages
      rw [stagesOf_withNoGoods (length_of_learns hc.search_learns.1)] at hstages
      exact h newest next rest hstages

theorem ToldByLevel.calls (h : g.ToldByLevel goals) (hreg : ∀ s ∈ p.schemas, s.Regular)
    (hc : g.Consistent p goals) (cs : List Call) : (g.calls cs).ToldByLevel goals := by
  induction cs generalizing g with
  | nil => exact h
  | cons c cs ih => exact ih (h.call hreg hc c) (hc.call hreg c)

/-- **From the first expansion on** the answer is that of the plain search on the levels. -/
theorem plainAnswer_eq_plainSearch {text : String} (hp : Problem.parse text = .ok p)
    {strict : Bool} {budget : Int} (hg : p.graph strict budget = .ok g) (calls : List Call)
    (hlevels : 1 < (g.calls calls).levels.length) :
    (g.calls calls).plainAnswer = .ok (plainSearch Step.preconditions
      (stagesOf (g.calls calls).levels) (Problem.eachOnce p.goals)) := by
  have hreg := Problem.regular_of_parse hp
  have hstart := Problem.consistent_of_graph hreg hg
  have h := hstart.calls hreg calls
  have htold : (g.calls calls).ToldByLevel (Problem.eachOnce p.goals) := by
    refine ToldByLevel.calls (fun newest next rest hstages => ?_) hreg hstart calls
    rw [Problem.graph_eq hreg] at hg
    split at hg <;> cases hg
    cases hstages
  generalize g.calls calls = g at h htold hlevels
  obtain ⟨newest, next, rest, hstages⟩ : ∃ newest next rest,
      stagesOf g.levels = newest :: next :: rest := by
    match hlevels' : g.levels with
    | [] | [_] => simp [hlevels'] at hlevels
    | newest :: next :: rest => exact ⟨_, _, _, rfl⟩
  rw [plainAnswer, if_neg (by simpa using h.ladder.ne_nil), h.goals_eq]
  split
  · rename_i hno
    rw [htold newest next rest hstages] at hno
    rw [hstages, plainSearch_eq_none (by simpa using hno)]
  · rfl

/-- One coin, which can be earned again, and two things to buy. -/
def wageText : String :=
  "buy :: coin(X), item(Y) => not coin(X), have(Y). earn :: work(X) => coin(X)." ++
  "work(p). coin(p). item(a). item(b). goal have(a). goal have(b)."

/-- Two steps are not enough, which leaves a no-good, and with a third one there is a plan. -/
theorem extract_fst_wage : ∃ p g, Problem.parse wageText = .ok p ∧ p.graph false 0 = .ok g ∧
    (g.calls [.expand, .extract, .expand, .extract, .expand]).noGoodCount = 1 ∧
    ∃ answer, (g.calls [.expand, .extract, .expand, .extract, .expand]).extract.1 = .ok answer ∧
      (g.calls [.expand, .extract, .expand, .extract, .expand]).plainAnswer = .ok answer := by
  have hcount : (Problem.graphAfter? wageText false
      [.expand, .extract, .expand, .extract, .expand]).map noGoodCount = some 1 := by
    decide +kernel
  obtain ⟨g', hg', hnoGoods⟩ := Option.map_eq_some_iff.1 hcount
  obtain ⟨p, g, hp, hg, rfl⟩ := Problem.exists_of_graphAfter?_eq_some hg'
  exact ⟨p, g, hp, hg, hnoGoods, extract_fst_eq_plainAnswer hp hg _⟩

end Graph

end Strips
