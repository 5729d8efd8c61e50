import Mathlib.Logic.Relation
import Strips.Proofs.CoverWalks
import Strips.Proofs.Covers

/-!
# What the search learns

The search fails for a set of facts only if the set is *blocked*: its level does not support it, or
it contains a no-good of the level. No-goods are recorded one by one, and a set is recorded only
when it is *sealed*, that is, when all that covers it needs a set that is blocked one level down. A
cache in which all no-goods are sealed stays so whatever the search records, which is what gives a
no-good its meaning.

Levels stand newest first, and the no-goods of the levels are in step with them.

## Main definitions

* `Blocked`, `Sealed`, `Regressive` – sets of facts that are known to be out of reach, and why.
* `Records`, `Learns` – the recording of one no-good, and of any number.
* `Solves` – a plan through the levels.
* `Demands` – the sets of facts that a search comes to at a level.

## Main results

* `search_learns`, `search_blocked`, `search_solves` – what a search does.
* `Learns.regressive` – recording keeps a cache regressive.
* `demands_of_search` – a set that a search records is one that it came to.
-/

namespace Strips

open Relation

variable {φ α : Type} [BEq φ] [BEq α] {needs : α → List φ}

/-! ### Blocked sets -/

/-- The newest of the levels does not support the facts, or they contain a no-good of it. -/
def Blocked : List (Stage φ α) → NoGoods φ → List φ → Prop
  | [], _, _ => True
  | stage :: _, noGoods, facts =>
    stage.supports facts = false ∨ containsNoGood (noGoods.headD []) facts = true

/-- Whatever covers the facts needs a set that is blocked one level down. -/
def Sealed (needs : α → List φ) (stage : Stage φ α) (earlier : List (Stage φ α))
    (older : NoGoods φ) (facts : List φ) : Prop :=
  ∀ chosen, stage.Covers chosen facts → Blocked earlier older (preconditionsOf needs chosen)

/-- All no-goods are sealed, and the last level, which nothing leads to, has none. -/
def Regressive (needs : α → List φ) : List (Stage φ α) → NoGoods φ → Prop
  | [], _ => True
  | [_], noGoods => noGoods.headD [] = []
  | stage :: next :: rest, noGoods =>
    (∀ facts ∈ noGoods.headD [], Sealed needs stage (next :: rest) noGoods.tail facts) ∧
      Regressive needs (next :: rest) noGoods.tail

/-- One no-good is recorded at some level: a set that the level supports, that contains no no-good
of the level, and that is sealed. -/
inductive Records (needs : α → List φ) : List (Stage φ α) → NoGoods φ → NoGoods φ → Prop
  | here {stage next : Stage φ α} {rest : List (Stage φ α)} {noGoods : List (List φ)}
      {older : NoGoods φ} {facts : List φ} (hsupports : stage.supports facts = true)
      (hnew : containsNoGood noGoods facts = false)
      (hsealed : Sealed needs stage (next :: rest) older facts) :
      Records needs (stage :: next :: rest) (noGoods :: older) ((noGoods ++ [facts]) :: older)
  | down {stage : Stage φ α} {earlier : List (Stage φ α)} {noGoods : List (List φ)}
      {older older' : NoGoods φ} (h : Records needs earlier older older') :
      Records needs (stage :: earlier) (noGoods :: older) (noGoods :: older')

/-- Any number of no-goods is recorded, one after the other. -/
abbrev Learns (needs : α → List φ) (stages : List (Stage φ α)) : NoGoods φ → NoGoods φ → Prop :=
  ReflTransGen (Records needs stages)

/-- A plan through the levels: from the newest one down, each set of facts is supported and has a
cover, and what the cover needs is required of the level below. -/
def Solves (needs : α → List φ) : List (Stage φ α) → List φ → List α → Prop
  | [], _, _ => False
  | [stage], facts, plan => stage.supports facts = true ∧ plan = []
  | stage :: next :: rest, facts, plan =>
    ∃ chosen ∈ covers stage.isMutex stage.support [] facts, ∃ before,
      Solves needs (next :: rest) (preconditionsOf needs chosen) before ∧ plan = before ++ chosen

/-- A number of levels down, the search comes to a set of facts; it goes on only from sets that are
supported. -/
def Demands (needs : α → List φ) : List (Stage φ α) → Nat → List φ → List φ → Prop
  | [], _, _, _ => False
  | stage :: _, 0, facts, goal => stage.supports facts = true ∧ goal = facts.eraseDups
  | stage :: earlier, depth + 1, facts, goal => stage.supports facts = true ∧
    ∃ chosen ∈ covers stage.isMutex stage.support [] facts,
      Demands needs earlier depth (preconditionsOf needs chosen) goal

section Sets

variable [LawfulBEq φ]

omit [BEq α] in
theorem containsNoGood_iff {noGoods : List (List φ)} {facts : List φ} :
    containsNoGood noGoods facts = true ↔ ∃ noGood ∈ noGoods, ∀ f ∈ noGood, f ∈ facts := by
  simp [containsNoGood]

omit [BEq α] in
theorem mem_preconditionsOf {chosen : List α} {f : φ} :
    f ∈ preconditionsOf needs chosen ↔ ∃ s ∈ chosen, f ∈ needs s := by
  rw [preconditionsOf, List.mem_eraseDups, List.mem_flatMap]

omit [BEq α] in
theorem containsNoGood_mono {noGoods : List (List φ)} {facts more : List φ}
    (hsub : ∀ f ∈ facts, f ∈ more) (h : containsNoGood noGoods facts = true) :
    containsNoGood noGoods more = true := by
  obtain ⟨noGood, hmem, hfacts⟩ := containsNoGood_iff.1 h
  exact containsNoGood_iff.2 ⟨noGood, hmem, fun f hf => hsub f (hfacts f hf)⟩

/-- More facts are blocked when fewer are. -/
theorem Blocked.mono {stages : List (Stage φ α)} (hl : ∀ stage ∈ stages, stage.Lawful)
    {noGoods : NoGoods φ} {facts more : List φ} (h : Blocked stages noGoods facts)
    (hsub : ∀ f ∈ facts, f ∈ more) : Blocked stages noGoods more := by
  cases stages with
  | nil => exact True.intro
  | cons stage earlier =>
    refine h.imp (fun h => ?_) (containsNoGood_mono hsub)
    refine Bool.eq_false_iff.2 fun hmore => Bool.eq_false_iff.1 h ?_
    exact (hl stage List.mem_cons_self).supports_mono hsub hmore

omit [LawfulBEq φ] in
theorem Sealed.mono {stage : Stage φ α} {earlier : List (Stage φ α)} {older : NoGoods φ}
    {facts more : List φ} (h : Sealed needs stage earlier older facts)
    (hsub : ∀ f ∈ facts, f ∈ more) : Sealed needs stage earlier older more :=
  fun chosen hcovers => h chosen (hcovers.mono hsub)

end Sets

/-- The lower part of a regressive cache is regressive. -/
theorem Regressive.drop : ∀ {stages : List (Stage φ α)} {noGoods : NoGoods φ},
    Regressive needs stages noGoods →
      ∀ n, n < stages.length → Regressive needs (stages.drop n) (noGoods.drop n)
  | _, _, h, 0, _ => h
  | [_], _, _, n + 1, hn => absurd (Nat.lt_of_succ_lt_succ hn) (Nat.not_lt_zero n)
  | stage :: next :: rest, noGoods, h, n + 1, hn => by
    rw [List.drop_succ_cons, ← List.drop_tail]
    exact h.2.drop n (Nat.lt_of_succ_lt_succ hn)

/-! ### Recording -/

omit [BEq φ] [BEq α] in
theorem containsNoGood_append [BEq φ] {noGoods more : List (List φ)} {facts : List φ}
    (h : containsNoGood noGoods facts = true) : containsNoGood (noGoods ++ more) facts = true := by
  rw [containsNoGood, List.any_append, Bool.or_eq_true]
  exact .inl h

namespace Records

variable {stages : List (Stage φ α)} {noGoods noGoods' : NoGoods φ}

theorem length_eq (h : Records needs stages noGoods noGoods') :
    noGoods'.length = noGoods.length := by
  induction h with
  | here => rfl
  | down _ ih => rw [List.length_cons, List.length_cons, ih]

theorem blocked (h : Records needs stages noGoods noGoods') {facts : List φ}
    (hb : Blocked stages noGoods facts) : Blocked stages noGoods' facts := by
  cases h with
  | here => exact hb.imp_right containsNoGood_append
  | down => exact hb

/-- Recording a sealed set keeps the cache regressive. -/
theorem regressive (h : Records needs stages noGoods noGoods')
    (hr : Regressive needs stages noGoods) : Regressive needs stages noGoods' := by
  induction h with
  | here _ _ hsealed =>
    refine ⟨fun facts hfacts => ?_, hr.2⟩
    rcases List.mem_append.1 hfacts with hfacts | hfacts
    · exact hr.1 facts hfacts
    · exact List.mem_singleton.1 hfacts ▸ hsealed
  | @down stage earlier own older older' h ih =>
    cases earlier with
    | nil => cases h
    | cons next rest =>
      exact ⟨fun facts hfacts chosen hcovers => h.blocked (hr.1 facts hfacts chosen hcovers),
        ih hr.2⟩

end Records

namespace Learns

variable {stages : List (Stage φ α)} {noGoods noGoods' : NoGoods φ}

theorem length_eq (h : Learns needs stages noGoods noGoods') :
    noGoods'.length = noGoods.length := by
  induction h with
  | refl => rfl
  | tail _ h ih => rw [h.length_eq, ih]

theorem blocked (h : Learns needs stages noGoods noGoods') {facts : List φ}
    (hb : Blocked stages noGoods facts) : Blocked stages noGoods' facts := by
  induction h with
  | refl => exact hb
  | tail _ h ih => exact h.blocked ih

/-- **Whatever the search records, the cache stays regressive.** -/
theorem regressive (h : Learns needs stages noGoods noGoods')
    (hr : Regressive needs stages noGoods) : Regressive needs stages noGoods' := by
  induction h with
  | refl => exact hr
  | tail _ h ih => exact h.regressive ih

theorem down {stage : Stage φ α} {own : List (List φ)}
    (h : Learns needs stages noGoods noGoods') :
    Learns needs (stage :: stages) (own :: noGoods) (own :: noGoods') :=
  ReflTransGen.lift (own :: ·) (fun _ _ h => Records.down h) _ _ h

end Learns

/-! ### The search -/

section Outcomes

variable {σ β γ : Type} {attempt : γ → σ → Option β × σ} {r : σ → σ → Prop} {ready : σ → Prop}
  {B : γ → σ → Prop}

/-- Trying one thing after the other, when each attempt may learn something. -/
theorem firstOutcome_learns (hready : ∀ s s', ready s → ReflTransGen r s s' → ready s')
    (hstep : ∀ x s, ready s → ReflTransGen r s (attempt x s).2) (xs : List γ) {s : σ}
    (hs : ready s) : ReflTransGen r s (firstOutcome attempt xs s).2 := by
  induction xs generalizing s with
  | nil => exact .refl
  | cons x xs ih =>
    have hx := hstep x s hs
    rw [firstOutcome]
    rcases hrun : attempt x s with ⟨_ | result, s'⟩
    · rw [hrun] at hx
      exact hx.trans (ih (hready s s' hs hx))
    · rw [hrun] at hx
      exact hx

/-- What stopped an attempt still stops it at the end, if learning more does not help. -/
theorem firstOutcome_none (hready : ∀ s s', ready s → ReflTransGen r s s' → ready s')
    (hstep : ∀ x s, ready s → ReflTransGen r s (attempt x s).2)
    (hblocked : ∀ x s, ready s → (attempt x s).1 = none → B x (attempt x s).2)
    (hkeep : ∀ x s s', ReflTransGen r s s' → B x s → B x s') (xs : List γ) {s : σ}
    (hs : ready s) (h : (firstOutcome attempt xs s).1 = none) :
    ∀ x ∈ xs, B x (firstOutcome attempt xs s).2 := by
  induction xs generalizing s with
  | nil => exact fun x hx => absurd hx List.not_mem_nil
  | cons x xs ih =>
    have hx := hstep x s hs
    have hbx := hblocked x s hs
    rw [firstOutcome] at h ⊢
    rcases hrun : attempt x s with ⟨_ | result, s'⟩
    · rw [hrun] at hx hbx h
      have hs' := hready s s' hs hx
      refine List.forall_mem_cons.2 ⟨?_, ih hs' h⟩
      exact hkeep x s' _ (firstOutcome_learns hready hstep xs hs') (hbx rfl)
    · rw [hrun] at h
      cases h

theorem firstOutcome_some {xs : List γ} {s : σ} {result : β}
    (h : (firstOutcome attempt xs s).1 = some result) :
    ∃ x ∈ xs, ∃ s', (attempt x s').1 = some result := by
  induction xs generalizing s with
  | nil => cases h
  | cons x xs ih =>
    rw [firstOutcome] at h
    rcases hrun : attempt x s with ⟨_ | found, s'⟩
    · rw [hrun] at h
      obtain ⟨y, hy, s'', hfound⟩ := ih h
      exact ⟨y, List.mem_cons_of_mem x hy, s'', hfound⟩
    · rw [hrun] at h
      exact ⟨x, List.mem_cons_self, s, by rw [hrun]; exact h⟩

/-- What is in the last state came in with some attempt. -/
theorem firstOutcome_origin {P : σ → Prop} {xs : List γ}
    (hstep : ∀ x ∈ xs, ∀ s, P s → P (attempt x s).2) {s : σ} (hs : P s) :
    P (firstOutcome attempt xs s).2 := by
  induction xs generalizing s with
  | nil => exact hs
  | cons x xs ih =>
    have hx := hstep x List.mem_cons_self s hs
    rw [firstOutcome]
    rcases hrun : attempt x s with ⟨_ | result, s'⟩
    · rw [hrun] at hx
      exact ih (fun y hy => hstep y (List.mem_cons_of_mem x hy)) hx
    · rw [hrun] at hx
      exact hx

end Outcomes

/-- Going on from a cover: the search for what it needs, one level down. -/
def goOn (needs : α → List φ) (earlier : List (Stage φ α)) (chosen : List α) (older : NoGoods φ) :
    Option (List α) × NoGoods φ :=
  match search needs earlier (preconditionsOf needs chosen) older with
  | (some before, older) => (some (before ++ chosen), older)
  | (none, older) => (none, older)

theorem goOn_snd (earlier : List (Stage φ α)) (chosen : List α) (older : NoGoods φ) :
    (goOn needs earlier chosen older).2 =
      (search needs earlier (preconditionsOf needs chosen) older).2 := by
  rw [goOn]
  rcases search needs earlier (preconditionsOf needs chosen) older with ⟨_ | before, older'⟩ <;> rfl

theorem goOn_fst (earlier : List (Stage φ α)) (chosen : List α) (older : NoGoods φ) :
    (goOn needs earlier chosen older).1 =
      (search needs earlier (preconditionsOf needs chosen) older).1.map (· ++ chosen) := by
  rw [goOn]
  rcases search needs earlier (preconditionsOf needs chosen) older with ⟨_ | before, older'⟩ <;> rfl

/-- The search at a level above the last: covers are tried one after the other. -/
theorem search_cons (stage next : Stage φ α) (rest : List (Stage φ α)) (facts : List φ)
    (noGoods : NoGoods φ) :
    search needs (stage :: next :: rest) facts noGoods =
      if !stage.supports facts || containsNoGood (noGoods.headD []) facts then (none, noGoods)
      else
        match firstOutcome (goOn needs (next :: rest)) (covers stage.isMutex stage.support [] facts)
          noGoods.tail with
        | (some plan, older) => (some plan, noGoods.headD [] :: older)
        | (none, older) => (none, (noGoods.headD [] ++ [facts.eraseDups]) :: older) := by
  rw [search, ← firstCover_eq]
  · rfl
  · rintro ⟨⟩

/-- **A plan that is found leads through the levels.** -/
theorem search_solves : ∀ {stages : List (Stage φ α)} {facts : List φ} {noGoods : NoGoods φ}
    {plan : List α}, (search needs stages facts noGoods).1 = some plan →
      Solves needs stages facts plan
  | [], _, _, _, h => by cases h
  | [stage], facts, noGoods, plan, h => by
    rw [search] at h
    split at h
    · rename_i hs
      exact ⟨hs, (Option.some.inj h).symm⟩
    · cases h
  | stage :: next :: rest, facts, noGoods, plan, h => by
    rw [search_cons] at h
    split at h
    · cases h
    · rcases hrun : firstOutcome (goOn needs (next :: rest))
        (covers stage.isMutex stage.support [] facts) noGoods.tail with ⟨_ | found, older⟩
      · rw [hrun] at h
        cases h
      · rw [hrun] at h
        obtain rfl := Option.some.inj h
        obtain ⟨chosen, hchosen, s, hs⟩ := firstOutcome_some (congrArg Prod.fst hrun)
        rw [goOn_fst] at hs
        obtain ⟨before, hbefore, rfl⟩ := Option.map_eq_some_iff.1 hs
        exact ⟨chosen, hchosen, before, search_solves hbefore, rfl⟩

/-- Going on from covers one after the other learns at the levels below, and fails only if what each
of them needs is blocked in the end. -/
theorem firstOutcome_goOn {earlier : List (Stage φ α)}
    (ih : ∀ {facts : List φ} {noGoods : NoGoods φ}, noGoods.length = earlier.length →
      Learns needs earlier noGoods (search needs earlier facts noGoods).2 ∧
        ((search needs earlier facts noGoods).1 = none →
          Blocked earlier (search needs earlier facts noGoods).2 facts))
    (visited : List (List α)) {older : NoGoods φ} (hlen : older.length = earlier.length) :
    Learns needs earlier older (firstOutcome (goOn needs earlier) visited older).2 ∧
      ((firstOutcome (goOn needs earlier) visited older).1 = none → ∀ chosen ∈ visited,
        Blocked earlier (firstOutcome (goOn needs earlier) visited older).2
          (preconditionsOf needs chosen)) := by
  have hready : ∀ s s' : NoGoods φ, s.length = earlier.length → Learns needs earlier s s' →
      s'.length = earlier.length := fun s s' hs h => h.length_eq.trans hs
  have hstep : ∀ chosen (s : NoGoods φ), s.length = earlier.length →
      Learns needs earlier s (goOn needs earlier chosen s).2 := by
    intro chosen s hs
    rw [goOn_snd]
    exact (ih hs).1
  have hblocked : ∀ chosen (s : NoGoods φ), s.length = earlier.length →
      (goOn needs earlier chosen s).1 = none →
      Blocked earlier (goOn needs earlier chosen s).2 (preconditionsOf needs chosen) := by
    intro chosen s hs h
    rw [goOn_fst, Option.map_eq_none_iff] at h
    rw [goOn_snd]
    exact (ih hs).2 h
  exact ⟨firstOutcome_learns hready hstep visited hlen, firstOutcome_none
    (B := fun chosen s => Blocked earlier s (preconditionsOf needs chosen)) hready hstep hblocked
    (fun _ _ _ h hb => Learns.blocked h hb) visited hlen⟩

section Search

variable [LawfulBEq φ] [EquivBEq α]

omit [EquivBEq α] in
/-- Steps that are the same as some of others need no more than these. -/
theorem preconditionsOf_subset
    (hneeds : ∀ {s t : α} {f}, (s == t) = true → f ∈ needs s → f ∈ needs t) {chosen more : List α}
    (hsub : ∀ s ∈ chosen, more.contains s = true) :
    ∀ f ∈ preconditionsOf needs chosen, f ∈ preconditionsOf needs more := by
  intro f hf
  obtain ⟨s, hs, hfs⟩ := mem_preconditionsOf.1 hf
  obtain ⟨t, ht, hst⟩ := List.contains_iff_exists_mem_beq.1 (hsub s hs)
  exact mem_preconditionsOf.2 ⟨t, ht, hneeds hst hfs⟩

/-- If every visited cover needs a blocked set, then so does everything that covers the facts. -/
theorem sealed_of_covers {stage : Stage φ α} {earlier : List (Stage φ α)} {older : NoGoods φ}
    {facts : List φ} (hneeds : ∀ {s t : α} {f}, (s == t) = true → f ∈ needs s → f ∈ needs t)
    (hl : stage.Lawful) (hearlier : ∀ stage ∈ earlier, stage.Lawful)
    (h : ∀ chosen ∈ covers stage.isMutex stage.support [] facts,
      Blocked earlier older (preconditionsOf needs chosen)) :
    Sealed needs stage earlier older facts := by
  intro d hd
  obtain ⟨chosen, hchosen, hsub⟩ := hd.exists_mem hl
  exact (h chosen hchosen).mono hearlier (preconditionsOf_subset hneeds hsub)

/-- Facts that are supported and new are recorded when what all their covers need is blocked. -/
theorem learns_of_covers {stage next : Stage φ α} {rest : List (Stage φ α)} {facts : List φ}
    {own : List (List φ)} {older older' : NoGoods φ}
    (hneeds : ∀ {s t : α} {f}, (s == t) = true → f ∈ needs s → f ∈ needs t)
    (hl : ∀ s ∈ stage :: next :: rest, s.Lawful) (hsupports : stage.supports facts = true)
    (hnew : containsNoGood own facts = false) (hlearns : Learns needs (next :: rest) older older')
    (hfailed : ∀ chosen ∈ covers stage.isMutex stage.support [] facts,
      Blocked (next :: rest) older' (preconditionsOf needs chosen)) :
    Learns needs (stage :: next :: rest) (own :: older) ((own ++ [facts.eraseDups]) :: older') ∧
      Blocked (stage :: next :: rest) ((own ++ [facts.eraseDups]) :: older') facts := by
  obtain ⟨hstage, hearlier⟩ := List.forall_mem_cons.1 hl
  have hsub : ∀ f ∈ facts.eraseDups, f ∈ facts := fun f hf => List.mem_eraseDups.1 hf
  have hsealed := (sealed_of_covers hneeds hstage hearlier hfailed).mono
    fun f hf => List.mem_eraseDups.2 hf
  have hnew' : containsNoGood own facts.eraseDups = false :=
    Bool.eq_false_iff.2 fun h => Bool.eq_false_iff.1 hnew (containsNoGood_mono hsub h)
  have hsupports' := hstage.supports_mono hsub hsupports
  refine ⟨(Learns.down hlearns).tail (.here hsupports' hnew' hsealed), ?_⟩
  exact .inr (containsNoGood_iff.2 ⟨_, List.mem_append_right _ List.mem_cons_self, hsub⟩)

/-- **The search records sealed sets only, and fails only for a set that is blocked afterwards.** -/
theorem search_learns (hneeds : ∀ {s t : α} {f}, (s == t) = true → f ∈ needs s → f ∈ needs t) :
    ∀ {stages : List (Stage φ α)}, (∀ stage ∈ stages, stage.Lawful) →
      ∀ {facts : List φ} {noGoods : NoGoods φ}, noGoods.length = stages.length →
        Learns needs stages noGoods (search needs stages facts noGoods).2 ∧
          ((search needs stages facts noGoods).1 = none →
            Blocked stages (search needs stages facts noGoods).2 facts)
  | [], _, facts, noGoods, _ => ⟨.refl, fun _ => True.intro⟩
  | [stage], _, facts, noGoods, _ => by
    refine ⟨.refl, fun h => .inl ?_⟩
    by_contra hs
    rw [search, if_pos (Bool.not_eq_false _ ▸ hs)] at h
    cases h
  | stage :: next :: rest, hl, facts, [], hlen => by cases hlen
  | stage :: next :: rest, hl, facts, own :: older, hlen => by
    have ih := @search_learns hneeds (next :: rest) (List.forall_mem_cons.1 hl).2
    obtain ⟨hlearns, hfailed⟩ := firstOutcome_goOn ih
      (covers stage.isMutex stage.support [] facts) (Nat.succ.inj hlen : older.length = _)
    rw [search_cons, List.headD_cons, List.tail_cons]
    by_cases hstop : (!stage.supports facts || containsNoGood own facts) = true
    · rw [if_pos hstop]
      refine ⟨.refl, fun _ => ?_⟩
      rcases Bool.or_eq_true_iff.1 hstop with hs | hn
      · exact .inl (Bool.not_eq_true' _ ▸ hs)
      · exact .inr hn
    · rw [if_neg hstop]
      rw [Bool.or_eq_true, not_or, Bool.not_eq_true', Bool.not_eq_false, Bool.not_eq_true] at hstop
      rcases hrun : firstOutcome (goOn needs (next :: rest))
        (covers stage.isMutex stage.support [] facts) older with ⟨_ | plan, older'⟩
      · rw [hrun] at hlearns hfailed
        obtain ⟨hlearns', hblocked⟩ :=
          learns_of_covers hneeds hl hstop.1 hstop.2 hlearns (hfailed rfl)
        exact ⟨hlearns', fun _ => hblocked⟩
      · rw [hrun] at hlearns
        exact ⟨Learns.down hlearns, fun h => by cases h⟩

end Search

/-! ### What is at one level -/

/-- No no-good contains an earlier one. -/
def Irredundant (noGoods : List (List φ)) : Prop :=
  noGoods.Pairwise fun earlier later => ¬ ∀ f ∈ earlier, f ∈ later

/-- At a level one no-good comes in at most, which the level supports and which contains no earlier
one. -/
theorem Records.level [LawfulBEq φ] {stages : List (Stage φ α)} {noGoods noGoods' : NoGoods φ}
    (h : Records needs stages noGoods noGoods') (index : Nat) :
    noGoods'.getD index [] = noGoods.getD index [] ∨ ∃ stage facts, stages[index]? = some stage ∧
      stage.supports facts = true ∧ (∀ noGood ∈ noGoods.getD index [], ¬ ∀ f ∈ noGood, f ∈ facts) ∧
      noGoods'.getD index [] = noGoods.getD index [] ++ [facts] := by
  induction h generalizing index with
  | @here stage next rest own older facts hsupports hnew hsealed =>
    cases index with
    | zero =>
      refine .inr ⟨stage, facts, rfl, hsupports, fun noGood hmem hsub => ?_, rfl⟩
      exact Bool.eq_false_iff.1 hnew (containsNoGood_iff.2 ⟨noGood, hmem, hsub⟩)
    | succ index => exact .inl rfl
  | down _ ih =>
    cases index with
    | zero => exact .inl rfl
    | succ index => exact ih index

/-- **At each level no-goods are added at the end**, all of them supported there, and none that
contains an earlier one. -/
theorem Learns.level [LawfulBEq φ] {stages : List (Stage φ α)} {noGoods noGoods' : NoGoods φ}
    (h : Learns needs stages noGoods noGoods') (index : Nat) :
    ∃ new, noGoods'.getD index [] = noGoods.getD index [] ++ new ∧
      (∀ facts ∈ new, ∃ stage, stages[index]? = some stage ∧ stage.supports facts = true ∧
        ∀ noGood ∈ noGoods.getD index [], ¬ ∀ f ∈ noGood, f ∈ facts) ∧
      (Irredundant (noGoods.getD index []) → Irredundant (noGoods'.getD index [])) := by
  induction h with
  | refl => exact ⟨[], (List.append_nil _).symm, fun _ h => absurd h List.not_mem_nil, id⟩
  | tail _ h ih =>
    obtain ⟨new, heq, hnew, hirr⟩ := ih
    rcases h.level index with hsame | ⟨stage, facts, hstage, hsupports, hfresh, hadd⟩
    · exact ⟨new, hsame.trans heq, hnew, fun hi => hsame ▸ hirr hi⟩
    · refine ⟨new ++ [facts], by rw [hadd, heq, List.append_assoc], fun more hmore => ?_,
        fun hi => ?_⟩
      · rcases List.mem_append.1 hmore with hmore | hmore
        · exact hnew more hmore
        · obtain rfl := List.mem_singleton.1 hmore
          exact ⟨stage, hstage, hsupports,
            fun noGood hmem => hfresh noGood (heq ▸ List.mem_append_left new hmem)⟩
      · rw [hadd]
        refine List.pairwise_append.2 ⟨hirr hi, List.pairwise_singleton _ _, fun a ha b hb => ?_⟩
        rw [List.mem_singleton.1 hb]
        exact hfresh a ha

omit [BEq φ] in
theorem headD_drop (noGoods : NoGoods φ) (index : Nat) :
    (noGoods.drop index).headD [] = noGoods.getD index [] := by
  rw [List.headD_eq_head?_getD, List.head?_drop, List.getD_eq_getElem?_getD]

omit [BEq α] in
theorem blocked_drop_iff [LawfulBEq φ] {stages : List (Stage φ α)} {noGoods : NoGoods φ}
    {index : Nat} {stage : Stage φ α} (hi : stages[index]? = some stage) {facts : List φ} :
    Blocked (stages.drop index) (noGoods.drop index) facts ↔ stage.supports facts = false ∨
      ∃ noGood ∈ noGoods.getD index [], ∀ f ∈ noGood, f ∈ facts := by
  obtain ⟨hlt, rfl⟩ := List.getElem?_eq_some_iff.1 hi
  rw [List.drop_eq_getElem_cons hlt, ← containsNoGood_iff, ← headD_drop]
  rfl

/-- The no-goods of a level are sealed by those of the level before. -/
theorem Regressive.sealed : ∀ {stages : List (Stage φ α)} {noGoods : NoGoods φ} {index : Nat}
    {stage : Stage φ α}, Regressive needs stages noGoods → stages[index]? = some stage →
      index + 1 < stages.length → ∀ facts ∈ noGoods.getD index [],
        Sealed needs stage (stages.drop (index + 1)) (noGoods.drop (index + 1)) facts
  | [_], _, _, _, _, _, hlt, _, _ => absurd (Nat.lt_of_succ_lt_succ hlt) (Nat.not_lt_zero _)
  | stage :: next :: rest, noGoods, 0, _, h, hi, _, facts, hfacts => by
    obtain rfl := Option.some.inj hi
    rw [← headD_drop, List.drop_zero] at hfacts
    rw [List.drop_one, List.drop_one]
    exact h.1 facts hfacts
  | stage :: next :: rest, noGoods, index + 1, _, h, hi, hlt, facts, hfacts => by
    rw [← headD_drop, ← List.drop_tail, headD_drop] at hfacts
    rw [List.drop_succ_cons, ← List.drop_tail (l := noGoods)]
    exact h.2.sealed hi (Nat.lt_of_succ_lt_succ hlt) facts hfacts

/-- What was blocked at a level stays blocked there. -/
theorem Learns.blocked_drop [LawfulBEq φ] {stages : List (Stage φ α)} {noGoods noGoods' : NoGoods φ}
    (h : Learns needs stages noGoods noGoods') {index : Nat} {facts : List φ}
    (hb : Blocked (stages.drop index) (noGoods.drop index) facts) :
    Blocked (stages.drop index) (noGoods'.drop index) facts := by
  obtain ⟨new, heq, -⟩ := h.level index
  cases hstages : stages.drop index with
  | nil => exact True.intro
  | cons stage earlier =>
    rw [hstages] at hb
    refine hb.imp_right fun hb => ?_
    rw [headD_drop] at hb ⊢
    rw [heq]
    exact containsNoGood_append hb

/-- **What the search records at a level is a set that it came to there.** -/
theorem demands_of_search : ∀ {stages : List (Stage φ α)} {facts : List φ} {noGoods : NoGoods φ}
    {depth : Nat} {goal : List φ}, goal ∈ (search needs stages facts noGoods).2.getD depth [] →
      goal ∈ noGoods.getD depth [] ∨ Demands needs stages depth facts goal
  | [], _, _, _, _, h => .inl h
  | [stage], _, _, _, _, h => .inl h
  | stage :: next :: rest, facts, noGoods, depth, goal, h => by
    have hhead : noGoods.headD [] = noGoods.getD 0 [] := by cases noGoods <;> rfl
    have htail : ∀ d, noGoods.tail.getD d [] = noGoods.getD (d + 1) [] := by
      intro d
      cases noGoods <;> rfl
    rw [search_cons] at h
    split at h
    · exact .inl h
    · rename_i hgo
      have hsupports : stage.supports facts = true := by
        cases hs : stage.supports facts with
        | true => rfl
        | false => exact absurd (by rw [hs]; rfl) hgo
      have horigin : ∀ d, ∀ goal ∈ (firstOutcome (goOn needs (next :: rest))
          (covers stage.isMutex stage.support [] facts) noGoods.tail).2.getD d [],
          goal ∈ noGoods.getD (d + 1) [] ∨ ∃ chosen ∈ covers stage.isMutex stage.support [] facts,
            Demands needs (next :: rest) d (preconditionsOf needs chosen) goal :=
        firstOutcome_origin (P := fun older : NoGoods φ => ∀ d, ∀ goal ∈ older.getD d [],
          goal ∈ noGoods.getD (d + 1) [] ∨ ∃ chosen ∈ covers stage.isMutex stage.support [] facts,
            Demands needs (next :: rest) d (preconditionsOf needs chosen) goal)
          (fun chosen hchosen s hs d goal hgoal => by
            rw [goOn_snd] at hgoal
            rcases demands_of_search hgoal with hgoal | hgoal
            · exact hs d goal hgoal
            · exact .inr ⟨chosen, hchosen, hgoal⟩)
          fun d goal hgoal => .inl (htail d ▸ hgoal)
      rcases hrun : firstOutcome (goOn needs (next :: rest))
        (covers stage.isMutex stage.support [] facts) noGoods.tail with ⟨_ | found, older⟩
      · rw [hrun] at h horigin
        cases depth with
        | zero =>
          rcases List.mem_append.1 h with h | h
          · exact .inl (hhead ▸ h)
          · exact .inr ⟨hsupports, List.mem_singleton.1 h⟩
        | succ d => exact (horigin d goal h).imp_right fun hd => ⟨hsupports, hd⟩
      · rw [hrun] at h horigin
        cases depth with
        | zero => exact .inl (hhead ▸ h)
        | succ d => exact (horigin d goal h).imp_right fun hd => ⟨hsupports, hd⟩

end Strips
