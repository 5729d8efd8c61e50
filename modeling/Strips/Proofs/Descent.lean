import Strips.Proofs.NoGoods

/-!
# Going down through the levels

From some facts the search goes down: the facts are supported, a cover of them is chosen, and what
it needs is required one level below. A descent is what a search could do that chose any cover. It
does not depend on the order in which covers are visited, and it says what a search that fails has
learnt: at each level it has blocked exactly the sets that contain one to which a descent leads.

Blocked sets go down to blocked sets, since each cover of a no-good needs a set that is blocked. So
the no-goods that are recorded depend on the order in which covers are visited, and what is blocked
by them does not.

## Main definitions

* `Descends` – a number of levels down, some facts lead to others.
* `Stage.Agrees`, `Regresses` – levels that do not differ, and a descent through such levels.

## Main results

* `Blocked.of_descends` – blocked sets go down to blocked sets.
* `blocked_drop_search_iff` – what a search that fails has blocked.
* `Learns.length_ne_iff` – no-goods are recorded at a level exactly if more is blocked there.
* `Descends.congr` – levels that do not differ have the same descents.
-/

namespace Strips

variable {φ α : Type} [BEq φ] [BEq α] {needs : α → List φ}

/-- A number of levels down some facts lead to others: at each level on the way they are supported,
and what one of their covers needs is taken instead. -/
def Descends (needs : α → List φ) : Nat → List (Stage φ α) → List φ → List φ → Prop
  | 0, _, facts, goal => ∀ f ∈ facts, f ∈ goal
  | _ + 1, [], _, _ => False
  | depth + 1, stage :: earlier, facts, goal => stage.supports facts = true ∧
    ∃ chosen, stage.Covers chosen facts ∧
      Descends needs depth earlier (preconditionsOf needs chosen) goal

/-- Fewer facts lead to the same sets and more. -/
theorem Descends.mono : ∀ {depth : Nat} {stages : List (Stage φ α)}
    {facts fewer goal more : List φ}, (∀ stage ∈ stages, stage.Lawful) →
      Descends needs depth stages facts goal → (∀ f ∈ fewer, f ∈ facts) →
      (∀ f ∈ goal, f ∈ more) → Descends needs depth stages fewer more
  | 0, _, _, _, _, _, _, h, hfewer, hmore => fun f hf => hmore f (h f (hfewer f hf))
  | depth + 1, stage :: earlier, _, _, _, _, hl, h, hfewer, hmore => by
    obtain ⟨hsupports, chosen, hchosen, hrest⟩ := h
    obtain ⟨hstage, hearlier⟩ := List.forall_mem_cons.1 hl
    exact ⟨hstage.supports_mono hfewer hsupports, chosen, hchosen.mono hfewer,
      hrest.mono hearlier (fun _ => id) hmore⟩

/-- **Blocked sets go down to blocked sets**: a no-good that facts contain is sealed, and their
covers are covers of it. -/
theorem Blocked.of_descends [LawfulBEq φ] : ∀ {depth : Nat} {stages : List (Stage φ α)}
    {noGoods : NoGoods φ} {facts goal : List φ}, (∀ stage ∈ stages, stage.Lawful) →
      depth < stages.length → Regressive needs stages noGoods → Blocked stages noGoods facts →
      Descends needs depth stages facts goal → Blocked (stages.drop depth) (noGoods.drop depth) goal
  | 0, stages, noGoods, facts, goal, hl, _, _, hb, h => hb.mono hl h
  | depth + 1, [], _, _, _, _, hlen, _, _, _ => absurd hlen (Nat.not_lt_zero _)
  | depth + 1, [_], _, _, _, _, hlen, _, _, _ =>
    absurd (Nat.lt_of_succ_lt_succ hlen) (Nat.not_lt_zero _)
  | depth + 1, stage :: next :: rest, noGoods, facts, goal, hl, hlen, hr, hb, h => by
    obtain ⟨hsupports, chosen, hcovers, hrest⟩ := h
    obtain ⟨noGood, hmem, hsub⟩ : ∃ noGood ∈ noGoods.headD [], ∀ f ∈ noGood, f ∈ facts := by
      rcases hb with hb | hb
      · rw [hsupports] at hb
        cases hb
      · exact containsNoGood_iff.1 hb
    have hbelow := hr.1 noGood hmem chosen (hcovers.mono hsub)
    have hdrop : noGoods.drop (depth + 1) = noGoods.tail.drop depth := by rw [List.drop_tail]
    rw [hdrop, List.drop_succ_cons]
    exact hbelow.of_descends (fun s hs => hl s (List.mem_cons_of_mem stage hs))
      (Nat.lt_of_succ_lt_succ hlen) hr.2 hrest

/-- A search goes down. -/
theorem Demands.descends [LawfulBEq φ] [EquivBEq α] : ∀ {depth : Nat} {stages : List (Stage φ α)}
    {facts goal : List φ}, (∀ stage ∈ stages, stage.Lawful) →
      Demands needs stages depth facts goal → Descends needs depth stages facts goal
  | _, [], _, _, _, h => by cases h
  | 0, stage :: earlier, facts, goal, _, h => fun f hf => h.2 ▸ List.mem_eraseDups.2 hf
  | depth + 1, stage :: earlier, facts, goal, hl, h => by
    obtain ⟨hsupports, chosen, hchosen, hrest⟩ := h
    obtain ⟨hstage, hearlier⟩ := List.forall_mem_cons.1 hl
    exact ⟨hsupports, chosen, Stage.covers_of_mem hstage hchosen, hrest.descends hearlier⟩

/-! ### What a search has learnt -/

section Search

variable [LawfulBEq φ] [EquivBEq α]

/-- **What a search that fails has blocked**: at each level what was blocked before, and the sets to
which a descent leads. -/
theorem blocked_drop_search_iff
    (hneeds : ∀ {s t : α} {f}, (s == t) = true → f ∈ needs s → f ∈ needs t)
    {stages : List (Stage φ α)} (hl : ∀ stage ∈ stages, stage.Lawful) {facts : List φ}
    {noGoods : NoGoods φ} (hlen : noGoods.length = stages.length)
    (hr : Regressive needs stages noGoods) (h : (search needs stages facts noGoods).1 = none)
    {depth : Nat} (hdepth : depth < stages.length) {goal : List φ} :
    Blocked (stages.drop depth) ((search needs stages facts noGoods).2.drop depth) goal ↔
      Blocked (stages.drop depth) (noGoods.drop depth) goal ∨
        Descends needs depth stages facts goal := by
  obtain ⟨hlearns, hblocked⟩ : Learns needs stages noGoods (search needs stages facts noGoods).2 ∧
    (_ → Blocked stages (search needs stages facts noGoods).2 facts) := search_learns hneeds hl hlen
  constructor
  · intro hb
    have hi := List.getElem?_eq_getElem hdepth
    rcases (blocked_drop_iff hi).1 hb with hs | ⟨noGood, hmem, hsub⟩
    · exact .inl ((blocked_drop_iff hi).2 (.inl hs))
    · rcases demands_of_search hmem with hold | hnew
      · exact .inl ((blocked_drop_iff hi).2 (.inr ⟨noGood, hold, hsub⟩))
      · exact .inr ((hnew.descends hl).mono hl (fun _ => id) hsub)
  · rintro (hb | hd)
    · exact hlearns.blocked_drop hb
    · exact (hblocked h).of_descends hl hdepth (hlearns.regressive hr) hd

end Search

/-- **No-goods are recorded at a level exactly if more is blocked there** than before. -/
theorem Learns.length_ne_iff [LawfulBEq φ] {stages : List (Stage φ α)}
    {noGoods noGoods' : NoGoods φ} (h : Learns needs stages noGoods noGoods') {index : Nat}
    (hindex : index < stages.length) :
    (noGoods'.getD index []).length ≠ (noGoods.getD index []).length ↔
      ∃ facts, Blocked (stages.drop index) (noGoods'.drop index) facts ∧
        ¬ Blocked (stages.drop index) (noGoods.drop index) facts := by
  have hi := List.getElem?_eq_getElem hindex
  obtain ⟨new, heq, hnew, -⟩ := h.level index
  simp only [blocked_drop_iff hi, heq, List.length_append]
  cases new with
  | nil =>
    refine ⟨fun hne => absurd rfl hne, ?_⟩
    rintro ⟨facts, hb, hnb⟩
    rw [List.append_nil] at hb
    exact absurd hb hnb
  | cons facts more =>
    obtain ⟨stage, hstage, hsupports, hfresh⟩ := hnew facts List.mem_cons_self
    obtain rfl := Option.some.inj (hi.symm.trans hstage)
    refine ⟨fun _ => ⟨facts, .inr ⟨facts, ?_, fun _ => id⟩, ?_⟩, fun _ => by simp⟩
    · exact List.mem_append_right _ List.mem_cons_self
    · rintro (hs | ⟨noGood, hmem, hsub⟩)
      · rw [hsupports] at hs
        cases hs
      · exact hfresh noGood hmem hsub

/-! ### Levels that do not differ -/

/-- Two stages support the same sets by the same steps, with the same exclusions. -/
structure Stage.Agrees (stage other : Stage φ α) : Prop where
  supports : ∀ facts, stage.supports facts = other.supports facts
  isMutex : ∀ s t, stage.isMutex s t = other.isMutex s t
  contains_support : ∀ f s, (stage.support f).contains s = (other.support f).contains s

omit [BEq φ] in
theorem Stage.Agrees.covers {stage other : Stage φ α} (h : stage.Agrees other) {chosen : List α}
    {facts : List φ} (hc : stage.Covers chosen facts) : other.Covers chosen facts :=
  ⟨fun s hs t ht => h.isMutex s t ▸ hc.compatible s hs t ht, fun f hf => by
    obtain ⟨s, hs, hfs⟩ := hc.supported f hf
    exact ⟨s, hs, h.contains_support f s ▸ hfs⟩⟩

omit [BEq φ] in
theorem Stage.Agrees.symm {stage other : Stage φ α} (h : stage.Agrees other) : other.Agrees stage :=
  ⟨fun facts => (h.supports facts).symm, fun s t => (h.isMutex s t).symm,
    fun f s => (h.contains_support f s).symm⟩

/-- A number of regressions through one stage leads from some facts to others: each time the facts
are supported, and what one of their covers needs is taken instead. -/
def Regresses (needs : α → List φ) (stage : Stage φ α) : Nat → List φ → List φ → Prop
  | 0, facts, goal => ∀ f ∈ facts, f ∈ goal
  | depth + 1, facts, goal => stage.supports facts = true ∧
    ∃ chosen, stage.Covers chosen facts ∧
      Regresses needs stage depth (preconditionsOf needs chosen) goal

omit [BEq φ] in
/-- A stage that agrees with another one is covered by the same steps. -/
theorem Stage.Agrees.covers_iff {stage other : Stage φ α} (h : stage.Agrees other) {chosen : List α}
    {facts : List φ} : stage.Covers chosen facts ↔ other.Covers chosen facts :=
  ⟨h.covers, h.symm.covers⟩

/-- Where the levels do not differ, to go down is to regress. -/
theorem descends_iff_regresses {stage : Stage φ α} : ∀ {depth : Nat} {stages : List (Stage φ α)}
    {facts goal : List φ}, depth ≤ stages.length →
      (∀ other ∈ stages.take depth, other.Agrees stage) →
      (Descends needs depth stages facts goal ↔ Regresses needs stage depth facts goal)
  | 0, _, _, _, _, _ => .rfl
  | depth + 1, [], _, _, hlen, _ => absurd hlen (Nat.not_succ_le_zero _)
  | depth + 1, other :: earlier, facts, goal, hlen, hagrees => by
    rw [List.take_succ_cons] at hagrees
    obtain ⟨hother, hearlier⟩ := List.forall_mem_cons.1 hagrees
    rw [Descends, Regresses, hother.supports]
    refine and_congr_right fun _ => exists_congr fun chosen => ?_
    exact and_congr hother.covers_iff
      (descends_iff_regresses (Nat.le_of_succ_le_succ hlen) hearlier)

theorem Demands.regresses [LawfulBEq φ] [EquivBEq α] {stage : Stage φ α} {depth : Nat}
    {stages : List (Stage φ α)} {facts goal : List φ} (hl : ∀ other ∈ stages, other.Lawful)
    (hagrees : ∀ other ∈ stages.take depth, other.Agrees stage) (hlen : depth ≤ stages.length)
    (h : Demands needs stages depth facts goal) : Regresses needs stage depth facts goal :=
  (descends_iff_regresses hlen hagrees).1 (h.descends hl)

/-- **Blocked sets regress to blocked sets** as long as the levels do not differ. -/
theorem Blocked.regress [LawfulBEq φ] {stage : Stage φ α} {depth : Nat} {stages : List (Stage φ α)}
    {noGoods : NoGoods φ} {facts goal : List φ} (hl : ∀ other ∈ stages, other.Lawful)
    (hagrees : ∀ other ∈ stages.take depth, other.Agrees stage) (hlen : depth < stages.length)
    (hr : Regressive needs stages noGoods) (hb : Blocked stages noGoods facts)
    (h : Regresses needs stage depth facts goal) :
    Blocked (stages.drop depth) (noGoods.drop depth) goal :=
  hb.of_descends hl hlen hr ((descends_iff_regresses (Nat.le_of_lt hlen) hagrees).2 h)

/-- **Levels that do not differ have the same descents.** -/
theorem Descends.congr : ∀ {depth : Nat} {stages others : List (Stage φ α)} {facts goal : List φ},
    List.Forall₂ Stage.Agrees (stages.take depth) (others.take depth) →
      Descends needs depth stages facts goal → Descends needs depth others facts goal
  | 0, _, _, _, _, _, h => h
  | depth + 1, stage :: earlier, [], _, _, hagrees, _ => by cases hagrees
  | depth + 1, stage :: earlier, other :: others, facts, goal, hagrees, h => by
    rw [List.take_succ_cons, List.take_succ_cons] at hagrees
    cases hagrees with
    | cons hstage hearlier =>
      obtain ⟨hsupports, chosen, hchosen, hrest⟩ := h
      exact ⟨hstage.supports facts ▸ hsupports, chosen, hstage.covers hchosen,
        hrest.congr hearlier⟩

end Strips
