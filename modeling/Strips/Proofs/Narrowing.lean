import Strips.Proofs.PlainSearch

/-!
# Searching with fewer steps

A stage is narrower than another one when it lacks every step that needs what is not allowed below,
and when two of its steps exclude each other also if what they need together is not allowed. Facts
are allowed together if any two of them are, so a cover at the wider stage needs only what is
allowed exactly if it is a cover at the narrower one, and the covers of both come in the same order.
The plain search finds nothing with the others: from what is not allowed it comes back empty-handed.

## Main definitions

* `Stage.Narrows` – a stage that lacks what is not allowed below.

## Main results

* `Stage.Narrows.covers_eq` – the covers at a narrower stage.
* `Stage.Narrows.plainSearch_eq` – if the search from below is the same, so is the search.
-/

namespace Strips

/-! ### Lists -/

theorem flatMap_filter {β γ : Type} (q : β → Bool) (f : β → List γ) (xs : List β) :
    (xs.filter q).flatMap f = xs.flatMap fun x => if q x then f x else [] := by
  induction xs with
  | nil => rfl
  | cons x xs ih =>
    rw [List.filter_cons, List.flatMap_cons, ← ih]
    split <;> simp

/-- What gives nothing can be left out. -/
theorem findSome?_filter {β γ : Type} {q : β → Bool} {f : β → Option γ} {xs : List β}
    (h : ∀ x ∈ xs, q x = false → f x = none) : (xs.filter q).findSome? f = xs.findSome? f := by
  induction xs with
  | nil => rfl
  | cons x xs ih =>
    obtain ⟨hx, hxs⟩ := List.forall_mem_cons.1 h
    rw [List.filter_cons, List.findSome?_cons]
    cases hq : q x with
    | true => rw [if_pos rfl, List.findSome?_cons, ih hxs]
    | false =>
      rw [if_neg Bool.false_ne_true, ih hxs, hx hq]

variable {φ α : Type} [BEq φ] [BEq α] {needs : α → List φ} {allows : List φ → Bool}

/-- The narrower stage has the steps of the wider one that need what is allowed, in the same order.
Two of them exclude each other at the narrower stage if they do at the wider one, or if what they
need together is not allowed. -/
structure Stage.Narrows (needs : α → List φ) (allows : List φ → Bool)
    (narrow wide : Stage φ α) : Prop where
  /-- Facts are allowed together if any two of them are. -/
  allows_iff : ∀ facts, allows facts = true ↔ ∀ f ∈ facts, ∀ g ∈ facts, allows [f, g] = true
  support_eq : ∀ f, narrow.support f = (wide.support f).filter fun s => allows (needs s)
  isMutex_eq_false_iff : ∀ f, ∀ s ∈ narrow.support f, ∀ g, ∀ t ∈ narrow.support g,
    narrow.isMutex s t = false ↔ wide.isMutex s t = false ∧ allows (needs s ++ needs t) = true

namespace Stage.Narrows

variable {narrow wide : Stage φ α} (h : narrow.Narrows needs allows wide)

include h

omit [BEq φ] [BEq α] in
theorem allows_mono {facts more : List φ} (hsub : ∀ f ∈ facts, f ∈ more)
    (hmore : allows more = true) : allows facts = true :=
  (h.allows_iff facts).2 fun f hf g hg => (h.allows_iff more).1 hmore f (hsub f hf) g (hsub g hg)

variable [LawfulBEq φ] [EquivBEq α]
  (hneeds : ∀ {s t : α} {f}, (s == t) = true → f ∈ needs s → f ∈ needs t)

include hneeds

/-- When one more step is chosen, what is needed stays allowed if it is allowed with what each of
the others needs. -/
theorem allows_choose {chosen : List α} (hchosen : allows (preconditionsOf needs chosen) = true)
    (s : α) : allows (preconditionsOf needs (choose chosen s)) = true ↔
      allows (needs s) = true ∧ ∀ t ∈ chosen, allows (needs s ++ needs t) = true := by
  have hneeded : ∀ f ∈ needs s, f ∈ preconditionsOf needs (choose chosen s) := by
    intro f hf
    obtain ⟨t, ht, hst⟩ := List.contains_iff_exists_mem_beq.1 (contains_choose chosen s)
    exact mem_preconditionsOf.2 ⟨t, ht, hneeds hst hf⟩
  constructor
  · intro hall
    refine ⟨h.allows_mono hneeded hall, fun t ht => h.allows_mono (fun f hf => ?_) hall⟩
    rcases List.mem_append.1 hf with hf | hf
    · exact hneeded f hf
    · exact mem_preconditionsOf.2 ⟨t, mem_choose_of_mem ht, hf⟩
  · rintro ⟨hs, hpairs⟩
    refine (h.allows_iff _).2 fun f hf g hg => ?_
    obtain ⟨t, ht, hft⟩ := mem_preconditionsOf.1 hf
    obtain ⟨u, hu, hgu⟩ := mem_preconditionsOf.1 hg
    have hpair : ∀ t ∈ chosen, ∀ f ∈ needs s, ∀ g ∈ needs t,
        allows [f, g] = true ∧ allows [g, f] = true := fun t ht f hf g hg =>
      have hboth := (h.allows_iff _).1 (hpairs t ht)
      ⟨hboth f (List.mem_append_left _ hf) g (List.mem_append_right _ hg),
        hboth g (List.mem_append_right _ hg) f (List.mem_append_left _ hf)⟩
    rcases mem_choose ht with ht | hts <;> rcases mem_choose hu with hu | hus
    · exact (h.allows_iff _).1 hchosen f (mem_preconditionsOf.2 ⟨t, ht, hft⟩) g
        (mem_preconditionsOf.2 ⟨u, hu, hgu⟩)
    · exact (hpair t ht g (hus ▸ hgu) f hft).2
    · exact (hpair u hu f (hts ▸ hft) g hgu).1
    · exact (h.allows_iff _).1 hs f (hts ▸ hft) g (hus ▸ hgu)

/-- A step is chosen at the narrower stage if it is chosen at the wider one and what is needed stays
allowed. -/
theorem admits_and_allows_iff {chosen : List α} (hsupport : ∀ t ∈ chosen, ∃ g, t ∈ narrow.support g)
    (hchosen : allows (preconditionsOf needs chosen) = true) {f : φ} {s : α}
    (hs : s ∈ wide.support f) : (admits narrow.isMutex chosen s && allows (needs s)) = true ↔
      admits wide.isMutex chosen s = true ∧
        allows (preconditionsOf needs (choose chosen s)) = true := by
  rw [Bool.and_eq_true, h.allows_choose hneeds hchosen, admits_iff, admits_iff]
  have hpair : ∀ t ∈ chosen, allows (needs s) = true → (narrow.isMutex s t = false ↔
      wide.isMutex s t = false ∧ allows (needs s ++ needs t) = true) := by
    intro t ht hs'
    obtain ⟨g, hg⟩ := hsupport t ht
    have hmem : s ∈ narrow.support f := h.support_eq f ▸ List.mem_filter.2 ⟨hs, hs'⟩
    exact h.isMutex_eq_false_iff f s hmem g t hg
  constructor
  · rintro ⟨hfree, hs'⟩
    exact ⟨fun t ht => ((hpair t ht hs').1 (hfree t ht)).1, hs',
      fun t ht => ((hpair t ht hs').1 (hfree t ht)).2⟩
  · rintro ⟨hfree, hs', hpairs⟩
    exact ⟨fun t ht => (hpair t ht hs').2 ⟨hfree t ht, hpairs t ht⟩, hs'⟩

/-- **The covers at the narrower stage** are those at the wider one that need what is allowed, in
the same order. -/
theorem covers_eq : ∀ {facts : List φ} {chosen : List α},
    (∀ s ∈ chosen, ∃ f, s ∈ narrow.support f) → allows (preconditionsOf needs chosen) = true →
      covers narrow.isMutex narrow.support chosen facts =
        (covers wide.isMutex wide.support chosen facts).filter
          fun c => allows (preconditionsOf needs c)
  | [], chosen, _, hchosen => by
    rw [covers, covers, List.filter_cons, if_pos hchosen, List.filter_nil]
  | f :: rest, chosen, hsupport, hchosen => by
    rw [covers, covers, h.support_eq, List.filter_filter, List.filter_flatMap, flatMap_filter,
      flatMap_filter]
    refine List.flatMap_congr fun s hs => ?_
    have hadmits := h.admits_and_allows_iff hneeds hsupport hchosen hs
    by_cases hwide : admits wide.isMutex chosen s = true
    · rw [if_pos hwide]
      by_cases hallows : allows (preconditionsOf needs (choose chosen s)) = true
      · rw [if_pos (hadmits.2 ⟨hwide, hallows⟩)]
        refine covers_eq (fun t ht => ?_) hallows
        have hs' := ((h.allows_choose hneeds hchosen s).1 hallows).1
        exact (mem_choose ht).elim (hsupport t) fun e =>
          ⟨f, e ▸ h.support_eq f ▸ List.mem_filter.2 ⟨hs, hs'⟩⟩
      · -- whatever is chosen after it, the step needs what is not allowed
        rw [if_neg fun hboth => hallows (hadmits.1 hboth).2, eq_comm]
        refine List.filter_eq_nil_iff.2 fun c hc hcallows => hallows ?_
        refine h.allows_mono (fun g hg => ?_) hcallows
        obtain ⟨t, ht, hgt⟩ := mem_preconditionsOf.1 hg
        exact mem_preconditionsOf.2 ⟨t, subset_of_mem_covers hc t ht, hgt⟩
    · rw [if_neg fun hboth => hwide (hadmits.1 hboth).1, if_neg hwide]

/-- **Nothing that the wider stage has in addition leads to a plan**, if the search from below finds
the same from both, and nothing for what is not allowed. -/
theorem plainSearch_eq {next next' : Stage φ α} {rest rest' : List (Stage φ α)} {facts : List φ}
    (hbelow : ∀ needed, plainSearch needs (next :: rest) needed =
      plainSearch needs (next' :: rest') needed)
    (hallows : ∀ needed, allows needed = false → plainSearch needs (next :: rest) needed = none)
    (hnil : allows [] = true) (hs : narrow.supports facts = wide.supports facts) :
    plainSearch needs (narrow :: next :: rest) facts =
      plainSearch needs (wide :: next' :: rest') facts := by
  rw [plainSearch_cons, plainSearch_cons, hs]
  have hempty : allows (preconditionsOf needs ([] : List α)) = true := hnil
  rw [h.covers_eq hneeds (fun s hs => absurd hs List.not_mem_nil) hempty, findSome?_filter]
  · simp only [hbelow]
  · intro chosen _ hno
    rw [hallows _ hno]
    rfl

end Stage.Narrows

end Strips
