import Mathlib.Data.List.Nodup
import Strips.Graph.Search

/-!
# Which covers there are

The covers that the search visits are few of all sets of steps that could support the required
facts, but no other set can do better: whatever covers the facts contains, up to sameness, one of
the covers that are visited, and so needs at least what that one needs.

## Main definitions

* `Stage.Lawful` – what the theory asks of a stage.
* `Stage.Covers` – compatible steps that support the required facts.

## Main results

* `Stage.covers_of_mem` – what is visited is a cover, and holds no step twice.
* `Stage.Covers.exists_mem` – whatever is a cover contains one that is visited.
-/

namespace Strips

variable {φ α : Type} [BEq α]

/-- What the theory of the search asks of a stage. -/
structure Stage.Lawful (stage : Stage φ α) : Prop where
  /-- Fewer facts are supported when more of them are. -/
  supports_mono : ∀ {facts more : List φ}, (∀ f ∈ facts, f ∈ more) →
    stage.supports more = true → stage.supports facts = true
  isMutex_congr : ∀ {s s' t t' : α}, (s == s') = true → (t == t') = true →
    stage.isMutex s t = stage.isMutex s' t'
  isMutex_comm : ∀ s t, stage.isMutex s t = stage.isMutex t s
  isMutex_self : ∀ s, stage.isMutex s s = false

/-- Steps that are pairwise compatible, with one that supports each of the facts. -/
structure Stage.Covers (stage : Stage φ α) (chosen : List α) (facts : List φ) : Prop where
  compatible : ∀ s ∈ chosen, ∀ t ∈ chosen, stage.isMutex s t = false
  supported : ∀ f ∈ facts, ∃ s ∈ chosen, (stage.support f).contains s = true

theorem Stage.Covers.mono {stage : Stage φ α} {chosen : List α} {facts fewer : List φ}
    (h : stage.Covers chosen facts) (hsub : ∀ f ∈ fewer, f ∈ facts) : stage.Covers chosen fewer :=
  ⟨h.compatible, fun f hf => h.supported f (hsub f hf)⟩

/-! ### How covers are made -/

omit [BEq α] in
theorem admits_iff {isMutex : α → α → Bool} {chosen : List α} {s : α} :
    admits isMutex chosen s = true ↔ ∀ t ∈ chosen, isMutex s t = false := by
  simp [admits]

theorem mem_choose {chosen : List α} {s t : α} (h : t ∈ choose chosen s) : t ∈ chosen ∨ t = s := by
  rw [choose] at h
  split at h
  · exact .inl h
  · exact (List.mem_append.1 h).imp_right List.mem_singleton.1

theorem mem_choose_of_mem {chosen : List α} {s t : α} (h : t ∈ chosen) : t ∈ choose chosen s := by
  rw [choose]
  split
  · exact h
  · exact List.mem_append_left _ h

theorem contains_choose [EquivBEq α] (chosen : List α) (s : α) :
    (choose chosen s).contains s = true := by
  rw [choose]
  split
  · assumption
  · simp

/-- Collecting the different members of a list is erasing its duplicates. -/
theorem foldl_choose_eq_eraseDups (xs : List α) :
    xs.foldl choose [] = xs.eraseDups := by
  have key : ∀ seen : List α,
      xs.foldl choose seen.reverse = List.eraseDupsBy.loop (fun a b => a == b) xs seen := by
    induction xs with
    | nil => exact fun _ => rfl
    | cons x xs ih =>
      intro seen
      have hseen : seen.reverse.contains x = seen.any (x == ·) := by
        rw [List.contains_reverse, List.contains_eq_any_beq]
      rw [List.foldl_cons, choose, List.eraseDupsBy.loop, hseen]
      cases seen.any (x == ·) with
      | true => exact ih seen
      | false => rw [if_neg Bool.false_ne_true, ← List.reverse_cons, ih]
  exact key []

theorem mem_covers_cons {isMutex : α → α → Bool} {support : φ → List α} {chosen c : List α} {f : φ}
    {rest : List φ} :
    c ∈ covers isMutex support chosen (f :: rest) ↔
      ∃ s ∈ support f, admits isMutex chosen s = true ∧
        c ∈ covers isMutex support (choose chosen s) rest := by
  simp only [covers, List.mem_flatMap, List.mem_filter, and_assoc]

/-- What holds of the chosen steps, and still when a supporting step is chosen that is compatible
with them, holds of every cover. -/
theorem covers_induction {isMutex : α → α → Bool} {support : φ → List α} {P : List α → Prop}
    {facts : List φ}
    (hP : ∀ f ∈ facts, ∀ chosen, ∀ s ∈ support f, admits isMutex chosen s = true → P chosen →
      P (choose chosen s)) {chosen c : List α} (hc : c ∈ covers isMutex support chosen facts)
    (h : P chosen) : P c := by
  induction facts generalizing chosen with
  | nil =>
    rw [covers, List.mem_singleton] at hc
    exact hc ▸ h
  | cons f rest ih =>
    obtain ⟨s, hs, hadmits, hc⟩ := mem_covers_cons.1 hc
    exact ih (fun g hg => hP g (List.mem_cons_of_mem f hg)) hc
      (hP f List.mem_cons_self chosen s hs hadmits h)

theorem subset_of_mem_covers {isMutex : α → α → Bool} {support : φ → List α} {chosen c : List α}
    {facts : List φ} (hc : c ∈ covers isMutex support chosen facts) : ∀ s ∈ chosen, s ∈ c :=
  covers_induction (P := fun c => ∀ s ∈ chosen, s ∈ c)
    (fun _ _ _ _ _ _ h t ht => mem_choose_of_mem (h t ht)) hc fun _ => id

/-- Each fact has a supporting step in the cover, up to sameness. -/
theorem supported_of_mem_covers [EquivBEq α] {isMutex : α → α → Bool} {support : φ → List α}
    {c : List α} : ∀ {facts : List φ} {chosen : List α},
      c ∈ covers isMutex support chosen facts →
        ∀ f ∈ facts, ∃ s ∈ c, (support f).contains s = true
  | [], _, _, f, hf => absurd hf List.not_mem_nil
  | g :: rest, chosen, hc, f, hf => by
    obtain ⟨s, hs, -, hrest⟩ := mem_covers_cons.1 hc
    rcases List.mem_cons.1 hf with rfl | hf
    · obtain ⟨t, ht, hst⟩ := List.contains_iff_exists_mem_beq.1 (contains_choose chosen s)
      refine ⟨t, subset_of_mem_covers hrest t ht, ?_⟩
      exact List.contains_iff_exists_mem_beq.2 ⟨s, hs, BEq.symm hst⟩
    · exact supported_of_mem_covers hrest f hf

namespace Stage

variable {stage : Stage φ α}

/-- A visited cover holds supporting steps. -/
theorem exists_support_of_mem {facts : List φ} {c : List α}
    (hc : c ∈ covers stage.isMutex stage.support [] facts) : ∀ s ∈ c, ∃ f, s ∈ stage.support f :=
  covers_induction (P := fun c => ∀ s ∈ c, ∃ f, s ∈ stage.support f)
    (fun f _ _ _ hs _ h t ht => (mem_choose ht).elim (h t) fun e => ⟨f, e ▸ hs⟩) hc
    fun _ hs => absurd hs List.not_mem_nil

/-- A visited cover holds no step twice, not even up to sameness. -/
theorem pairwise_of_mem [EquivBEq α] {facts : List φ} {c : List α}
    (hc : c ∈ covers stage.isMutex stage.support [] facts) :
    c.Pairwise fun s t => (s == t) = false := by
  refine covers_induction (P := List.Pairwise fun s t => (s == t) = false)
    (fun f _ chosen s _ _ h => ?_) hc .nil
  rw [choose]
  split
  · exact h
  · rename_i hs
    refine List.pairwise_append.2 ⟨h, List.pairwise_singleton _ s, fun t ht u hu => ?_⟩
    rw [List.mem_singleton.1 hu]
    refine Bool.eq_false_iff.2 fun hts => hs ?_
    exact List.contains_iff_exists_mem_beq.2 ⟨t, ht, BEq.symm hts⟩

variable [EquivBEq α]

/-- **What is visited is a cover.** -/
theorem covers_of_mem (hl : stage.Lawful) {facts : List φ} {c : List α}
    (hc : c ∈ covers stage.isMutex stage.support [] facts) : stage.Covers c facts := by
  refine ⟨?_, supported_of_mem_covers hc⟩
  refine covers_induction (P := fun c => ∀ s ∈ c, ∀ t ∈ c, stage.isMutex s t = false)
    (fun f _ chosen s _ hadmits h => ?_) hc fun s hs => absurd hs List.not_mem_nil
  have hs := admits_iff.1 hadmits
  intro t ht u hu
  rcases mem_choose ht with ht | ht
  · rcases mem_choose hu with hu | hu
    · exact h t ht u hu
    · rw [hu, hl.isMutex_comm]
      exact hs t ht
  · rw [ht]
    rcases mem_choose hu with hu | hu
    · exact hs u hu
    · rw [hu]
      exact hl.isMutex_self s

theorem Covers.exists_mem_of_chosen (hl : stage.Lawful) {d : List α} :
    ∀ {facts : List φ} {chosen : List α}, stage.Covers d facts →
      (∀ s ∈ chosen, d.contains s = true) →
      ∃ c ∈ covers stage.isMutex stage.support chosen facts, ∀ s ∈ c, d.contains s = true
  | [], chosen, _, hchosen => ⟨chosen, by rw [covers, List.mem_singleton], hchosen⟩
  | f :: rest, chosen, h, hchosen => by
    obtain ⟨s, hs, hsupport⟩ := h.supported f List.mem_cons_self
    obtain ⟨u, hu, hsu⟩ := List.contains_iff_exists_mem_beq.1 hsupport
    have hud : d.contains u = true := List.contains_iff_exists_mem_beq.2 ⟨s, hs, BEq.symm hsu⟩
    have hadmits : admits stage.isMutex chosen u = true := by
      refine admits_iff.2 fun t ht => ?_
      obtain ⟨t', ht', htt⟩ := List.contains_iff_exists_mem_beq.1 (hchosen t ht)
      rw [← hl.isMutex_congr hsu (BEq.symm htt)]
      exact h.compatible s hs t' ht'
    have hchosen' : ∀ t ∈ choose chosen u, d.contains t = true :=
      fun t ht => (mem_choose ht).elim (hchosen t) fun e => e ▸ hud
    obtain ⟨c, hc, hcd⟩ :=
      (h.mono fun g hg => List.mem_cons_of_mem f hg).exists_mem_of_chosen hl hchosen'
    exact ⟨c, mem_covers_cons.2 ⟨u, hu, hadmits, hc⟩, hcd⟩

/-- **Whatever is a cover contains one that is visited**, up to sameness. -/
theorem Covers.exists_mem (hl : stage.Lawful) {d : List α} {facts : List φ}
    (h : stage.Covers d facts) :
    ∃ c ∈ covers stage.isMutex stage.support [] facts, ∀ s ∈ c, d.contains s = true :=
  h.exists_mem_of_chosen hl fun _ hs => absurd hs List.not_mem_nil

end Stage

end Strips
