import Strips.Proofs.Matching
import Strips.Proofs.Partition

/-!
# The loop that unifies

The cells of a literal get the values of another one, one cell after the other, and each of them
passes its value on to its class. What the loop has done at some moment is kept in
`Arena.Unifying`: the terms that were looked at say what stands against them, and what was bound was
open before. So what was bound can be taken back, in the middle of the loop and after its end.

Nothing is supposed of the other literal. It may have open cells, even of the same classes, and a
term without a value stops the loop only if it has none when its turn comes.

## Main definitions

* `Arena.Unifying` – the state of the loop.
* `Literal.UnifyEnds` – the three ways in which the loop ends.

## Main results

* `Arena.Unifying.pass`, `Arena.Unifying.bind` – what one term does.
* `Arena.Unifying.undo` – what was bound can be taken back.
* `Literal.unify_cases` – what unifying does.
-/

namespace Strips

/-- Whether a term takes a value. -/
def Term.accepts (a : Arena) (v : String) : Term → Bool
  | const w => w == v
  | cell i => a.accepts i v

namespace Arena

/-! ### Values that are accepted and taken back -/

/-- An open class accepts a value that none of its partners has. -/
theorem accepts_iff_of_none {a : Arena} {i : Nat} {v : String} (hi : a.value? i = none) :
    a.accepts i v = true ↔ ∀ j ∈ a.members i, ∀ k ∈ a.partners j, a.value? k ≠ some v := by
  rw [accepts, hi]
  simp [isExcluded]

theorem accepts_of_some {a : Arena} {i : Nat} {v w : String} (hi : a.value? i = some w) :
    a.accepts i v = true ↔ w = v := by
  rw [accepts, hi]
  exact beq_iff_eq

/-- **Clearing several cells** takes the values of their classes away, and no other ones. -/
theorem Sound.clear_cells : ∀ {is : List Nat} {a : Arena}, a.Sound →
    (∀ i ∈ is, i < a.size ∧ a.isConstant i = false) →
    a.Revalued (is.foldl Arena.clear a).value? (is.foldl Arena.clear a) ∧
      ∀ k, ((∃ i ∈ is, a.root k = a.root i) → (is.foldl Arena.clear a).value? k = none) ∧
        ((∀ i ∈ is, a.root k ≠ a.root i) → (is.foldl Arena.clear a).value? k = a.value? k)
  | [], a, h, _ => by
    refine ⟨.refl h, fun k => ⟨?_, fun _ => rfl⟩⟩
    rintro ⟨i, hi, -⟩
    cases hi
  | i :: is, a, h, his => by
    obtain ⟨⟨hi, hconst⟩, hrest⟩ := List.forall_mem_cons.1 his
    have hclear := h.clear hi
    rw [hconst, if_neg Bool.false_ne_true] at hclear
    have hcells : ∀ j ∈ is, j < (a.clear i).size ∧ (a.clear i).isConstant j = false := by
      rwa [hclear.same.size, hclear.same.isConstant]
    obtain ⟨hsame, hvalues⟩ := hclear.sound.clear_cells hcells
    rw [hclear.same.root, hclear.value?] at hvalues
    refine ⟨hclear.trans hsame, fun k => ⟨?_, fun hk => ?_⟩⟩
    · rintro ⟨j, hj, hkj⟩
      by_cases hlater : ∃ j ∈ is, a.root k = a.root j
      · exact (hvalues k).1 hlater
      · -- the class was cleared first, and is not touched later
        obtain rfl : j = i := (List.mem_cons.1 hj).resolve_right fun hj => hlater ⟨j, hj, hkj⟩
        have hkept := (hvalues k).2 fun m hm hkm => hlater ⟨m, hm, hkm⟩
        exact hkept.trans (if_pos hkj)
    · obtain ⟨hki, hks⟩ := List.forall_mem_cons.1 hk
      exact ((hvalues k).2 hks).trans (if_neg hki)

/-! ### The state of the loop -/

/-- Where unifying stands in the arena `b` that began with `a`: the pairs in `done` were looked at,
and the cells in `bound` were open and got a value. -/
structure Unifying (a : Arena) (done : List (Term × Term)) (bound : List Nat) (b : Arena) :
    Prop where
  sound : a.Sound
  same : a.Revalued b.value? b
  was_open : ∀ i ∈ bound, i < a.size ∧ a.value? i = none
  mem_done : ∀ i ∈ bound, ∃ s, (.cell i, s) ∈ done
  kept : ∀ k, (∀ i ∈ bound, a.root k ≠ a.root i) → b.value? k = a.value? k
  agreed : ∀ p ∈ done, ∃ v, p.1.value? b = some v ∧ p.2.value? b = some v
  apart : ∀ i ∈ bound, ∀ j ∈ a.members i, ∀ k ∈ a.partners j, b.value? k ≠ b.value? i

namespace Unifying

theorem start {a : Arena} (h : a.Sound) : a.Unifying [] [] a where
  sound := h
  same := .refl h
  was_open _ hi := absurd hi List.not_mem_nil
  mem_done _ hi := absurd hi List.not_mem_nil
  kept _ _ := rfl
  agreed _ hp := absurd hp List.not_mem_nil
  apart _ hi := absurd hi List.not_mem_nil

variable {a b : Arena} {done : List (Term × Term)} {bound : List Nat}

/-- Only what can be seen of the arena counts. -/
theorem congr {c : Arena} (h : a.Unifying done bound b) (hc : b.Revalued b.value? c) :
    a.Unifying done bound c := by
  obtain ⟨hsound, hsame, hopen, hmem, hkept, hagreed, hapart⟩ := h
  have hvalue := hc.value?
  have hterm : ∀ t : Term, t.value? c = t.value? b := fun t => by
    cases t with
    | const v => rfl
    | cell i => exact congrFun hvalue i
  refine ⟨hsound, hvalue ▸ hsame.trans hc, hopen, hmem, ?_, ?_, ?_⟩
  · rwa [hvalue]
  · simpa only [hterm] using hagreed
  · rwa [hvalue]

variable (h : a.Unifying done bound b)

include h

/-- A value that was there before is there still. -/
theorem value?_of_some {k : Nat} {v : String} (hv : a.value? k = some v) : b.value? k = some v := by
  rw [h.kept k fun i hi hki => ?_, hv]
  rw [value?_eq_of_root hki, (h.was_open i hi).2] at hv
  cases hv

theorem value?_eq_none {k : Nat} (hk : b.value? k = none) : a.value? k = none := by
  cases hv : a.value? k with
  | none => rfl
  | some v => rw [h.value?_of_some hv] at hk; cases hk

theorem term_value?_of_some {t : Term} {v : String} (hv : t.value? a = some v) :
    t.value? b = some v := by
  cases t with
  | const w => exact hv
  | cell i => exact h.value?_of_some hv

theorem value?_congr {k i : Nat} (hki : a.root k = a.root i) : b.value? k = b.value? i :=
  value?_eq_of_root (by rw [h.same.same.root, hki])

/-- A cell that was looked at has the value of the term that stands against it. -/
theorem exists_value? {i : Nat} {s : Term} (hs : (.cell i, s) ∈ done) :
    ∃ v, b.value? i = some v ∧ s.value? b = some v :=
  h.agreed _ hs

/-- A new value was given to a cell that stands against a term with this value. -/
theorem exists_done_of_new {k : Nat} {v : String} (hk : a.value? k = none)
    (hv : b.value? k = some v) :
    ∃ i ∈ bound, a.root k = a.root i ∧ ∃ s, (.cell i, s) ∈ done ∧ s.value? b = some v := by
  by_cases hnew : ∃ i ∈ bound, a.root k = a.root i
  · obtain ⟨i, hi, hki⟩ := hnew
    obtain ⟨s, hs⟩ := h.mem_done i hi
    obtain ⟨w, hw, hsw⟩ := h.exists_value? hs
    rw [← h.value?_congr hki, hv] at hw
    exact ⟨i, hi, hki, s, hs, hw ▸ hsw⟩
  · rw [h.kept k fun i hi hki => hnew ⟨i, hi, hki⟩, hk] at hv
    cases hv

/-- The open classes that got a value are those of the cells that were looked at. -/
theorem isSome_value?_iff {k : Nat} (hk : a.value? k = none) : (b.value? k).isSome = true ↔
    ∃ i, .cell i ∈ done.map Prod.fst ∧ a.root i = a.root k := by
  constructor
  · intro hsome
    obtain ⟨v, hv⟩ := Option.isSome_iff_exists.1 hsome
    obtain ⟨i, -, hki, s, hs, -⟩ := h.exists_done_of_new hk hv
    exact ⟨i, List.mem_map.2 ⟨_, hs, rfl⟩, hki.symm⟩
  · rintro ⟨i, hi, hik⟩
    obtain ⟨⟨t, s⟩, hs, rfl⟩ := List.mem_map.1 hi
    obtain ⟨v, hv, -⟩ := h.exists_value? hs
    rw [h.value?_congr hik.symm, hv]
    rfl

/-- No value has changed only if nothing was bound. -/
theorem value?_eq_iff : b.value? = a.value? ↔ bound = [] := by
  constructor
  · intro heq
    refine List.eq_nil_iff_forall_not_mem.2 fun i hi => ?_
    obtain ⟨s, hs⟩ := h.mem_done i hi
    obtain ⟨v, hv, -⟩ := h.exists_value? hs
    rw [heq, (h.was_open i hi).2] at hv
    cases hv
  · rintro rfl
    exact funext fun k => h.kept k fun i hi => absurd hi List.not_mem_nil

/-- What was bound can be taken back. -/
theorem undo : a.Revalued a.value? (bound.reverse.foldl Arena.clear b) := by
  have hcells : ∀ i ∈ bound.reverse, i < b.size ∧ b.isConstant i = false := by
    intro i hi
    obtain ⟨hlt, hnone⟩ := h.was_open i (List.mem_reverse.1 hi)
    refine ⟨h.same.same.size ▸ hlt, Bool.eq_false_iff.2 fun hc => ?_⟩
    have hsome := h.sound.isSome_constant i (h.same.same.isConstant ▸ hc)
    rw [hnone] at hsome
    cases hsome
  obtain ⟨hclear, hvalues⟩ := h.same.sound.clear_cells hcells
  have hback : (bound.reverse.foldl Arena.clear b).value? = a.value? := by
    funext k
    by_cases hk : ∃ i ∈ bound, a.root k = a.root i
    · obtain ⟨i, hi, hki⟩ := hk
      have hki' : b.root k = b.root i := by rw [h.same.same.root, hki]
      rw [(hvalues k).1 ⟨i, List.mem_reverse.2 hi, hki'⟩, value?_eq_of_root hki,
        (h.was_open i hi).2]
    · have hout : ∀ i ∈ bound, a.root k ≠ a.root i := fun i hi hki => hk ⟨i, hi, hki⟩
      rw [(hvalues k).2 fun i hi => h.same.same.root ▸ hout i (List.mem_reverse.1 hi),
        h.kept k hout]
  exact hback ▸ h.same.trans hclear

/-! ### What one term does -/

/-- A term that has the value already is passed over. -/
theorem pass {t s : Term} {v : String} (ht : t.value? b = some v) (hs : s.value? b = some v) :
    a.Unifying (done ++ [(t, s)]) bound b := by
  refine { h with mem_done := fun i hi => ?_, agreed := fun p hp => ?_ }
  · obtain ⟨u, hu⟩ := h.mem_done i hi
    exact ⟨u, List.mem_append_left _ hu⟩
  · rcases List.mem_append.1 hp with hp | hp
    · exact h.agreed p hp
    · rw [List.mem_singleton.1 hp]
      exact ⟨v, ht, hs⟩

section Bind

variable {c : Arena} {i : Nat} {v : String} (hc : b.Revalued (b.valuesWith i (some v)) c)

include hc

/-- The class that is bound has the value afterwards. -/
theorem value?_bound {k : Nat} (hk : a.root k = a.root i) : c.value? k = some v := by
  rw [hc.value?, valuesWith, h.same.same.root, if_pos hk]

/-- The other classes have the values that they had. -/
theorem value?_other {k : Nat} (hk : a.root k ≠ a.root i) : c.value? k = b.value? k := by
  rw [hc.value?, valuesWith, h.same.same.root, if_neg hk]

variable (hnone : b.value? i = none)

include hnone

omit hc in
/-- A class that has a value is not the one that is bound. -/
theorem root_ne_of_some {k : Nat} {w : String} (hw : b.value? k = some w) :
    a.root k ≠ a.root i := by
  intro hk
  rw [h.value?_congr hk, hnone] at hw
  cases hw

theorem term_value?_of_bind {t : Term} {w : String} (hw : t.value? b = some w) :
    t.value? c = some w := by
  cases t with
  | const u => exact hw
  | cell k => exact (h.value?_other hc (h.root_ne_of_some hnone hw)).trans hw

/-- No class that was bound has the value of a partner. -/
theorem apart_bind (hi : i < a.size) (haccepts : b.accepts i v = true) :
    ∀ m ∈ i :: bound, ∀ j ∈ a.members m, ∀ k ∈ a.partners j, c.value? k ≠ c.value? m := by
  have hfree := (accepts_iff_of_none hnone).1 haccepts
  rw [h.same.same.members, h.same.partners] at hfree
  refine List.forall_mem_cons.2 ⟨fun j hj k hk => ?_, fun m hm j hj k hk => ?_⟩
  · have hji := ((h.sound.mem_members i j hi).1 hj).2
    have hjk := h.sound.root_ne_of_mem_partners j k hk
    rw [h.value?_bound hc rfl, h.value?_other hc fun hki => hjk (hji.trans hki.symm)]
    exact hfree j hj k hk
  · obtain ⟨u, hu⟩ := h.mem_done m hm
    obtain ⟨w, hw, -⟩ := h.exists_value? hu
    rw [h.value?_other hc (h.root_ne_of_some hnone hw), hw]
    by_cases hki : a.root k = a.root i
    · -- the partner is in the class that is bound, so its own partner has another value
      rw [h.value?_bound hc hki]
      rintro ⟨⟩
      have hjm := ((h.sound.mem_members m j (h.was_open m hm).1).1 hj).2
      refine hfree k ?_ j (h.sound.partners_comm j k hk) ((h.value?_congr hjm).trans hw)
      exact (h.sound.mem_members i k hi).2 ⟨h.sound.lt_of_mem_partners hk, hki⟩
    · rw [h.value?_other hc hki, ← hw]
      exact h.apart m hm j hj k hk

/-- An open cell gets the value, if its class accepts it. -/
theorem bind {s : Term} (hi : i < a.size) (hs : s.value? b = some v)
    (haccepts : b.accepts i v = true) : a.Unifying (done ++ [(.cell i, s)]) (i :: bound) c where
  sound := h.sound
  same := hc.value? ▸ h.same.trans hc
  was_open := List.forall_mem_cons.2 ⟨⟨hi, h.value?_eq_none hnone⟩, h.was_open⟩
  mem_done := by
    refine List.forall_mem_cons.2 ⟨⟨s, by simp⟩, fun j hj => ?_⟩
    obtain ⟨u, hu⟩ := h.mem_done j hj
    exact ⟨u, List.mem_append_left _ hu⟩
  kept k hk := by
    obtain ⟨hki, hks⟩ := List.forall_mem_cons.1 hk
    rw [h.value?_other hc hki, h.kept k hks]
  agreed p hp := by
    rcases List.mem_append.1 hp with hp | hp
    · obtain ⟨w, hw, hw'⟩ := h.agreed p hp
      exact ⟨w, h.term_value?_of_bind hc hnone hw, h.term_value?_of_bind hc hnone hw'⟩
    · rw [List.mem_singleton.1 hp]
      exact ⟨v, h.value?_bound hc rfl, h.term_value?_of_bind hc hnone hs⟩
  apart := h.apart_bind hc hnone hi haccepts

end Bind

end Unifying

end Arena

/-! ### The loop -/

namespace Literal

/-- How unifying ends that began in the arena `a` with a list of pairs. -/
inductive UnifyEnds (a : Arena) (pairs : List (Term × Term)) : Match × Arena → Prop
  /-- All terms say what stands against them. -/
  | matched {bound : List Nat} {b : Arena} :
    a.Unifying pairs bound b → UnifyEnds a pairs (.matched bound.reverse, b)
  /-- A term does not take the value that stands against it, and what was bound is open again. -/
  | failed {done more : List (Term × Term)} {t s : Term} {v : String} {bound : List Nat}
      {b c : Arena} : pairs = done ++ (t, s) :: more → a.Unifying done bound b →
    s.value? b = some v → t.accepts b v = false → a.Revalued a.value? c →
    UnifyEnds a pairs (.failed, c)
  /-- A term stands against one without a value, and what was bound stays so. -/
  | notGround {done more : List (Term × Term)} {t s : Term} {bound : List Nat} {b : Arena}
      {text : String} : pairs = done ++ (t, s) :: more → a.Unifying done bound b →
    s.value? b = none →
    (∀ target, unifyTerms target [] a done = (.matched bound.reverse, b)) →
    UnifyEnds a pairs (.notGround text, b)

section Loop

variable {b : Arena} {bound : List Nat} {t s : Term} {i : Nat} {v w : String}
  (hs : s.value? b = some v)

include hs

theorem unifyTerms_pass (ht : t.value? b = some v) (target : Literal) (rest : List (Term × Term)) :
    unifyTerms target bound b ((t, s) :: rest) = unifyTerms target bound b rest := by
  rw [unifyTerms, hs]
  dsimp only
  rw [ht]
  exact if_pos rfl

theorem unifyTerms_clash (ht : t.value? b = some w) (hne : w ≠ v) (target : Literal)
    (rest : List (Term × Term)) : unifyTerms target bound b ((t, s) :: rest) =
      (.failed, bound.reverse.foldl Arena.clear b) := by
  rw [unifyTerms, hs, List.foldl_reverse]
  dsimp only
  rw [ht]
  exact if_neg hne

theorem unifyTerms_bind (hi : b.value? i = none) (target : Literal) (rest : List (Term × Term)) :
    unifyTerms target bound b ((.cell i, s) :: rest) =
      if (b.bind i v).1 then unifyTerms target (i :: bound) (b.bind i v).2 rest
      else (.failed, bound.reverse.foldl Arena.clear (b.bind i v).2) := by
  have hi' : (Term.cell i).value? b = none := hi
  rw [unifyTerms, hs, List.foldl_reverse]
  dsimp only
  rw [hi']

end Loop

/-- **The loop.** -/
theorem unifyEnds_of_unifying {a : Arena} (target : Literal) : ∀ {rest done : List (Term × Term)}
    {bound : List Nat} {b : Arena}, a.Unifying done bound b → a.Holds (rest.map Prod.fst) →
    (∀ target rest, unifyTerms target [] a (done ++ rest) = unifyTerms target bound b rest) →
    UnifyEnds a (done ++ rest) (unifyTerms target bound b rest)
  | [], done, bound, b, h, _, _ => by
    rw [List.append_nil]
    exact .matched h
  | (t, s) :: rest, done, bound, b, h, hholds, hrun => by
    have hnext : ∀ more, (done ++ [(t, s)]) ++ more = done ++ (t, s) :: more :=
      List.append_assoc done [(t, s)]
    cases hs : s.value? b with
    | none =>
      rw [unifyTerms, hs]
      exact .notGround rfl h hs fun target => by rw [← List.append_nil done, hrun]; rfl
    | some v =>
      cases ht : t.value? b with
      | some w =>
        by_cases hwv : w = v
        · subst hwv
          rw [unifyTerms_pass hs ht, ← hnext]
          refine unifyEnds_of_unifying target (h.pass ht hs) hholds.tail fun target more => ?_
          rw [hnext, hrun, unifyTerms_pass hs ht]
        · rw [unifyTerms_clash hs ht hwv]
          refine .failed rfl h hs ?_ h.undo
          cases t with
          | const u => exact beq_eq_false_iff_ne.2 ((Option.some.inj ht).symm ▸ hwv)
          | cell i => exact Bool.eq_false_iff.2 fun hi => hwv ((Arena.accepts_of_some ht).1 hi)
      | none =>
        cases t with
        | const _ => cases ht
        | cell i =>
          have hi : i < a.size := hholds i List.mem_cons_self
          obtain ⟨hanswer, hb⟩ := h.same.sound.bind (h.same.same.size.symm ▸ hi) v
          rw [unifyTerms_bind hs ht, hanswer]
          cases haccepts : b.accepts i v with
          | true =>
            rw [haccepts, if_pos rfl] at hb
            rw [if_pos rfl, ← hnext]
            refine unifyEnds_of_unifying target (h.bind hb ht hi hs haccepts) hholds.tail
              fun target more => ?_
            rw [hnext, hrun, unifyTerms_bind hs ht, hanswer, haccepts, if_pos rfl]
          | false =>
            rw [haccepts, if_neg Bool.false_ne_true] at hb
            exact .failed rfl h hs haccepts (h.congr hb).undo

/-- **Unifying** is the loop, or nothing for literals that differ in name or arity. -/
theorem unify_cases {a : Arena} (h : a.Sound) {l : Literal} (hl : a.Holds l.terms)
    (target : Literal) :
    (l.name = target.name ∧ l.arity = target.arity ∧
      UnifyEnds a (l.terms.zip target.terms) (l.unify a target)) ∨
    ¬(l.name = target.name ∧ l.arity = target.arity) ∧ l.unify a target = (.failed, a) := by
  rw [unify]
  by_cases hna : l.name = target.name ∧ l.arity = target.arity
  · rw [if_pos (by simp [hna])]
    refine .inl ⟨hna.1, hna.2, unifyEnds_of_unifying target (.start h) ?_ fun _ _ => rfl⟩
    intro i hi
    obtain ⟨⟨t, s⟩, hp, rfl⟩ := List.mem_map.1 hi
    exact hl i (List.of_mem_zip hp).1
  · rw [if_neg (by simpa using hna)]
    exact .inr ⟨hna, rfl⟩

end Literal

end Strips
