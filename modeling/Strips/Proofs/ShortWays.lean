import Mathlib.Data.Finset.Card
import Mathlib.Data.Nat.Log
import Strips.Proofs.Partition

/-!
# Ways to the root are short

Looking for a root takes two loops. The first one climbs from a cell to the root. The second one
goes the same way again and points each cell on it straight at the root. Neither counts its turns,
so here both are stated as loops that go on as long as there is a next state.

Each turn comes to a cell of a higher rank, and a root of rank `k` has a class of at least `2 ^ k`
cells. So in an arena of `n` cells neither loop makes more than `Nat.log 2 n` turns. The bounds on
steps in `Arena.root` and `Arena.compress` are never felt.

## Main definitions

* `Arena.Loop` – a loop that ends after a number of turns.
* `Arena.up`, `Arena.shorten` – a turn of the first loop and of the second one.
* `Arena.HasShortWays` – ranks grow, classes are large, and both loops are short.

## Main results

* `Arena.Sound.exists_loop_up`, `Arena.Sound.exists_loop_shorten` – both loops end within the rank
  of the root.
* `Arena.Sound.two_pow_rank_le_card` – the class of a root is large.
* `Arena.hasShortWays_run` – so it is after any run of calls.
-/

namespace Strips

namespace Arena

/-- A loop goes on as long as `next` gives a state, and ends after the given number of turns. -/
inductive Loop {σ : Type} (next : σ → Option σ) : Nat → σ → σ → Prop
  | stop {s : σ} : next s = none → Loop next 0 s s
  | turn {s s' t : σ} {turns : Nat} : next s = some s' → Loop next turns s' t →
      Loop next (turns + 1) s t

/-- A turn of the first loop: from a cell that is no root to its parent. -/
def up (a : Arena) (i : Nat) : Option Nat := if a.parent i = i then none else some (a.parent i)

/-- A turn of the second loop: a cell whose parent is not the root `r` is pointed at it, and the
loop goes on with the parent that the cell had. -/
def shorten (r : Nat) (s : Arena × Nat) : Option (Arena × Nat) :=
  if s.1.parent s.2 = r then none
  else some (s.1.modify s.2 fun c => { c with parent := r }, s.1.parent s.2)

/-! ### A loop and bounded steps -/

/-- With enough steps, compressing is the second loop. -/
theorem compress_eq_of_loop {r turns : Nat} {s t : Arena × Nat} (h : Loop (shorten r) turns s t) :
    ∀ {fuel : Nat}, turns ≤ fuel → s.1.compress r fuel s.2 = t.1 := by
  induction h with
  | @stop s hstop =>
    intro fuel _
    have hparent : s.1.parent s.2 = r := by
      by_contra hne
      rw [shorten, if_neg hne] at hstop
      cases hstop
    cases fuel with
    | zero => rfl
    | succ fuel => rw [compress, if_pos hparent]
  | @turn s s' t turns hturn _ ih =>
    intro fuel hle
    obtain ⟨fuel, rfl⟩ := Nat.exists_eq_add_of_le' (Nat.lt_of_lt_of_le (Nat.succ_pos turns) hle)
    rw [shorten] at hturn
    split at hturn
    · cases hturn
    · rename_i hne
      obtain rfl := Option.some.inj hturn
      rw [compress, if_neg hne]
      exact ih (Nat.le_of_succ_le_succ hle)

namespace Sound

/-! ### The number of turns -/

/-- **The first loop** ends at the root, and each turn comes to a higher rank. -/
theorem exists_loop_up {a : Arena} (h : a.Sound) (i : Nat) :
    ∃ turns, turns + a.rank i ≤ a.rank (a.root i) ∧ Loop a.up turns i (a.root i) := by
  by_cases hi : a.parent i = i
  · rw [Ranked.root_of_parent hi]
    exact ⟨0, by omega, .stop (if_pos hi)⟩
  · have hlt := h.rank_lt i hi
    have hle := h.rank_le_root (a.parent i)
    obtain ⟨turns, hturns, hloop⟩ := h.exists_loop_up (a.parent i)
    rw [h.root_parent] at hturns hloop
    exact ⟨turns + 1, by omega, .turn (if_neg hi) hloop⟩
termination_by a.rank (a.root i) - a.rank i
decreasing_by
  rw [h.root_parent] at hle ⊢
  omega

/-- **The second loop** ends, and each turn comes to a higher rank. What it has changed so far is a
sound arena with the same ranks and roots, so the rest of the way is as it was. -/
theorem exists_loop_shorten {a : Arena} (h : a.Sound) (i : Nat) :
    ∃ turns t, turns + a.rank i ≤ a.rank (a.root i) ∧ Loop (shorten (a.root i)) turns (a, i) t := by
  by_cases hi : a.parent i = a.root i
  · exact ⟨0, (a, i), by have := h.rank_le_root i; omega, .stop (if_pos hi)⟩
  · have hne : a.parent i ≠ i := fun heq => hi (heq.trans (Ranked.root_of_parent heq).symm)
    have hlt := h.rank_lt i hne
    have hle := h.rank_le_root (a.parent i)
    have hπ := a.shortens_update i
    have hshort : (a.modify i fun c => { c with parent := a.root i }) =
        a.reparent (Function.update a.parent i (a.root i)) := a.modify_parent i (a.root i)
    have hrank := a.rank_reparent (Function.update a.parent i (a.root i))
    have hroot := h.root_reparent hπ
    obtain ⟨turns, t, hturns, hloop⟩ := (h.reparent hπ).exists_loop_shorten (a.parent i)
    rw [hroot, h.root_parent] at hturns hloop
    rw [hrank, hrank] at hturns
    exact ⟨turns + 1, t, by omega, .turn (by rw [shorten, if_neg hi, hshort]) hloop⟩
termination_by a.rank (a.root i) - a.rank i
decreasing_by
  rw [hrank, hrank, hroot, h.root_parent]
  rw [h.root_parent] at hle
  omega

/-! ### The sizes of classes -/

variable {a : Arena} (h : a.Sound)

include h

/-- The members of a class are the cells with its root. -/
theorem card_class {i : Nat} (hi : i < a.size) :
    ((Finset.range a.size).filter fun j => a.root j = a.root i).card = (a.members i).length := by
  rw [← List.toFinset_card_of_nodup (h.nodup_members i)]
  congr 1
  ext j
  rw [Finset.mem_filter, Finset.mem_range, List.mem_toFinset, h.mem_members i j hi]

/-- **The class of a root is large.** -/
theorem two_pow_rank_le_card {r : Nat} (hr : r < a.size) (hroot : a.parent r = r) :
    2 ^ a.rank r ≤ ((Finset.range a.size).filter fun j => a.root j = r).card := by
  have hcard := h.card_class hr
  rw [Ranked.root_of_parent hroot] at hcard
  rw [hcard]
  exact h.two_pow_rank_le r hr

/-- The rank of a root is at most the logarithm of the number of cells. -/
theorem rank_root_le_log {i : Nat} (hi : i < a.size) : a.rank (a.root i) ≤ Nat.log 2 a.size := by
  have hcells := (Finset.card_filter_le (Finset.range a.size) fun j => a.root j = a.root i).trans_eq
    (Finset.card_range a.size)
  have hlarge := h.two_pow_rank_le_card (h.root_lt hi) (h.parent_root i)
  exact Nat.le_log_of_pow_le Nat.one_lt_two (hlarge.trans hcells)

end Sound

/-! ### Arenas -/

/-- Ranks grow on the way up, the class of a root is large, and both loops of looking for a root end
soon: the first one at the root, the second one with an arena in which all roots are as before. -/
structure HasShortWays (a : Arena) : Prop where
  rank_lt : ∀ i, a.parent i ≠ i → a.rank i < a.rank (a.parent i)
  two_pow_rank_le : ∀ r < a.size, a.parent r = r →
    2 ^ a.rank r ≤ ((Finset.range a.size).filter fun i => a.root i = r).card
  loop_up : ∀ i < a.size, ∃ turns ≤ Nat.log 2 a.size, Loop a.up turns i (a.find i).1
  loop_shorten : ∀ i < a.size, ∃ turns ≤ Nat.log 2 a.size, ∃ j,
    Loop (shorten (a.find i).1) turns (a, i) ((a.find i).2, j)
  root_find : ∀ i j, (a.find i).2.root j = a.root j

theorem Sound.hasShortWays {a : Arena} (h : a.Sound) : a.HasShortWays where
  rank_lt := h.rank_lt
  two_pow_rank_le _ hr hroot := h.two_pow_rank_le_card hr hroot
  loop_up i hi := by
    obtain ⟨turns, hturns, hloop⟩ := h.exists_loop_up i
    have hlog := h.rank_root_le_log hi
    exact ⟨turns, by omega, hloop⟩
  loop_shorten i hi := by
    obtain ⟨turns, ⟨b, j⟩, hturns, hloop⟩ := h.exists_loop_shorten i
    have hlog := h.rank_root_le_log hi
    have hsize := h.rank_le (a.root i)
    have hfind : (a.find i).2 = b := compress_eq_of_loop hloop (by omega)
    exact ⟨turns, by omega, j, hfind ▸ hloop⟩
  root_find i j := congrFun (h.find i).same.root j

/-- **Ways are short after any run of calls**: ranks grow on them, the class of a root of rank `k`
has at least `2 ^ k` cells, both loops of looking for a root make at most `Nat.log 2 a.size` turns,
and looking for a root leaves the root of every cell as it is. -/
theorem hasShortWays_run {calls : List Call} (hcalls : Call.Valid 0 calls) :
    (Call.run call empty calls).2.HasShortWays :=
  (Partition.shows_empty.run hcalls).2.sound.hasShortWays

/-- Four cells, linked so that the way from the last one takes as many turns as it may. -/
theorem hasShortWays_run_four :
    Call.Valid 0 [.newCell none 0, .newCell none 0, .newCell none 0, .newCell none 0, .link 0 1,
      .link 2 3, .link 0 2] ∧
    (Call.run call empty [.newCell none 0, .newCell none 0, .newCell none 0, .newCell none 0,
      .link 0 1, .link 2 3, .link 0 2]).2.HasShortWays ∧
    Loop (Call.run call empty [.newCell none 0, .newCell none 0, .newCell none 0, .newCell none 0,
      .link 0 1, .link 2 3, .link 0 2]).2.up (Nat.log 2 4) 3 0 :=
  ⟨by decide, hasShortWays_run (by decide), .turn rfl (.turn rfl (.stop rfl))⟩

end Arena

end Strips
