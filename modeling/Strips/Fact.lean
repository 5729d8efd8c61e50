/-!
# Ground atoms

A fact is a predicate name with constants as arguments, such as `at(home)` or `handempty`. Facts are
compared as wholes and ordered by name, then argument by argument, strings by code point.

## Main definitions

* `Fact` and `Fact.text` – an atom and its printed form.
* `Fact.le` – the order in which the facts of a derived layer stand.

## Main results

* `Fact.le_total`, `Fact.le_trans`, `Fact.le_antisymm` – a total order.
* `Fact.sort_perm`, `Fact.sort_pairwise` – sorting keeps the facts and puts them in order.
-/

namespace Strips

/-- The printed form of a name with arguments: without any, the bare name. -/
def callText (name : String) (arguments : List String) : String :=
  if arguments.isEmpty then name else name ++ "(" ++ ",".intercalate arguments ++ ")"

/-- A ground atom. -/
structure Fact where
  name : String
  arguments : List String := []
  deriving DecidableEq, Repr, Inhabited

namespace Fact

/-- The printed form of a fact. -/
def text (f : Fact) : String := callText f.name f.arguments

/-- Lexicographic order of argument lists; a proper initial part comes first. -/
def argumentsLe : List String → List String → Bool
  | [], _ => true
  | _ :: _, [] => false
  | a :: as, b :: bs => if a = b then argumentsLe as bs else a < b

/-- The order of facts: by name, then by arguments. -/
def le (f g : Fact) : Bool :=
  if f.name = g.name then argumentsLe f.arguments g.arguments else f.name < g.name

/-! ### The order is total -/

theorem argumentsLe_refl : ∀ as : List String, argumentsLe as as = true
  | [] => rfl
  | a :: as => by rw [argumentsLe, if_pos rfl, argumentsLe_refl as]

theorem argumentsLe_total : ∀ as bs : List String,
    argumentsLe as bs = true ∨ argumentsLe bs as = true
  | [], _ => .inl (by rw [argumentsLe])
  | _ :: _, [] => .inr (by rw [argumentsLe])
  | a :: as, b :: bs => by
    by_cases h : a = b
    · rw [argumentsLe, argumentsLe, if_pos h, if_pos h.symm]
      exact argumentsLe_total as bs
    · rw [argumentsLe, argumentsLe, if_neg h, if_neg fun e => h e.symm, decide_eq_true_iff,
        decide_eq_true_iff]
      exact Decidable.or_iff_not_imp_left.2 fun hab =>
        Decidable.byContradiction fun hba =>
          h (String.le_antisymm (String.not_lt.1 hba) (String.not_lt.1 hab))

theorem argumentsLe_trans : ∀ {as bs cs : List String},
    argumentsLe as bs = true → argumentsLe bs cs = true → argumentsLe as cs = true
  | [], _, _, _, _ => by rw [argumentsLe]
  | _ :: _, b :: bs, [], _, h => by rw [argumentsLe] at h; cases h
  | a :: as, b :: bs, c :: cs, hab, hbc => by
    rw [argumentsLe] at hab hbc ⊢
    by_cases h : a = b
    · subst h
      rw [if_pos rfl] at hab
      by_cases h : a = c
      · rw [if_pos h] at hbc ⊢
        exact argumentsLe_trans hab hbc
      · rw [if_neg h] at hbc ⊢
        exact hbc
    · rw [if_neg h, decide_eq_true_iff] at hab
      by_cases h : b = c
      · subst h
        rw [if_neg (by assumption), decide_eq_true_iff]
        exact hab
      · rw [if_neg h, decide_eq_true_iff] at hbc
        have hac := String.lt_trans hab hbc
        rw [if_neg fun e : a = c => String.lt_irrefl c (e ▸ hac), decide_eq_true_iff]
        exact hac

theorem argumentsLe_antisymm : ∀ {as bs : List String},
    argumentsLe as bs = true → argumentsLe bs as = true → as = bs
  | [], [], _, _ => rfl
  | [], _ :: _, _, h => by rw [argumentsLe] at h; cases h
  | _ :: _, [], h, _ => by rw [argumentsLe] at h; cases h
  | a :: as, b :: bs, hab, hba => by
    rw [argumentsLe] at hab hba
    by_cases h : a = b
    · rw [if_pos h] at hab
      rw [if_pos h.symm] at hba
      rw [h, argumentsLe_antisymm hab hba]
    · rw [if_neg h, decide_eq_true_iff] at hab
      rw [if_neg fun e => h e.symm, decide_eq_true_iff] at hba
      exact absurd hba (String.lt_asymm hab)

theorem le_iff {f g : Fact} :
    f.le g = true ↔ argumentsLe (f.name :: f.arguments) (g.name :: g.arguments) = true :=
  Iff.rfl

theorem le_refl (f : Fact) : f.le f = true := le_iff.2 (argumentsLe_refl _)

theorem le_total (f g : Fact) : f.le g = true ∨ g.le f = true :=
  argumentsLe_total (f.name :: f.arguments) (g.name :: g.arguments)

theorem le_trans {f g h : Fact} (hfg : f.le g = true) (hgh : g.le h = true) : f.le h = true :=
  le_iff.2 (argumentsLe_trans (le_iff.1 hfg) (le_iff.1 hgh))

/-- The order tells facts apart, so a list of different facts has one sorted form. -/
theorem le_antisymm {f g : Fact} (hfg : f.le g = true) (hgf : g.le f = true) : f = g := by
  have h := argumentsLe_antisymm (le_iff.1 hfg) (le_iff.1 hgf)
  cases f; cases g
  obtain ⟨rfl, rfl⟩ := List.cons.inj h
  rfl

/-! ### Sorting -/

/-- Put a fact in its place in an ordered list. -/
def insertSorted (f : Fact) : List Fact → List Fact
  | [] => [f]
  | g :: rest => if f.le g then f :: g :: rest else g :: insertSorted f rest

/-- The facts in order. -/
def sort (facts : List Fact) : List Fact := facts.foldr insertSorted []

theorem insertSorted_perm (f : Fact) : ∀ l : List Fact, (insertSorted f l).Perm (f :: l)
  | [] => .refl _
  | g :: rest => by
    rw [insertSorted]
    split
    · exact .refl _
    · exact ((insertSorted_perm f rest).cons g).trans (.swap f g rest)

theorem insertSorted_pairwise {f : Fact} : ∀ {l : List Fact},
    l.Pairwise (fun g h => g.le h = true) → (insertSorted f l).Pairwise (fun g h => g.le h = true)
  | [], _ => List.pairwise_singleton _ _
  | g :: rest, h => by
    rw [insertSorted]
    obtain ⟨hg, hrest⟩ := List.pairwise_cons.1 h
    split
    · rename_i hfg
      refine List.pairwise_cons.2 ⟨fun x hx => ?_, h⟩
      rcases List.mem_cons.1 hx with rfl | hx
      · exact hfg
      · exact le_trans hfg (hg x hx)
    · rename_i hfg
      refine List.pairwise_cons.2 ⟨fun x hx => ?_, insertSorted_pairwise hrest⟩
      rcases List.mem_cons.1 ((insertSorted_perm f rest).mem_iff.1 hx) with rfl | hx
      · exact (le_total x g).resolve_left hfg
      · exact hg x hx

/-- Sorting keeps the facts, each as often as it was there. -/
theorem sort_perm : ∀ facts : List Fact, (sort facts).Perm facts
  | [] => .refl _
  | f :: rest => (insertSorted_perm f (sort rest)).trans ((sort_perm rest).cons f)

/-- Sorted facts stand in order. -/
theorem sort_pairwise : ∀ facts : List Fact, (sort facts).Pairwise fun f g => f.le g = true
  | [] => .nil
  | _ :: rest => insertSorted_pairwise (sort_pairwise rest)

@[simp] theorem mem_sort {f : Fact} {facts : List Fact} : f ∈ sort facts ↔ f ∈ facts :=
  (sort_perm facts).mem_iff

end Fact

/-- The printed form of a list of facts. -/
def factsText (facts : List Fact) : String := ",".intercalate (facts.map Fact.text)

end Strips
