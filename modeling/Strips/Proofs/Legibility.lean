import Mathlib.Data.List.Basic
import Strips.Pddl.Task

/-!
# Tasks can be read back

The two files of a task say everything about it: no two tasks have the same files. All names must be
plain for this, without the marks that part what is written.

Lines are ended by line feeds and words are parted by spaces, so both can be told apart where no
name has such a character. A list of atoms has spaces in its items, but an atom ends at the first
closing parenthesis, whatever follows it. What is denied has a second opening parenthesis after
`not`, which no atom has, also if its predicate is called so.

## Main definitions

* `Pddl.Plain` – names without marks.
* `Pddl.Legible` – a way to write things that can be told from what follows.
* `Pddl.Clause` – an atom that holds or is denied, as conditions and effects of operators list them.
* `Pddl.Task.Plain` – all names of a task are plain.

## Main results

* `Pddl.Operator.eq_of_lines_eq` – an operator can be read back from its lines.
* `Pddl.Task.eq_of_texts_eq` – a task can be read back from its files.
-/

namespace Strips.Pddl

/-! ### Lists -/

section Lists

variable {α β : Type}

/-- Two lists that have a mark somewhere are the same up to the first one. -/
theorem append_cons_inj {p : α → Prop} {c d : α} (hc : p c) (hd : p d) :
    ∀ {xs ys s t : List α}, (∀ x ∈ xs, ¬p x) → (∀ y ∈ ys, ¬p y) →
      xs ++ c :: s = ys ++ d :: t → xs = ys ∧ c = d ∧ s = t
  | [], [], _, _, _, _, h => ⟨rfl, List.cons.inj h⟩
  | [], y :: ys, _, _, _, hys, h => absurd ((List.cons.inj h).1 ▸ hc) (hys y List.mem_cons_self)
  | x :: xs, [], _, _, hxs, _, h => absurd ((List.cons.inj h).1 ▸ hd) (hxs x List.mem_cons_self)
  | x :: xs, y :: ys, _, _, hxs, hys, h => by
    obtain ⟨hxy, htails⟩ := List.cons.inj h
    obtain ⟨hlists, hrest⟩ := append_cons_inj hc hd (List.forall_mem_cons.1 hxs).2
      (List.forall_mem_cons.1 hys).2 htails
    exact ⟨List.cons_eq_cons.2 ⟨hxy, hlists⟩, hrest⟩

/-- Lists are equal if they have equal images and all their members can be told apart by these. -/
theorem eq_of_map_eq {P : α → Prop} {f : α → β} (hf : ∀ x y, P x → P y → f x = f y → x = y) :
    ∀ {xs ys : List α}, (∀ x ∈ xs, P x) → (∀ y ∈ ys, P y) → xs.map f = ys.map f → xs = ys
  | [], [], _, _, _ => rfl
  | x :: xs, y :: ys, hxs, hys, h => by
    obtain ⟨hx, hxs⟩ := List.forall_mem_cons.1 hxs
    obtain ⟨hy, hys⟩ := List.forall_mem_cons.1 hys
    obtain ⟨hxy, h⟩ := List.cons.inj h
    rw [hf x y hx hy hxy, eq_of_map_eq hf hxs hys h]

/-- Words without spaces can be told apart. -/
theorem eq_of_intercalate_eq [BEq α] [LawfulBEq α] {c : α} {xs ys : List (List α)} (hxs : xs ≠ [])
    (hys : ys ≠ []) (hx : ∀ x ∈ xs, c ∉ x) (hy : ∀ y ∈ ys, c ∉ y)
    (h : [c].intercalate xs = [c].intercalate ys) : xs = ys := by
  rw [← List.splitOn_intercalate c hx hxs, h, List.splitOn_intercalate c hy hys]

end Lists

/-! ### Names and words -/

/-- The characters that part what is written. -/
def marks : List Char := [' ', '\n', '(', ')']

/-- Text without marks. -/
def Unbroken (s : String) : Prop := ∀ c ∈ s.toList, c ∉ marks

/-- A name without marks, and without the mark of variables. -/
structure Plain (name : String) : Prop where
  unbroken : Unbroken name
  notMem : '?' ∉ name.toList

theorem Unbroken.append {s t : String} (hs : Unbroken s) (ht : Unbroken t) : Unbroken (s ++ t) := by
  intro c hc
  rw [String.toList_append, List.mem_append] at hc
  exact hc.elim (hs c) (ht c)

theorem unbroken_repr (n : Nat) : Unbroken n.repr := by
  intro c hc hmark
  rw [Nat.toList_repr] at hc
  have hdigit := Nat.isDigit_of_mem_toDigits (by decide) (by decide) hc
  simp only [marks, List.mem_cons, List.not_mem_nil, or_false] at hmark
  rcases hmark with rfl | rfl | rfl | rfl <;> exact absurd hdigit (by decide)

theorem toList_words (ws : List String) :
    (words ws).toList = [' '].intercalate (ws.map String.toList) := String.toList_intercalate

/-- Words that follow others, each after a space. -/
def following (ws : List String) : List Char := ws.flatMap fun w => ' ' :: w.toList

theorem toList_words_cons : ∀ (w : String) (ws : List String),
    (words (w :: ws)).toList = w.toList ++ following ws
  | w, [] => by simp [toList_words, List.intercalate_singleton, following]
  | w, v :: ws => by
    have ih := toList_words_cons v ws
    rw [toList_words] at ih
    rw [toList_words, List.map_cons, List.map_cons, List.intercalate_cons_cons, ← List.map_cons, ih]
    simp [following]

/-- A character of words is a space or one of a word. -/
theorem mem_words {c : Char} {ws : List String} (hc : c ∈ (words ws).toList) :
    c = ' ' ∨ ∃ w ∈ ws, c ∈ w.toList := by
  cases ws with
  | nil => exact absurd hc List.not_mem_nil
  | cons w ws =>
    rw [toList_words_cons, List.mem_append, following, List.mem_flatMap] at hc
    rcases hc with hc | ⟨v, hv, hc⟩
    · exact .inr ⟨w, List.mem_cons_self, hc⟩
    · exact (List.mem_cons.1 hc).imp_right fun hc => ⟨v, List.mem_cons_of_mem w hv, hc⟩

/-- **Words can be told apart.** -/
theorem eq_of_words_eq {ws vs : List String} (hws : ws ≠ []) (hvs : vs ≠ [])
    (hw : ∀ w ∈ ws, Unbroken w) (hv : ∀ v ∈ vs, Unbroken v) (h : words ws = words vs) :
    ws = vs := by
  have hspace : ∀ {us : List String},
      (∀ u ∈ us, Unbroken u) → ∀ l ∈ us.map String.toList, ' ' ∉ l := by
    intro us hus l hl hspace
    obtain ⟨u, hu, rfl⟩ := List.mem_map.1 hl
    exact hus u hu ' ' hspace List.mem_cons_self
  rw [← String.toList_inj, toList_words, toList_words] at h
  exact List.map_injective_iff.2 (fun _ _ => String.toList_inj.1) (eq_of_intercalate_eq
    (by simpa using hws) (by simpa using hvs) (hspace hw) (hspace hv) h)

/-! ### Lists of what is legible -/

/-- What is written can be told from what follows it. -/
structure Legible {α : Type} (P : α → Prop) (text : α → String) : Prop where
  ne_nil : ∀ a, P a → (text a).toList ≠ []
  inj : ∀ a b, P a → P b → ∀ s t : List Char, (text a).toList ++ s = (text b).toList ++ t →
    a = b ∧ s = t

theorem Legible.eq_of_text_eq {α : Type} {P : α → Prop} {text : α → String} (h : Legible P text)
    {a b : α} (ha : P a) (hb : P b) (hab : text a = text b) : a = b :=
  (h.inj a b ha hb [] [] (by rw [hab])).1

theorem Legible.eq_of_following_eq {α : Type} {P : α → Prop} {text : α → String}
    (h : Legible P text) : ∀ {as bs : List α}, (∀ a ∈ as, P a) → (∀ b ∈ bs, P b) →
      following (as.map text) = following (bs.map text) → as = bs
  | [], [], _, _, _ => rfl
  | a :: as, b :: bs, has, hbs, hab => by
    obtain ⟨ha, has⟩ := List.forall_mem_cons.1 has
    obtain ⟨hb, hbs⟩ := List.forall_mem_cons.1 hbs
    obtain ⟨hfirst, hrest⟩ := h.inj a b ha hb _ _ (List.cons.inj hab).2
    rw [hfirst, h.eq_of_following_eq has hbs hrest]

/-- **A list can be read back** if its items are legible. -/
theorem Legible.eq_of_words_eq {α : Type} {P : α → Prop} {text : α → String} (h : Legible P text)
    {as bs : List α} (has : ∀ a ∈ as, P a) (hbs : ∀ b ∈ bs, P b)
    (hab : words (as.map text) = words (bs.map text)) : as = bs := by
  have hnil : ∀ c cs, P c → words ([] : List String) ≠ words ((c :: cs).map text) := by
    intro c cs hc hwords
    have hempty := congrArg String.toList hwords
    rw [List.map_cons, toList_words_cons] at hempty
    exact h.ne_nil c hc (List.append_eq_nil_iff.1 hempty.symm).1
  cases as with
  | nil =>
    cases bs with
    | nil => rfl
    | cons b bs => exact absurd hab (hnil b bs (hbs b List.mem_cons_self))
  | cons a as =>
    cases bs with
    | nil => exact absurd hab.symm (hnil a as (has a List.mem_cons_self))
    | cons b bs =>
      obtain ⟨ha, has⟩ := List.forall_mem_cons.1 has
      obtain ⟨hb, hbs⟩ := List.forall_mem_cons.1 hbs
      rw [← String.toList_inj, List.map_cons, List.map_cons, toList_words_cons,
        toList_words_cons] at hab
      obtain ⟨hfirst, hrest⟩ := h.inj a b ha hb _ _ hab
      rw [hfirst, h.eq_of_following_eq has hbs hrest]

/-! ### Atoms -/

theorem Atom.toList_text (a : Atom String) :
    a.text.toList = '(' :: ((words (a.name :: a.arguments)).toList ++ [')']) := by
  simp [Atom.text]

/-- **An atom ends at the first closing parenthesis.** -/
theorem Atom.legible_text :
    Legible (fun a : Atom String => ∀ w ∈ a.name :: a.arguments, Unbroken w) Atom.text where
  ne_nil a _ := by rw [a.toList_text]; exact List.cons_ne_nil _ _
  inj a b ha hb s t h := by
    have hclosed : ∀ {ws : List String}, (∀ w ∈ ws, Unbroken w) →
        ∀ c ∈ (words ws).toList, ¬c = ')' := by
      rintro ws hws c hc rfl
      rcases mem_words hc with hc | ⟨w, hw, hc⟩
      · cases hc
      · exact hws w hw _ hc (by decide)
    rw [a.toList_text, b.toList_text, List.cons_append, List.cons_append, List.append_assoc,
      List.append_assoc] at h
    obtain ⟨hwords, -, hrest⟩ :=
      append_cons_inj (p := (· = ')')) rfl rfl (hclosed ha) (hclosed hb) (List.cons.inj h).2
    have hlists := eq_of_words_eq (List.cons_ne_nil _ _) (List.cons_ne_nil _ _) ha hb
      (String.toList_inj.1 hwords)
    obtain ⟨hname, harguments⟩ := List.cons.inj hlists
    cases a
    cases b
    cases hname
    cases harguments
    exact ⟨rfl, hrest⟩

/-- The name of an argument is plain, if it is no parameter. -/
def Argument.Plain : Argument → Prop
  | object name => Pddl.Plain name
  | parameter _ => True

/-- All names of an atom are plain. -/
structure Atom.Plain (a : Atom Argument) : Prop where
  name : Pddl.Plain a.name
  arguments : ∀ x ∈ a.arguments, x.Plain

theorem toList_variableText (i : Nat) : (variableText i).toList = '?' :: 'x' :: i.repr.toList := by
  have happend : variableText i = "?x" ++ i.repr := rfl
  rw [happend, String.toList_append]
  rfl

theorem unbroken_variableText (i : Nat) : Unbroken (variableText i) := by
  intro c hc
  rw [toList_variableText, List.mem_cons, List.mem_cons] at hc
  rcases hc with rfl | rfl | hc
  · decide
  · decide
  · exact unbroken_repr i c hc

theorem variableText_inj {i j : Nat} (h : variableText i = variableText j) : i = j := by
  rw [← String.toList_inj, toList_variableText, toList_variableText] at h
  have hdigits := (List.cons.inj (List.cons.inj h).2).2
  rw [Nat.toList_repr, Nat.toList_repr] at hdigits
  rw [← Nat.ofDigitChars_toDigits (b := 10) (n := i) (by decide) (by decide), hdigits,
    Nat.ofDigitChars_toDigits (by decide) (by decide)]

/-- The number of variables can be read back from their list. -/
theorem eq_of_variables_eq {m n : Nat}
    (h : words ((List.range m).map variableText) = words ((List.range n).map variableText)) :
    m = n := by
  have hempty : ∀ n, words ((List.range n).map variableText) = words [] → n = 0 := by
    intro n hn
    cases n with
    | zero => rfl
    | succ n =>
      rw [List.range_succ_eq_map, List.map_cons, ← String.toList_inj, toList_words_cons,
        toList_variableText] at hn
      cases hn
  have hunbroken : ∀ n, ∀ w ∈ (List.range n).map variableText, Unbroken w := by
    intro n w hw
    obtain ⟨i, -, rfl⟩ := List.mem_map.1 hw
    exact unbroken_variableText i
  by_cases hm : m = 0
  · subst hm
    exact (hempty n h.symm).symm
  · by_cases hn : n = 0
    · subst hn
      exact hempty m h
    · have hlists := eq_of_words_eq (by simpa using hm) (by simpa using hn) (hunbroken m)
        (hunbroken n) h
      simpa using congrArg List.length hlists

namespace Argument

theorem Plain.unbroken {x : Argument} (h : x.Plain) : Unbroken x.text := by
  cases x with
  | object name => exact Pddl.Plain.unbroken h
  | parameter i => exact unbroken_variableText i

theorem Plain.eq_of_text_eq {x y : Argument} (hx : x.Plain) (hy : y.Plain)
    (h : x.text = y.text) : x = y := by
  have hne : ∀ {name : String} {i : Nat}, Pddl.Plain name → name ≠ variableText i := by
    intro name i hname heq
    have hmark : '?' ∈ (variableText i).toList := by
      rw [toList_variableText]
      exact List.mem_cons_self
    exact hname.notMem (heq ▸ hmark)
  cases x with
  | object name =>
    cases y with
    | object other => exact congrArg object h
    | parameter i => exact absurd h (hne hx)
  | parameter i =>
    cases y with
    | object other => exact absurd h.symm (hne hy)
    | parameter j => exact congrArg parameter (variableText_inj h)

end Argument

namespace Atom

/-- The atom with its arguments as text. -/
def written (a : Atom Argument) : Atom String := ⟨a.name, a.arguments.map Argument.text⟩

theorem openText_eq (a : Atom Argument) : a.openText = a.written.text := rfl

theorem Plain.unbroken {a : Atom Argument} (h : a.Plain) :
    ∀ w ∈ a.written.name :: a.written.arguments, Unbroken w := by
  refine List.forall_mem_cons.2 ⟨h.name.unbroken, fun w hw => ?_⟩
  obtain ⟨x, hx, rfl⟩ := List.mem_map.1 hw
  exact (h.arguments x hx).unbroken

theorem legible_openText : Legible Atom.Plain Atom.openText where
  ne_nil a ha := legible_text.ne_nil _ ha.unbroken
  inj a b ha hb s t h := by
    obtain ⟨hab, hrest⟩ := legible_text.inj _ _ ha.unbroken hb.unbroken s t h
    obtain ⟨hname, htexts⟩ := Atom.mk.inj hab
    have harguments := eq_of_map_eq (fun x y hx hy => Argument.Plain.eq_of_text_eq hx hy)
      ha.arguments hb.arguments htexts
    cases a
    cases b
    cases hname
    cases harguments
    exact ⟨rfl, hrest⟩

end Atom

/-! ### Clauses -/

/-- What a condition or an effect says of an atom. -/
inductive Clause where
  | holds (atom : Atom Argument)
  | denied (atom : Atom Argument)

namespace Clause

def atom : Clause → Atom Argument
  | holds a => a
  | denied a => a

def text : Clause → String
  | holds a => a.openText
  | denied a => s!"(not {a.openText})"

theorem toList_text_denied (a : Atom Argument) : (denied a).text.toList =
    '(' :: (['n', 'o', 't', ' '] ++ (a.openText.toList ++ [')'])) := by
  have happend : (denied a).text = "(not " ++ a.openText ++ ")" := rfl
  rw [happend, String.toList_append, String.toList_append]
  rfl

/-- No atom starts like something denied, because it has no second opening parenthesis. -/
theorem text_holds_ne {a b : Atom Argument} (ha : a.Plain) {s t : List Char} :
    (holds a).text.toList ++ s ≠ (denied b).text.toList ++ t := by
  intro h
  rw [toList_text_denied, b.openText_eq, b.written.toList_text, text, a.openText_eq,
    a.written.toList_text] at h
  simp only [List.cons_append, List.append_assoc] at h
  have hparens : ∀ c ∈ (words (a.written.name :: a.written.arguments)).toList,
      ¬(c = '(' ∨ c = ')') := by
    intro c hc hmark
    rcases mem_words hc with rfl | ⟨w, hw, hc⟩
    · exact absurd hmark (by decide)
    · exact ha.unbroken w hw c hc (by rcases hmark with rfl | rfl <;> decide)
  have hparts : (words (a.written.name :: a.written.arguments)).toList ++ ')' :: s =
      ['n', 'o', 't', ' '] ++ '(' :: _ := (List.cons.inj h).2
  obtain ⟨-, hmarks, -⟩ := append_cons_inj (p := fun c => c = '(' ∨ c = ')') (.inr rfl) (.inl rfl)
    hparens (by simp) hparts
  exact absurd hmarks (by decide)

theorem legible_text : Legible (fun c : Clause => c.atom.Plain) text where
  ne_nil c hc := by
    cases c with
    | holds a => exact Atom.legible_openText.ne_nil a hc
    | denied a =>
      rw [toList_text_denied]
      exact List.cons_ne_nil _ _
  inj c d hc hd s t h := by
    cases c with
    | holds a =>
      cases d with
      | holds b =>
        obtain ⟨rfl, hrest⟩ := Atom.legible_openText.inj a b hc hd s t h
        exact ⟨rfl, hrest⟩
      | denied b => exact absurd h (text_holds_ne hc)
    | denied a =>
      cases d with
      | holds b => exact absurd h.symm (text_holds_ne hd)
      | denied b =>
        rw [toList_text_denied, toList_text_denied] at h
        simp only [List.cons_append, List.append_assoc, List.cons.injEq, true_and] at h
        obtain ⟨rfl, hrest⟩ := Atom.legible_openText.inj a b hc hd _ _ h
        exact ⟨rfl, (List.cons.inj hrest).2⟩

/-- What holds stands before what is denied, so both can be told apart. -/
theorem append_inj {as bs as' bs' : List (Atom Argument)}
    (h : as.map holds ++ bs.map denied = as'.map holds ++ bs'.map denied) :
    as = as' ∧ bs = bs' := by
  have hholds := congrArg (List.filterMap fun c => match c with
    | holds a => some a
    | denied _ => none) h
  have hdenied := congrArg (List.filterMap fun c => match c with
    | holds _ => none
    | denied a => some a) h
  simp only [List.filterMap_append, List.filterMap_map, Function.comp_def, List.filterMap_some,
    List.filterMap_none, List.append_nil, List.nil_append] at hholds hdenied
  exact ⟨hholds, hdenied⟩

end Clause

/-! ### Lines -/

/-- Text in one line. -/
def OneLine (s : String) : Prop := '\n' ∉ s.toList

instance : DecidablePred OneLine := fun s => inferInstanceAs (Decidable ('\n' ∉ s.toList))

theorem Unbroken.oneLine {s : String} (h : Unbroken s) : OneLine s := fun hc =>
  h _ hc (by decide)

@[simp] theorem oneLine_append {s t : String} : OneLine (s ++ t) ↔ OneLine s ∧ OneLine t := by
  rw [OneLine, String.toList_append, List.mem_append, not_or]
  rfl

theorem oneLine_words {ws : List String} (h : ∀ w ∈ ws, OneLine w) : OneLine (words ws) := by
  intro hc
  rcases mem_words hc with hc | ⟨w, hw, hc⟩
  · exact absurd hc (by decide)
  · exact h w hw hc

theorem oneLine_words_map {α : Type} {as : List α} {text : α → String}
    (h : ∀ a ∈ as, OneLine (text a)) : OneLine (words (as.map text)) :=
  oneLine_words (List.forall_mem_map.2 h)

theorem Atom.oneLine_text {a : Atom String} (h : ∀ w ∈ a.name :: a.arguments, Unbroken w) :
    OneLine a.text := by
  have hwords := oneLine_words fun w hw => (h w hw).oneLine
  rw [Atom.text, oneLine_append, oneLine_append]
  exact ⟨⟨by decide, hwords⟩, by decide⟩

theorem Clause.oneLine_text {c : Clause} (h : c.atom.Plain) : OneLine c.text := by
  have hatom : OneLine c.atom.openText := Atom.oneLine_text h.unbroken
  cases c with
  | holds a => exact hatom
  | denied a =>
    have happend : (denied a).text = "(not " ++ a.openText ++ ")" := rfl
    rw [happend, oneLine_append, oneLine_append]
    exact ⟨⟨by decide, hatom⟩, by decide⟩

theorem unlines_cons (l : String) (ls : List String) :
    unlines (l :: ls) = l ++ "\n" ++ unlines ls := by
  rw [unlines, List.map_cons, String.join_cons]
  rfl

theorem toList_unlines_cons (l : String) (ls : List String) :
    (unlines (l :: ls)).toList = l.toList ++ '\n' :: (unlines ls).toList := by
  rw [unlines_cons, String.toList_append, String.toList_append, List.append_assoc]
  rfl

theorem unlines_cons_ne_nil (l : String) (ls : List String) : unlines (l :: ls) ≠ unlines [] := by
  intro h
  have hempty := congrArg String.toList h
  rw [toList_unlines_cons] at hempty
  exact absurd (List.append_eq_nil_iff.1 hempty).2 (List.cons_ne_nil _ _)

/-- **Lines can be told apart.** -/
theorem eq_of_unlines_eq : ∀ {ls ms : List String}, (∀ l ∈ ls, OneLine l) → (∀ m ∈ ms, OneLine m) →
    unlines ls = unlines ms → ls = ms
  | [], [], _, _, _ => rfl
  | [], m :: ms, _, _, h => absurd h.symm (unlines_cons_ne_nil m ms)
  | l :: ls, [], _, _, h => absurd h (unlines_cons_ne_nil l ls)
  | l :: ls, m :: ms, hls, hms, h => by
    obtain ⟨hl, hls⟩ := List.forall_mem_cons.1 hls
    obtain ⟨hm, hms⟩ := List.forall_mem_cons.1 hms
    rw [← String.toList_inj, toList_unlines_cons, toList_unlines_cons] at h
    obtain ⟨hfirst, -, hrest⟩ := append_cons_inj (p := (· = '\n')) rfl rfl
      (fun c hc e => hl (e ▸ hc)) (fun c hc e => hm (e ▸ hc)) h
    rw [String.toList_inj.1 hfirst, eq_of_unlines_eq hls hms (String.toList_inj.1 hrest)]

/-! ### Operators -/

/-- All names of an operator are plain. -/
structure Operator.Plain (o : Operator) : Prop where
  name : Pddl.Plain o.name
  preconditions : ∀ a ∈ o.preconditions, a.Plain
  unequal : ∀ q ∈ o.unequal, q.1.Plain ∧ q.2.Plain
  added : ∀ a ∈ o.added, a.Plain
  deleted : ∀ a ∈ o.deleted, a.Plain

namespace Operator

theorem plain_equals : Pddl.Plain "=" where
  unbroken c hc := by
    obtain rfl := List.mem_singleton.1 hc
    decide
  notMem := by decide

/-- An inequality as what is denied. -/
def equation (q : Argument × Argument) : Atom Argument := ⟨"=", [q.1, q.2]⟩

def conditions (o : Operator) : List Clause :=
  o.preconditions.map .holds ++ (o.unequal.map equation).map .denied

def effects (o : Operator) : List Clause := o.added.map .holds ++ o.deleted.map .denied

theorem lines_eq (o : Operator) : o.lines =
    ["  (:action " ++ o.name,
      "    :parameters (" ++ words ((List.range o.arity).map variableText) ++ ")",
      "    :precondition (and " ++ words (o.conditions.map Clause.text) ++ ")",
      "    :effect (and " ++ words (o.effects.map Clause.text) ++ ")", "  )"] := by
  have hequation : unequalText = fun q => (Clause.denied (equation q)).text := by
    funext q
    have hunequal : unequalText q = "(not (= " ++ q.1.text ++ " " ++ q.2.text ++ "))" := rfl
    rw [hunequal, ← String.toList_inj, Clause.toList_text_denied, Atom.openText_eq,
      Atom.toList_text, toList_words]
    simp [Atom.written, equation, List.intercalate_cons_cons, List.intercalate_singleton]
  simp only [lines, conditions, effects, List.map_append, List.map_map, Function.comp_def,
    hequation]
  rfl

theorem Plain.conditions {o : Operator} (h : o.Plain) : ∀ c ∈ o.conditions, c.atom.Plain := by
  intro c hc
  rcases List.mem_append.1 hc with hc | hc
  · obtain ⟨a, ha, rfl⟩ := List.mem_map.1 hc
    exact h.preconditions a ha
  · obtain ⟨_, ha, rfl⟩ := List.mem_map.1 hc
    obtain ⟨q, hq, rfl⟩ := List.mem_map.1 ha
    obtain ⟨hx, hy⟩ := h.unequal q hq
    exact ⟨plain_equals, List.forall_mem_cons.2 ⟨hx, List.forall_mem_singleton.2 hy⟩⟩

theorem Plain.effects {o : Operator} (h : o.Plain) : ∀ c ∈ o.effects, c.atom.Plain := by
  intro c hc
  rcases List.mem_append.1 hc with hc | hc
  · obtain ⟨a, ha, rfl⟩ := List.mem_map.1 hc
    exact h.added a ha
  · obtain ⟨a, ha, rfl⟩ := List.mem_map.1 hc
    exact h.deleted a ha

/-- **An operator can be read back** from its lines. -/
theorem eq_of_lines_eq {o p : Operator} (ho : o.Plain) (hp : p.Plain) (h : o.lines = p.lines) :
    o = p := by
  rw [lines_eq, lines_eq] at h
  simp only [List.cons.injEq, String.append_left_inj, String.append_right_inj, and_true] at h
  obtain ⟨hname, hparameters, hconditions, heffects⟩ := h
  have hclauses := Clause.legible_text.eq_of_words_eq ho.conditions hp.conditions hconditions
  obtain ⟨hpreconditions, hequations⟩ := Clause.append_inj hclauses
  obtain ⟨hadded, hdeleted⟩ := Clause.append_inj
    (Clause.legible_text.eq_of_words_eq ho.effects hp.effects heffects)
  have hunequal : o.unequal = p.unequal := by
    refine List.map_injective_iff.2 (fun q r hqr => ?_) hequations
    obtain ⟨h₁, h₂⟩ := List.cons.inj (Atom.mk.inj hqr).2
    exact Prod.ext h₁ (List.cons.inj h₂).1
  cases o
  cases p
  cases hname
  cases eq_of_variables_eq hparameters
  cases hpreconditions
  cases hunequal
  cases hadded
  cases hdeleted
  rfl

theorem Plain.oneLine {o : Operator} (h : o.Plain) : ∀ l ∈ o.lines, OneLine l := by
  have hconditions := oneLine_words_map fun c hc => Clause.oneLine_text (h.conditions c hc)
  have heffects := oneLine_words_map fun c hc => Clause.oneLine_text (h.effects c hc)
  have hvariables : OneLine (words ((List.range o.arity).map variableText)) :=
    oneLine_words_map fun i _ => (unbroken_variableText i).oneLine
  rw [lines_eq]
  simp only [List.forall_mem_cons, oneLine_append, hconditions, heffects, hvariables,
    h.name.unbroken.oneLine]
  decide

theorem flatMap_lines_cons_ne (o : Operator) (os : List Operator) :
    (o :: os).flatMap lines ++ [")"] ≠ [].flatMap lines ++ [")"] := by
  intro h
  have hlength := congrArg List.length h
  rw [List.flatMap_cons, lines_eq] at hlength
  simp at hlength

/-- **Operators can be read back** from what stands before the end of the file. -/
theorem eq_of_flatMap_lines_eq : ∀ {os ps : List Operator}, (∀ o ∈ os, o.Plain) →
    (∀ p ∈ ps, p.Plain) → os.flatMap lines ++ [")"] = ps.flatMap lines ++ [")"] → os = ps
  | [], [], _, _, _ => rfl
  | [], p :: ps, _, _, h => absurd h.symm (flatMap_lines_cons_ne p ps)
  | o :: os, [], _, _, h => absurd h (flatMap_lines_cons_ne o os)
  | o :: os, p :: ps, hos, hps, h => by
    obtain ⟨ho, hos⟩ := List.forall_mem_cons.1 hos
    obtain ⟨hp, hps⟩ := List.forall_mem_cons.1 hps
    rw [List.flatMap_cons, List.flatMap_cons, List.append_assoc, List.append_assoc] at h
    obtain ⟨hlines, hrest⟩ := List.append_inj h (by rw [lines_eq, lines_eq]; rfl)
    rw [eq_of_lines_eq ho hp hlines, eq_of_flatMap_lines_eq hos hps hrest]

end Operator

/-! ### Tasks -/

/-- A line of words, if there are any. -/
def declared (head : String) (ws : List String) : List String :=
  if ws.isEmpty then [] else [head ++ words ws ++ ")"]

theorem eq_of_declared_eq {head : String} {ws vs : List String} (hw : ∀ w ∈ ws, Unbroken w)
    (hv : ∀ v ∈ vs, Unbroken v) (h : declared head ws = declared head vs) : ws = vs := by
  cases ws with
  | nil =>
    cases vs with
    | nil => rfl
    | cons v vs => cases h
  | cons w ws =>
    cases vs with
    | nil => cases h
    | cons v vs =>
      have hline := (List.cons.inj h).1
      rw [String.append_left_inj, String.append_right_inj] at hline
      exact eq_of_words_eq (List.cons_ne_nil _ _) (List.cons_ne_nil _ _) hw hv hline

theorem oneLine_declared {head : String} {ws : List String} (hhead : OneLine head)
    (hw : ∀ w ∈ ws, Unbroken w) : ∀ l ∈ declared head ws, OneLine l := by
  intro l hl
  rw [declared] at hl
  split at hl
  · exact absurd hl List.not_mem_nil
  · rw [List.mem_singleton.1 hl, oneLine_append, oneLine_append]
    exact ⟨⟨hhead, oneLine_words fun w hx => (hw w hx).oneLine⟩, by decide⟩

theorem unbroken_predicate {name : String} (h : Unbroken name) (arity : Nat) :
    ∀ w ∈ name :: (List.range arity).map fun i => s!"?a{i}", Unbroken w := by
  refine List.forall_mem_cons.2 ⟨h, fun w hw => ?_⟩
  obtain ⟨i, -, rfl⟩ := List.mem_map.1 hw
  have happend : s!"?a{i}" = "?a" ++ i.repr := rfl
  rw [happend]
  refine Unbroken.append (fun c hc => ?_) (unbroken_repr i)
  rcases List.mem_pair.1 hc with rfl | rfl <;> decide

/-- The line of a predicate says its name and its arity. -/
theorem predicateLine_inj {p q : String × Nat} (hp : Unbroken p.1) (hq : Unbroken q.1)
    (h : predicateLine p.1 p.2 = predicateLine q.1 q.2) : p = q := by
  rw [predicateLine, predicateLine, String.append_left_inj, String.append_right_inj] at h
  have hwords := eq_of_words_eq (List.cons_ne_nil _ _) (List.cons_ne_nil _ _)
    (unbroken_predicate hp p.2) (unbroken_predicate hq q.2) h
  obtain ⟨hname, hvariables⟩ := List.cons.inj hwords
  exact Prod.ext hname (by simpa using congrArg List.length hvariables)

theorem oneLine_predicateLine {name : String} (h : Unbroken name) (arity : Nat) :
    OneLine (predicateLine name arity) := by
  rw [predicateLine, oneLine_append, oneLine_append]
  exact ⟨⟨by decide, oneLine_words fun w hw => (unbroken_predicate h arity w hw).oneLine⟩,
    by decide⟩

/-- All names of a task are plain. -/
structure Task.Plain (t : Task) : Prop where
  constants : ∀ c ∈ t.constants, Pddl.Plain c
  predicates : ∀ p ∈ t.predicates, Pddl.Plain p.1
  operators : ∀ o ∈ t.operators, o.Plain
  objects : ∀ c ∈ t.objects, Pddl.Plain c
  initial : ∀ a ∈ t.initial, ∀ w ∈ a.name :: a.arguments, Pddl.Plain w
  goals : ∀ a ∈ t.goals, ∀ w ∈ a.name :: a.arguments, Pddl.Plain w

namespace Task

/-- The lines of a domain file between its first line and the end of the predicates. -/
def declarations (t : Task) : List String :=
  ("  (:requirements " ++ words t.requirements ++ ")") ::
    (declared "  (:constants " t.constants ++
      "  (:predicates" :: t.predicates.map fun p => predicateLine p.1 p.2)

theorem domainText_eq (t : Task) : t.domainText =
    unlines (("(define (domain " ++ t.domainName ++ ")") ::
      (t.declarations ++ "  )" :: (t.operators.flatMap Operator.lines ++ [")"]))) := by
  rw [domainText, declarations]
  simp only [List.append_assoc, List.cons_append, List.nil_append]
  rfl

theorem problemText_eq (t : Task) : t.problemText =
    unlines (("(define (problem " ++ t.problemName ++ ")") ::
      ("  (:domain " ++ t.domainName ++ ")") :: (declared "  (:objects " t.objects ++
        ["  (:init " ++ words (t.initial.map Atom.text) ++ ")",
          "  (:goal (and " ++ words (t.goals.map Atom.text) ++ "))", ")"])) := by
  rw [problemText]
  simp only [List.cons_append, List.nil_append]
  rfl

variable {t u : Task}

theorem Plain.oneLine_declarations (h : t.Plain) : ∀ l ∈ t.declarations, OneLine l := by
  refine List.forall_mem_cons.2 ⟨?_, fun l hl => ?_⟩
  · have hrequirements : OneLine (words t.requirements) := by
      rw [requirements]
      split <;> decide
    simp only [oneLine_append, hrequirements]
    decide
  · rcases List.mem_append.1 hl with hl | hl
    · exact oneLine_declared (by decide) (fun c hc => (h.constants c hc).unbroken) l hl
    · rcases List.mem_cons.1 hl with rfl | hl
      · decide
      · obtain ⟨p, hp, rfl⟩ := List.mem_map.1 hl
        exact oneLine_predicateLine (h.predicates p hp).unbroken p.2

/-- No line of the declarations ends them. -/
theorem end_notMem_declarations (t : Task) : ∀ l ∈ t.declarations, ¬l = "  )" := by
  have happend : ∀ (c : Char) (head rest : String), c ∈ head.toList → c ∉ "  )".toList →
      head ++ rest ≠ "  )" := by
    intro c head rest hc hend h
    refine hend (h ▸ ?_)
    rw [String.toList_append]
    exact List.mem_append_left _ hc
  refine List.forall_mem_cons.2 ⟨?_, fun l hl => ?_⟩
  · rw [String.append_assoc]
    exact happend '(' _ _ (by decide) (by decide)
  · rcases List.mem_append.1 hl with hl | hl
    · rw [declared] at hl
      split at hl
      · exact absurd hl List.not_mem_nil
      · rw [List.mem_singleton.1 hl, String.append_assoc]
        exact happend '(' _ _ (by decide) (by decide)
    · rcases List.mem_cons.1 hl with rfl | hl
      · decide
      · obtain ⟨p, -, rfl⟩ := List.mem_map.1 hl
        rw [predicateLine, String.append_assoc]
        exact happend '(' _ _ (by decide) (by decide)

/-- **The declarations can be read back.** -/
theorem eq_of_declarations_eq (ht : t.Plain) (hu : u.Plain) (h : t.declarations = u.declarations) :
    t.constants = u.constants ∧ t.predicates = u.predicates := by
  have hconstants : ∀ ws, ∀ l ∈ declared "  (:constants " ws, ¬l = "  (:predicates" := by
    rintro ws l hl rfl
    rw [declared] at hl
    split at hl
    · exact absurd hl List.not_mem_nil
    · have hhead := congrArg (fun s : String => s.toList.take 5) (List.mem_singleton.1 hl)
      simp only [String.toList_append, List.append_assoc] at hhead
      cases hhead
  obtain ⟨hdeclared, -, hpredicates⟩ := append_cons_inj (p := (· = "  (:predicates")) rfl rfl
    (hconstants _) (hconstants _) (List.cons.inj h).2
  exact ⟨eq_of_declared_eq (fun c hc => (ht.constants c hc).unbroken)
      (fun c hc => (hu.constants c hc).unbroken) hdeclared,
    eq_of_map_eq (fun p q hp hq => predicateLine_inj hp hq)
      (fun p hp => (ht.predicates p hp).unbroken) (fun p hp => (hu.predicates p hp).unbroken)
      hpredicates⟩

theorem Plain.oneLine_domain (h : t.Plain) :
    ∀ l ∈ t.declarations ++ "  )" :: (t.operators.flatMap Operator.lines ++ [")"]), OneLine l := by
  refine List.forall_mem_append.2 ⟨h.oneLine_declarations, List.forall_mem_cons.2
    ⟨by decide, List.forall_mem_append.2 ⟨fun l hl => ?_, by decide⟩⟩⟩
  obtain ⟨o, ho, hl⟩ := List.mem_flatMap.1 hl
  exact (h.operators o ho).oneLine l hl

/-- **A domain can be read back** from its file. -/
theorem eq_of_domainText_eq (ht : t.Plain) (hu : u.Plain) (hname : t.domainName = u.domainName)
    (h : t.domainText = u.domainText) :
    t.constants = u.constants ∧ t.predicates = u.predicates ∧ t.operators = u.operators := by
  rw [domainText_eq, domainText_eq, hname, unlines_cons, unlines_cons, String.append_right_inj] at h
  obtain ⟨hdeclarations, -, hoperators⟩ := append_cons_inj (p := (· = "  )")) rfl rfl
    t.end_notMem_declarations u.end_notMem_declarations
    (eq_of_unlines_eq ht.oneLine_domain hu.oneLine_domain h)
  obtain ⟨hconstants, hpredicates⟩ := eq_of_declarations_eq ht hu hdeclarations
  exact ⟨hconstants, hpredicates,
    Operator.eq_of_flatMap_lines_eq ht.operators hu.operators hoperators⟩

theorem Plain.unbroken_initial (h : t.Plain) :
    ∀ a ∈ t.initial, ∀ w ∈ a.name :: a.arguments, Unbroken w :=
  fun a ha w hw => (h.initial a ha w hw).unbroken

theorem Plain.unbroken_goals (h : t.Plain) :
    ∀ a ∈ t.goals, ∀ w ∈ a.name :: a.arguments, Unbroken w :=
  fun a ha w hw => (h.goals a ha w hw).unbroken

theorem Plain.oneLine_problem (h : t.Plain) : ∀ l ∈ declared "  (:objects " t.objects ++
    ["  (:init " ++ words (t.initial.map Atom.text) ++ ")",
      "  (:goal (and " ++ words (t.goals.map Atom.text) ++ "))", ")"], OneLine l := by
  have hinitial := oneLine_words_map fun a ha => Atom.oneLine_text (h.unbroken_initial a ha)
  have hgoals := oneLine_words_map fun a ha => Atom.oneLine_text (h.unbroken_goals a ha)
  refine List.forall_mem_append.2
    ⟨oneLine_declared (by decide) fun c hc => (h.objects c hc).unbroken, ?_⟩
  simp only [List.forall_mem_cons, oneLine_append, hinitial, hgoals]
  decide

/-- **A problem can be read back** from its file. -/
theorem eq_of_problemText_eq (ht : t.Plain) (hu : u.Plain) (hdomain : t.domainName = u.domainName)
    (hname : t.problemName = u.problemName) (h : t.problemText = u.problemText) :
    t.objects = u.objects ∧ t.initial = u.initial ∧ t.goals = u.goals := by
  rw [problemText_eq, problemText_eq, hname, hdomain] at h
  simp only [unlines_cons, String.append_right_inj] at h
  obtain ⟨hobjects, hlines⟩ :=
    List.append_inj' (eq_of_unlines_eq ht.oneLine_problem hu.oneLine_problem h) rfl
  simp only [List.cons.injEq, String.append_left_inj, String.append_right_inj, and_true] at hlines
  exact ⟨eq_of_declared_eq (fun c hc => (ht.objects c hc).unbroken)
      (fun c hc => (hu.objects c hc).unbroken) hobjects,
    Atom.legible_text.eq_of_words_eq ht.unbroken_initial hu.unbroken_initial hlines.1,
    Atom.legible_text.eq_of_words_eq ht.unbroken_goals hu.unbroken_goals hlines.2⟩

/-- **A task can be read back** from its two files. -/
theorem eq_of_texts_eq (ht : t.Plain) (hu : u.Plain) (hdomain : t.domainName = u.domainName)
    (hname : t.problemName = u.problemName) (hdomainText : t.domainText = u.domainText)
    (hproblemText : t.problemText = u.problemText) : t = u := by
  obtain ⟨hconstants, hpredicates, hoperators⟩ := eq_of_domainText_eq ht hu hdomain hdomainText
  obtain ⟨hobjects, hinitial, hgoals⟩ := eq_of_problemText_eq ht hu hdomain hname hproblemText
  cases t
  cases u
  cases hdomain
  cases hname
  cases hconstants
  cases hpredicates
  cases hoperators
  cases hobjects
  cases hinitial
  cases hgoals
  rfl

end Task

end Strips.Pddl
