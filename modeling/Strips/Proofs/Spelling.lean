import Strips.Proofs.Grammar
import Strips.Proofs.Layout
import Strips.Step

/-!
# Spelling

What is printed of facts and steps is made of words, marks and blanks. A blank is a gap, a mark is
a token wherever it stands, and a word is one unless an identifier goes on after it. So it is enough
to know of each part of a text as which lexemes it is read, and that no identifier goes on after it.
The parts are put together as the text is.

## Main definitions

* `Lexer.Yields` – a text is read as lexemes before some other text.
* `Lexer.Spells` – it is, wherever no identifier goes on.
* `Fact.written`, `Step.written` – facts and steps as statements are written.

## Main results

* `Lexer.spells_parted` – a list with commas.
* `Fact.spells_text` – a printed fact.
* `Step.exists_tokenize_describe` – a printed step, with a dot after it.
-/

namespace Strips

namespace Lexer

/-- Before the other text, the text is read as tokens with these lexemes. -/
def Yields (text : List Char) (ls : List Lexeme) (after : List Char) : Prop :=
  ∀ p : Position, ∃ tokens : List Token, tokens.map (·.lexeme) = ls ∧
    scan .gap p (text ++ after) = (scan .gap (p.afterText text) after).map (tokens ++ ·)

/-- No identifier goes on with the text. -/
def Ends (after : List Char) : Prop := ∀ c ∈ after.head?, isIdentifierChar c = false

/-- The text is read as these lexemes wherever no identifier goes on after it. -/
def Spells (text : List Char) (ls : List Lexeme) : Prop :=
  ∀ after, Ends after → Yields text ls after

/-! ### Parts of a text -/

section Parts

variable {s t after : List Char} {ls ms : List Lexeme}

theorem yields_nil (after : List Char) : Yields [] [] after :=
  fun _ => ⟨[], rfl, (map_nil_append _).symm⟩

theorem Yields.append (hs : Yields s ls (t ++ after)) (ht : Yields t ms after) :
    Yields (s ++ t) (ls ++ ms) after := by
  intro p
  obtain ⟨first, hfirst, hscan⟩ := hs p
  obtain ⟨second, hsecond, hscan'⟩ := ht (p.afterText s)
  refine ⟨first ++ second, by rw [List.map_append, hfirst, hsecond], ?_⟩
  rw [List.append_assoc, hscan, hscan', Position.afterText_append]
  cases scan .gap ((p.afterText s).afterText t) after with
  | error e => rfl
  | ok rest => exact congrArg Except.ok (List.append_assoc first second rest).symm

theorem isSpace_blank : Text.isSpace ' ' = true := rfl

theorem yields_space {c : Char} (hc : Text.isSpace c = true) (after : List Char) :
    Yields [c] [] after := by
  refine fun p => ⟨[], rfl, ?_⟩
  rw [List.singleton_append, scan_space hc, map_nil_append]
  rfl

theorem yields_token {l : Lexeme} (hproper : l.Proper)
    (hafter : ∀ x, l = .identifier x → Ends after) : Yields l.spelling.toList [l] after := by
  intro p
  have hfits : l.Fits [] after := ⟨hproper, by simp, hafter⟩
  exact ⟨[⟨l, p⟩], rfl, scan_token hfits p⟩

/-- A mark is read wherever it stands. -/
theorem yields_mark {l : Lexeme} (hl : ∀ x, l ≠ .identifier x) (after : List Char) :
    Yields l.spelling.toList [l] after :=
  yields_token (fun x hx => absurd hx (hl x)) fun x hx => absurd hx (hl x)

theorem spells_word {x : String} (hx : IsWord x.toList) : Spells x.toList [.identifier x] := by
  refine fun after hafter => yields_token (l := .identifier x) (fun y hy => ?_) fun _ _ => hafter
  rwa [← Lexeme.identifier.inj hy]

theorem ends_cons {c : Char} (hc : isIdentifierChar c = false) (text : List Char) :
    Ends (c :: text) := by
  rintro d ⟨⟩
  exact hc

/-- A mark after a text ends the identifier in it. -/
theorem Spells.before_mark (hs : Spells s ls) {l : Lexeme} (hl : ∀ x, l ≠ .identifier x)
    (ht : Yields t ms after) : Yields (s ++ (l.spelling.toList ++ t)) (ls ++ l :: ms) after := by
  have hends : Ends (l.spelling.toList ++ t ++ after) := by
    cases l with
    | identifier x => exact absurd rfl (hl x)
    | _ => exact ends_cons (by decide) _
  exact (hs _ hends).append ((yields_mark hl _).append ht)

/-- So does a blank. -/
theorem Spells.before_space (hs : Spells s ls) {c : Char} (hc : Text.isSpace c = true)
    (ht : Yields t ms after) : Yields (s ++ ([c] ++ t)) (ls ++ ms) after :=
  (hs _ (ends_cons (Text.isIdentifierChar_of_isSpace hc) _)).append ((yields_space hc _).append ht)

end Parts

/-- The whole text. -/
theorem Yields.exists_tokenize {text : String} {ls : List Lexeme} (h : Yields text.toList ls []) :
    ∃ tokens, tokenize text = .ok tokens ∧ tokens.map (·.lexeme) = ls := by
  obtain ⟨tokens, hlexemes, hscan⟩ := h .start
  refine ⟨tokens, ?_, hlexemes⟩
  rw [List.append_nil] at hscan
  rw [tokenize, hscan]
  exact congrArg Except.ok (List.append_nil tokens)

/-! ### Lists -/

/-- **Items with commas between them** spell a list. -/
theorem spells_parted {α : Type} {text : α → List Char} {lexemes : α → List Lexeme}
    (items : List α) (h : ∀ a ∈ items, Spells (text a) (lexemes a)) :
    Spells ([','].intercalate (items.map text)) (Lexeme.parted (items.map lexemes)) := by
  induction items with
  | nil => exact fun after _ => yields_nil after
  | cons a items ih =>
    obtain ⟨ha, hitems⟩ := List.forall_mem_cons.1 h
    cases items with
    | nil =>
      rw [List.map_singleton, List.map_singleton, Lexeme.parted, List.intercalate_singleton,
        List.intercalate_singleton]
      exact ha
    | cons b items =>
      intro after hafter
      have hrest := ih hitems after hafter
      rw [Lexeme.parted] at hrest ⊢
      simp only [List.map_cons] at hrest ⊢
      rw [List.intercalate_cons_cons, List.intercalate_cons_cons, List.append_assoc,
        List.append_assoc]
      exact ha.before_mark (l := .comma) (by simp) hrest

end Lexer

/-! ### Written facts and steps -/

/-- A fact as it is written: without arguments it has no parentheses. -/
def Fact.written (f : Fact) : WrittenLiteral :=
  ⟨f.name, if f.arguments.isEmpty then none else some f.arguments⟩

theorem Fact.arguments_written (f : Fact) : f.written.arguments = f.arguments := by
  rw [written, WrittenLiteral.arguments]
  split
  · rename_i h
    exact (List.isEmpty_iff.1 h).symm
  · rfl

/-- The effects of a step, each with whether it is denied. Deleted facts come first. -/
def Step.effects (a : Step) : List (Bool × Fact) :=
  a.deleted.map (true, ·) ++ a.added.map (false, ·)

/-- A step as it is written, without its arguments. -/
def Step.written (a : Step) : WrittenAction where
  name := a.name
  preconditions := a.preconditions.map Fact.written
  effects := a.effects.map fun e => ⟨e.1, e.2.written⟩

/-- All names of a fact are words. -/
def Fact.IsWorded (f : Fact) : Prop := ∀ x ∈ f.name :: f.arguments, IsWord x.toList

open Lexer

/-- **A printed fact** is read as it is written. -/
theorem Fact.spells_text {f : Fact} (h : f.IsWorded) : Spells f.text.toList f.written.lexemes := by
  obtain ⟨hname, harguments⟩ := List.forall_mem_cons.1 h
  rw [text, callText, WrittenLiteral.lexemes, WrittenLiteral.tail, written]
  by_cases hnone : f.arguments.isEmpty = true
  · rw [if_pos hnone, if_pos hnone]
    exact spells_word hname
  · rw [if_neg hnone, if_neg hnone]
    have hlist := spells_parted f.arguments fun x hx => spells_word (harguments x hx)
    intro after _
    have hclosed := hlist.before_mark (l := .rightParen) (by simp) (yields_nil after)
    have hall := (spells_word hname).before_mark (l := .leftParen) (by simp) hclosed
    simpa [String.toList_append, String.toList_intercalate, Lexeme.spelling] using hall

/-- How an effect is printed. -/
def Fact.effectText (e : Bool × Fact) : String := (if e.1 then "not " else "") ++ e.2.text

/-- So is a printed effect, denied or not. -/
theorem Fact.spells_effectText {e : Bool × Fact} (h : e.2.IsWorded) :
    Spells (effectText e).toList (⟨e.1, e.2.written⟩ : WrittenEffect).lexemes := by
  obtain ⟨_ | _, f⟩ := e
  · simpa [effectText, WrittenEffect.lexemes] using spells_text h
  · have hnot : IsWord "not".toList :=
      ⟨'n', ['o', 't'], rfl, rfl, List.forall_mem_cons.2 ⟨rfl, List.forall_mem_singleton.2 rfl⟩⟩
    intro after hafter
    have hall := (spells_word hnot).before_space isSpace_blank (spells_text h after hafter)
    simpa [effectText, String.toList_append, WrittenEffect.lexemes] using hall

theorem Step.describe_eq (a : Step) : a.describe = a.name ++ " :: " ++
    ",".intercalate (a.preconditions.map Fact.text) ++ " => " ++
      ",".intercalate (a.effects.map Fact.effectText) := by
  have heffects : a.effects.map Fact.effectText =
      (a.deleted.map fun f => "not " ++ f.text) ++ a.added.map Fact.text := by
    simp [effects, Fact.effectText, Function.comp_def]
  rw [heffects]
  rfl

/-- **A printed step with a dot after it** is read as it is written. -/
theorem Step.exists_tokenize_describe {a : Step} (hname : IsWord a.name.toList)
    (hfacts : ∀ f ∈ a.preconditions ++ a.deleted ++ a.added, f.IsWorded) :
    ∃ tokens, tokenize (a.describe ++ ".") = .ok tokens ∧
      tokens.map (·.lexeme) = (⟨none, .action a.written⟩ : WrittenStatement).lexemes := by
  have hpreconditions := spells_parted a.preconditions
    fun f hf => Fact.spells_text (hfacts f (by simp [hf]))
  have heffects := spells_parted a.effects fun e he => by
    refine Fact.spells_effectText (hfacts e.2 ?_)
    rcases List.mem_append.1 he with he | he
    all_goals
      obtain ⟨f, hf, rfl⟩ := List.mem_map.1 he
      simp [hf]
  -- from the dot backwards to the name
  have hdot := heffects.before_mark (l := .dot) (by simp) (yields_nil [])
  have harrow := (yields_mark (l := .arrow) (by simp) _).append
    ((yields_space isSpace_blank _).append hdot)
  have hbody := (yields_space isSpace_blank _).append
    (hpreconditions.before_space isSpace_blank harrow)
  have hall := (spells_word hname).before_space isSpace_blank
    ((yields_mark (l := .quadDot) (by simp) _).append hbody)
  refine Yields.exists_tokenize ?_
  rw [Step.describe_eq]
  simpa [String.toList_append, String.toList_intercalate, Lexeme.spelling,
    WrittenStatement.lexemes, WrittenBody.name, WrittenBody.tail, WrittenAction.tail,
    Step.written, List.map_map, Function.comp_def] using hall

end Strips
