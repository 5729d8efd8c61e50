import Strips.Pddl.Export
import Strips.Proofs.Acceptance
import Strips.Proofs.Legibility

/-!
# The names of a problem

All names of a problem text are words: a letter, digit or number, and then such characters, hyphens
and underscores. The lexer puts nothing else together, the grammar passes names on as they are, and
so a schema has no names but those of its statement.

Exported words are plain. Lower case makes no mark out of a letter, as one sees by going through the
ASCII characters and the table for the others.

## Main definitions

* `IsWord` – the names that can stand in a text.
* `Schema.EachName`, `Problem.EachName` – all names of a schema or of a problem have a property.

## Main results

* `Problem.isWord_of_parse` – the names of a problem text are words.
* `Pddl.plain_exportName` – exported words are plain.
-/

namespace Strips

/-! ### Words -/

/-- The characters of a name as it can stand in a text. -/
def IsWord (name : List Char) : Prop :=
  ∃ c rest, name = c :: rest ∧ Text.isAlphanumeric c = true ∧
    ∀ d ∈ rest, Lexer.isIdentifierChar d = true

theorem IsWord.isIdentifierChar {name : List Char} (h : IsWord name) {c : Char} (hc : c ∈ name) :
    Lexer.isIdentifierChar c = true := by
  obtain ⟨d, rest, rfl, hd, hrest⟩ := h
  rcases List.mem_cons.1 hc with rfl | hc
  · rw [Lexer.isIdentifierChar, hd, Bool.true_or, Bool.true_or]
  · exact hrest c hc

/-- A character can be added at the end of a word. -/
theorem IsWord.concat {name : List Char} (h : IsWord name) {c : Char}
    (hc : Lexer.isIdentifierChar c = true) : IsWord (name ++ [c]) := by
  obtain ⟨d, rest, rfl, hd, hrest⟩ := h
  exact ⟨d, rest ++ [c], rfl, hd,
    List.forall_mem_append.2 ⟨hrest, List.forall_mem_singleton.2 hc⟩⟩

/-- The token is a word, if it is an identifier. -/
def Token.Proper (t : Token) : Prop := ∀ x, t.lexeme = .identifier x → IsWord x.toList

namespace Lexer

/-- What has been read of a word is a word. -/
def Mode.Proper (mode : Mode) : Prop := ∀ start read, mode = .word start read → IsWord read.reverse

theorem proper_wordToken {start : Position} {read : List Char} (h : IsWord read.reverse) :
    (wordToken start read).Proper := by
  intro x hx
  cases hx
  rwa [String.toList_ofList]

theorem proper_stepGap {p : Position} {c : Char} {mode : Mode} {tokens : List Token}
    (h : stepGap p c = .ok (mode, tokens)) : mode.Proper ∧ ∀ t ∈ tokens, t.Proper := by
  have hmark : ∀ l : Lexeme, (∀ x, l ≠ .identifier x) → ∀ t ∈ [(⟨l, p⟩ : Token)], t.Proper := by
    intro l hl t ht x hx
    rw [List.mem_singleton.1 ht] at hx
    exact absurd hx (hl x)
  rw [stepGap] at h
  split_ifs at h with hspace hcomment hleft hright hcomma hdot hcolon hequals halpha
  all_goals cases h
  · exact ⟨nofun, nofun⟩
  · exact ⟨nofun, nofun⟩
  · exact ⟨nofun, hmark _ nofun⟩
  · exact ⟨nofun, hmark _ nofun⟩
  · exact ⟨nofun, hmark _ nofun⟩
  · exact ⟨nofun, hmark _ nofun⟩
  · exact ⟨nofun, nofun⟩
  · exact ⟨nofun, nofun⟩
  · refine ⟨fun start read hword => ?_, nofun⟩
    cases hword
    exact ⟨c, [], rfl, halpha, nofun⟩

/-- **One character** keeps what is read a word, and completes words only. -/
theorem Mode.Proper.step {mode mode' : Mode} {p : Position} {c : Char} {tokens : List Token}
    (hmode : mode.Proper) (h : step mode p c = .ok (mode', tokens)) :
    mode'.Proper ∧ ∀ t ∈ tokens, t.Proper := by
  cases mode with
  | gap => exact proper_stepGap h
  | comment =>
    obtain ⟨rfl, rfl⟩ := Prod.mk.inj (Except.ok.inj h)
    split <;> exact ⟨nofun, nofun⟩
  | word start read =>
    have hread := hmode start read rfl
    rw [Lexer.step] at h
    split at h
    · rename_i hc
      cases h
      refine ⟨fun start' read' hword => ?_, nofun⟩
      cases hword
      rw [List.reverse_cons]
      exact hread.concat hc
    · rcases hgap : stepGap p c with e | ⟨mode₁, tokens₁⟩
      · rw [hgap] at h
        cases h
      · rw [hgap] at h
        cases h
        obtain ⟨hmode', htokens⟩ := proper_stepGap hgap
        exact ⟨hmode', List.forall_mem_cons.2 ⟨proper_wordToken hread, htokens⟩⟩
  | colon start =>
    rw [Lexer.step] at h
    split at h
    · cases h
      refine ⟨nofun, fun t ht x hx => ?_⟩
      rw [List.mem_singleton.1 ht] at hx
      cases hx
    · cases h
  | equals start =>
    rw [Lexer.step] at h
    split at h
    · cases h
      refine ⟨nofun, fun t ht x hx => ?_⟩
      rw [List.mem_singleton.1 ht] at hx
      cases hx
    · cases h

theorem Mode.Proper.finish {mode : Mode} {tokens : List Token} (hmode : mode.Proper)
    (h : finish mode = .ok tokens) : ∀ t ∈ tokens, t.Proper := by
  cases mode with
  | gap => cases h; exact nofun
  | comment => cases h; exact nofun
  | word start read =>
    cases h
    exact List.forall_mem_singleton.2 (proper_wordToken (hmode start read rfl))
  | colon start => cases h
  | equals start => cases h

/-- **A run** over a text completes words only. -/
theorem Mode.Proper.scan : ∀ {text : List Char} {mode : Mode} {p : Position} {tokens : List Token},
    mode.Proper → scan mode p text = .ok tokens → ∀ t ∈ tokens, t.Proper
  | [], mode, p, tokens, hmode, h => hmode.finish h
  | c :: rest, mode, p, tokens, hmode, h => by
    rw [Lexer.scan] at h
    split at h
    · cases h
    · rename_i mode' tokens' hstep
      obtain ⟨hmode', htokens'⟩ := hmode.step hstep
      rcases hrest : Lexer.scan mode' (p.after c) rest with e | later
      · rw [hrest] at h
        cases h
      · rw [hrest] at h
        cases h
        exact List.forall_mem_append.2 ⟨htokens', hmode'.scan hrest⟩

end Lexer

/-- The identifiers of a text are words. -/
theorem isWord_of_tokenize {text : String} {tokens : List Token} (h : tokenize text = .ok tokens)
    {x : String} (hx : .identifier x ∈ tokens.map (·.lexeme)) : IsWord x.toList := by
  obtain ⟨t, ht, hlexeme⟩ := List.mem_map.1 hx
  have hgap : Lexer.Mode.gap.Proper := nofun
  exact hgap.scan h t ht x hlexeme

/-! ### Written names -/

theorem Lexeme.mem_parted {x : Lexeme} : ∀ {items : List (List Lexeme)},
    x ∈ items.flatten → x ∈ parted items
  | [], h => h
  | [i], h => by
    rw [parted, List.intercalate_singleton]
    simpa using h
  | i :: j :: items, h => by
    rw [parted, List.intercalate_cons_cons]
    rw [List.flatten_cons, List.mem_append] at h
    rcases h with h | h
    · exact List.mem_append_left _ (List.mem_append_left _ h)
    · exact List.mem_append_right _ (mem_parted h)

/-- The names of a literal. -/
def WrittenLiteral.names (l : WrittenLiteral) : List String := l.name :: l.arguments

theorem WrittenLiteral.identifier_mem {l : WrittenLiteral} {x : String} (h : x ∈ l.names) :
    .identifier x ∈ l.lexemes := by
  rw [lexemes]
  rcases List.mem_cons.1 h with rfl | h
  · exact List.mem_cons_self
  · refine List.mem_cons_of_mem _ ?_
    rw [arguments] at h
    rw [tail]
    cases hparens : l.parenthesized with
    | none => rw [hparens] at h; cases h
    | some xs =>
      rw [hparens] at h
      refine List.mem_cons_of_mem _ (List.mem_append_left _ (Lexeme.mem_parted ?_))
      exact List.mem_flatten.2 ⟨_, List.mem_map_of_mem h, List.mem_singleton.2 rfl⟩

namespace WrittenAction

/-- The literals of an action. -/
def literals (a : WrittenAction) : List WrittenLiteral :=
  a.preconditions ++ a.effects.map (·.literal)

theorem effectsWith_subset (a : WrittenAction) (denied : Bool) :
    a.effectsWith denied ⊆ a.literals := by
  intro l hl
  obtain ⟨e, he, rfl⟩ := List.mem_map.1 hl
  exact List.mem_append_right _ (List.mem_map_of_mem (List.mem_filter.1 he).1)

theorem identifier_mem {a : WrittenAction} {l : WrittenLiteral} (hl : l ∈ a.literals) {x : String}
    (hx : x ∈ l.names) : .identifier x ∈ a.tail := by
  have hlexeme := WrittenLiteral.identifier_mem hx
  refine List.mem_cons_of_mem _ ?_
  rcases List.mem_append.1 hl with hl | hl
  · exact List.mem_append_left _
      (Lexeme.mem_parted (List.mem_flatten.2 ⟨_, List.mem_map_of_mem hl, hlexeme⟩))
  · obtain ⟨e, he, rfl⟩ := List.mem_map.1 hl
    have heffect : .identifier x ∈ e.lexemes := by
      rw [WrittenEffect.lexemes]
      split
      · exact List.mem_cons_of_mem _ hlexeme
      · exact hlexeme
    refine List.mem_append_right _ (List.mem_cons_of_mem _ (List.mem_append_left _ ?_))
    exact Lexeme.mem_parted (List.mem_flatten.2 ⟨_, List.mem_map_of_mem he, heffect⟩)

end WrittenAction

namespace WrittenStatement

theorem identifier_mem_of_action {w : WrittenStatement} {a : WrittenAction}
    (h : w.action? = some a) :
    .identifier a.name ∈ w.lexemes ∧
      ∀ l ∈ a.literals, ∀ x ∈ l.names, .identifier x ∈ w.lexemes := by
  obtain ⟨k, l | b⟩ := w
  · cases h
  · cases h
    exact ⟨List.mem_append_right _ List.mem_cons_self, fun l hl x hx => List.mem_append_right _
      (List.mem_cons_of_mem _ (WrittenAction.identifier_mem hl hx))⟩

theorem identifier_mem_of_fact : ∀ {mode : Bool} {ws : List WrittenStatement} {f : Bool × Fact},
    f ∈ facts mode ws → ∀ x ∈ f.2.name :: f.2.arguments, .identifier x ∈ ws.flatMap (·.lexemes)
  | _, [], _, hf, _, _ => absurd hf List.not_mem_nil
  | mode, w :: ws, f, hf, x, hx => by
    rw [List.flatMap_cons]
    obtain ⟨k, l | a⟩ := w
    · rcases List.mem_cons.1 hf with rfl | hf
      · refine List.mem_append_left _ (List.mem_append_right _ ?_)
        rcases List.mem_cons.1 (WrittenLiteral.identifier_mem (l := l) hx) with hname | htail
        · exact hname ▸ List.mem_cons_self
        · exact List.mem_cons_of_mem _ (List.mem_append_left _ htail)
      · exact List.mem_append_right _ (identifier_mem_of_fact hf x hx)
    · have hlater : f ∈ facts ((⟨k, .action a⟩ : WrittenStatement).modeAfter mode) ws := hf
      exact List.mem_append_right _ (identifier_mem_of_fact hlater x hx)

end WrittenStatement

/-! ### The names of a schema -/

/-- The name and all constants of a literal have a property. -/
structure Literal.EachName (l : Literal) (P : String → Prop) : Prop where
  name : P l.name
  constants : ∀ v, .const v ∈ l.terms → P v

/-- All names of a schema have a property: those of the action and of its literals, and the
constants of literals and constraints. -/
structure Schema.EachName (s : Schema) (P : String → Prop) : Prop where
  name : P s.action.name
  literals : ∀ l ∈ s.action.literals, (l.resolve s.arena).EachName P
  distinct : ∀ q ∈ s.action.distinct, ∀ v,
    .const v ∈ [q.1.resolve s.arena, q.2.resolve s.arena] → P v

section Decidable

variable {P : String → Prop} [DecidablePred P]

/-- The value of a term that is a constant. -/
def Term.constant? : Term → Option String
  | const v => some v
  | cell _ => none

instance (ts : List Term) : Decidable (∀ v, .const v ∈ ts → P v) :=
  decidable_of_iff (∀ v ∈ ts.filterMap Term.constant?, P v) (by
    refine forall_congr' fun v =>
      imp_congr_left (List.mem_filterMap.trans ⟨?_, fun h => ⟨_, h, rfl⟩⟩)
    rintro ⟨w | i, hw, hv⟩
    · cases hv
      exact hw
    · cases hv)

instance (l : Literal) : Decidable (l.EachName P) :=
  decidable_of_iff (P l.name ∧ ∀ v, .const v ∈ l.terms → P v)
    ⟨fun h => ⟨h.1, h.2⟩, fun h => ⟨h.name, h.constants⟩⟩

instance (s : Schema) : Decidable (s.EachName P) :=
  decidable_of_iff (P s.action.name ∧ (∀ l ∈ s.action.literals, (l.resolve s.arena).EachName P) ∧
      ∀ q ∈ s.action.distinct, ∀ v, .const v ∈ [q.1.resolve s.arena, q.2.resolve s.arena] → P v)
    ⟨fun h => ⟨h.1, h.2.1, h.2.2⟩, fun h => ⟨h.name, h.literals, h.distinct⟩⟩

end Decidable

/-- A constant of a literal is one of its arguments, and no variable. -/
theorem WrittenLiteral.mem_of_const_mem_over {cell : String → Nat} {m : WrittenLiteral} {v : String}
    (h : .const v ∈ (m.over cell).terms) : v ∈ m.names ∧ isVariable v = false := by
  obtain ⟨x, hx, heq⟩ := List.mem_map.1 h
  rw [writtenTerm] at heq
  split at heq
  · cases heq
  · rename_i hconstant
    obtain rfl := Term.const.inj heq
    exact ⟨List.mem_cons_of_mem _ hx, Bool.eq_false_iff.2 hconstant⟩

/-- What is said was written. -/
theorem exists_over_of_mem {arena : Arena} {cell : String → Nat} {ls : List Literal}
    {ms : List WrittenLiteral}
    (h : ls.map (·.resolve arena) = (ms.map (·.over cell)).eraseDups) {l : Literal} (hl : l ∈ ls) :
    ∃ m ∈ ms, m.over cell = l.resolve arena := by
  have hmem : l.resolve arena ∈ (ms.map (·.over cell)).eraseDups := h ▸ List.mem_map_of_mem hl
  exact List.mem_map.1 (List.mem_eraseDups.1 hmem)

/-- A schema has the names that were written, and no others. -/
theorem Schema.Says.eachName {s : Schema} {a : WrittenAction} {cell : String → Nat}
    (h : s.Says a cell) {P : String → Prop} (hname : P a.name)
    (hliterals : ∀ l ∈ a.literals, ∀ x ∈ l.names, P x) : s.EachName P := by
  have hset : ∀ {ls : List Literal} {ms : List WrittenLiteral}, ms ⊆ a.literals →
      ls.map (·.resolve s.arena) = (ms.map (·.over cell)).eraseDups →
        ∀ l ∈ ls, (l.resolve s.arena).EachName P := by
    intro ls ms hms heq l hl
    obtain ⟨m, hm, hover⟩ := exists_over_of_mem heq hl
    have hwritten := hliterals m (hms hm)
    rw [← hover]
    exact ⟨hwritten m.name List.mem_cons_self,
      fun v hv => hwritten v (WrittenLiteral.mem_of_const_mem_over hv).1⟩
  refine ⟨h.name ▸ hname, fun l hl => ?_, fun q hq v hv => ?_⟩
  · rcases Action.mem_literals.1 hl with hl | hl | hl
    · exact hset (fun m hm => List.mem_append_left _ (List.mem_filter.1 hm).1) h.preconditions l hl
    · exact hset (a.effectsWith_subset true) h.negative l hl
    · exact hset (a.effectsWith_subset false) h.positive l hl
  · have hmem : [q.1.resolve s.arena, q.2.resolve s.arena] ∈
        a.constraints.map fun l => (l.over cell).terms := h.distinct ▸ List.mem_map_of_mem hq
    obtain ⟨m, hm, hover⟩ := List.mem_map.1 hmem
    exact hliterals m (List.mem_append_left _ (List.mem_filter.1 hm).1) v
      (WrittenLiteral.mem_of_const_mem_over (hover ▸ hv)).1

/-! ### The names of a problem -/

namespace Problem

/-- What is read from a text is what its statements say. -/
theorem exists_accepted_of_parse {text : String} {p : Problem} (h : parse text = .ok p) :
    ∃ tokens ws ss, tokenize text = .ok tokens ∧
      tokens.map (·.lexeme) = ws.flatMap (·.lexemes) ∧
      WrittenStatement.Accepted false ws ss ∧ p.Lists ws := by
  rw [parse] at h
  split at h
  · cases h
  · rename_i tokens htokens
    obtain ⟨ws, ss, haccepted, hws, rfl⟩ := ofTokens_eq_ok_iff.1 h
    exact ⟨tokens, ws, ss, htokens, hws, haccepted, lists_foldl haccepted⟩

/-- The facts and goals of a problem are those of the statements. -/
theorem Lists.exists_of_mem {p : Problem} {ws : List WrittenStatement} (h : p.Lists ws) {f : Fact}
    (hf : f ∈ p.initial ++ p.goals) : ∃ b ∈ WrittenStatement.facts false ws, b.2 = f := by
  rw [h.initial, h.goals, List.mem_append, List.mem_eraseDups, List.mem_eraseDups] at hf
  rcases hf with hf | hf
  all_goals
    obtain ⟨b, hb, rfl⟩ := List.mem_map.1 hf
    exact ⟨b, (List.mem_filter.1 hb).1, rfl⟩

/-- All names of a problem have a property. -/
structure EachName (p : Problem) (P : String → Prop) : Prop where
  schemas : ∀ s ∈ p.schemas, s.EachName P
  facts : ∀ f ∈ p.initial ++ p.goals, ∀ x ∈ f.name :: f.arguments, P x

instance {P : String → Prop} [DecidablePred P] (p : Problem) : Decidable (p.EachName P) :=
  decidable_of_iff ((∀ s ∈ p.schemas, s.EachName P) ∧
      ∀ f ∈ p.initial ++ p.goals, ∀ x ∈ f.name :: f.arguments, P x)
    ⟨fun h => ⟨h.1, h.2⟩, fun h => ⟨h.schemas, h.facts⟩⟩

/-- **The names of a problem text are words.** -/
theorem isWord_of_parse {text : String} {p : Problem} (h : parse text = .ok p) :
    p.EachName fun x => IsWord x.toList := by
  obtain ⟨tokens, ws, _, htokens, hws, -, hlists⟩ := exists_accepted_of_parse h
  have hword : ∀ x, .identifier x ∈ ws.flatMap (·.lexemes) → IsWord x.toList :=
    fun x hx => isWord_of_tokenize htokens (hws ▸ hx)
  refine ⟨fun s hs => ?_, fun f hf x hx => hword x ?_⟩
  · obtain ⟨a, ha, cell, hsays⟩ := exists_of_mem_left hlists.schemas hs
    obtain ⟨w, hw, ha⟩ := List.mem_filterMap.1 ha
    obtain ⟨hname, hliterals⟩ := WrittenStatement.identifier_mem_of_action ha
    exact hsays.eachName (hword _ (List.mem_flatMap.2 ⟨w, hw, hname⟩))
      fun l hl x hx => hword x (List.mem_flatMap.2 ⟨w, hw, hliterals l hl x hx⟩)
  · obtain ⟨b, hb, rfl⟩ := hlists.exists_of_mem hf
    exact WrittenStatement.identifier_mem_of_fact hb x hx

end Problem

/-! ### Exported names -/

namespace Text

theorem notMem_marks_of_toNat {c : Char} (h : c.toNat = 0 ∨ 64 ≤ c.toNat) :
    c ∉ '?' :: Pddl.marks := by
  have hmarks : ∀ m ∈ '?' :: Pddl.marks, 0 < m.toNat ∧ m.toNat < 64 := by simp [Pddl.marks]
  intro hc
  have hrange := hmarks c hc
  omega

/-- A number that is no code point stands for the null character. -/
theorem toNat_ofNat (n : Nat) : (Char.ofNat n).toNat = n ∨ (Char.ofNat n).toNat = 0 := by
  by_cases hn : n.isValidChar
  · refine .inl ?_
    rw [Char.ofNat, dif_pos hn]
    rfl
  · refine .inr ?_
    rw [Char.ofNat, dif_neg hn]
    rfl

/-- The images of the table are beyond all marks. -/
theorem notMem_marks_of_mapRuns? {d c : Char} (h : mapRuns? Table.toLower d = some c) :
    c ∉ '?' :: Pddl.marks := by
  have himages : ∀ r ∈ Table.toLower, 64 ≤ r.2.2.2 := by decide +kernel
  obtain ⟨⟨first, last, stride, image⟩, hr, rfl⟩ := Option.map_eq_some_iff.1 h
  have himage : 64 ≤ image := himages _ (List.mem_of_find?_eq_some hr)
  refine notMem_marks_of_toNat ?_
  rcases toNat_ofNat (image + (d.toNat - first)) with h | h
  · exact .inr (by dsimp only; omega)
  · exact .inl h

/-- No character of a word becomes a mark in lower case. -/
theorem notMem_marks_lowerChar {d : Char} (hd : Lexer.isIdentifierChar d = true) {c : Char}
    (hc : c ∈ lowerChar d) : c ∉ '?' :: Pddl.marks := by
  rw [lowerChar] at hc
  split at hc
  · rename_i hascii
    have hall : ∀ n : Fin 128, Lexer.isIdentifierChar (Char.ofNat n) = true →
        (Char.ofNat n).toLower ∉ '?' :: Pddl.marks := by decide
    have hchar := hall ⟨d.toNat, hascii⟩
    rw [Char.ofNat_toNat] at hchar
    exact List.mem_singleton.1 hc ▸ hchar hd
  · rename_i hascii
    split at hc
    · have hdotted : ∀ e ∈ ['i', Char.ofNat 0x307], e ∉ '?' :: Pddl.marks := by simp [Pddl.marks]
      exact hdotted c hc
    · rw [List.mem_singleton.1 hc]
      cases himage : mapRuns? Table.toLower d with
      | some e => exact notMem_marks_of_mapRuns? himage
      | none => exact notMem_marks_of_toNat (.inr (by rw [Option.getD_none]; omega))

/-- The characters of a text in lower case come from its characters, or are a sigma. -/
theorem exists_of_mem_lowerChars {c : Char} : ∀ {text : List Char} {inWord : Bool},
    c ∈ lowerChars inWord text → c ∉ '?' :: Pddl.marks ∨ ∃ d ∈ text, c ∈ lowerChar d
  | [], _, h => absurd h List.not_mem_nil
  | d :: text, inWord, h => by
    rw [lowerChars, List.mem_append] at h
    rcases h with h | h
    · split at h
      · refine .inl ?_
        rw [List.mem_singleton.1 h]
        split <;> decide
      · exact .inr ⟨d, List.mem_cons_self, h⟩
    · rcases exists_of_mem_lowerChars h with h | ⟨e, he, h⟩
      · exact .inl h
      · exact .inr ⟨e, List.mem_cons_of_mem d he, h⟩

end Text

/-- **An exported word is plain.** -/
theorem Pddl.plain_exportName {x : String} (h : IsWord x.toList) : Plain (exportName x) := by
  have hlower : ∀ c ∈ (Text.lower x).toList, c ∉ '?' :: marks := by
    intro c hc
    rw [Text.lower, String.toList_ofList] at hc
    rcases Text.exists_of_mem_lowerChars hc with hc | ⟨d, hd, hc⟩
    · exact hc
    · exact Text.notMem_marks_lowerChar (h.isIdentifierChar hd) hc
  have hall : ∀ c ∈ (exportName x).toList, c ∉ '?' :: marks := by
    intro c hc
    rw [exportName] at hc
    split at hc
    · exact hlower c hc
    · rw [String.toList_append, List.mem_append] at hc
      rcases hc with hc | hc
      · rw [List.mem_singleton.1 hc]
        decide
      · exact hlower c hc
  exact ⟨fun c hc hmark => hall c hc (List.mem_cons_of_mem _ hmark),
    fun hc => hall _ hc List.mem_cons_self⟩

end Strips
