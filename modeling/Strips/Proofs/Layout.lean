import Mathlib.Data.List.TakeWhile
import Strips.Proofs.Names

/-!
# How tokens lie in a text

Reading a text as tokens loses nothing. The text consists of the tokens, as they are spelled, and of
the gaps around them. A gap is white space and comments, and a comment takes the rest of its line.
An identifier takes all that could belong to it, so that no character of an identifier stands next
to it. A token is placed by what stands before it.

Reading stops only where nothing starts: neither white space, nor a comment, nor a token. That is
the end of the text, or the character that the error names. So a text lies in one way, and this way
is found by going through the text once: what stands at the front is a gap, then a token, and what
follows is laid out by induction on its length.

## Main definitions

* `Position.ending` – the place after a text.
* `IsGap`, `Lexeme.Fits` – what may stand between tokens, and where a token may stand.
* `Laid` – tokens with the gaps around them.
* `StartsNothing` – where reading stops.

## Main results

* `Lexer.scan_laid` – laid tokens are read.
* `exists_laid` – every text is laid out up to a place where nothing starts.
* `tokenize_lossless` – what is read from a text, and where it is not read.
-/

namespace Strips

/-! ### Places -/

namespace Position

/-- The place after a text. There is a line for every line feed, and after the last one a column for
every character. -/
def ending (text : List Char) : Position :=
  ⟨1 + text.count '\n', 1 + (text.reverse.takeWhile (· != '\n')).length⟩

theorem ending_concat (text : List Char) (c : Char) :
    ending (text ++ [c]) = (ending text).after c := by
  rw [after]
  split
  · rename_i hc
    simp [ending, hc, Nat.add_assoc]
  · rename_i hc
    simp [ending, hc, Nat.add_assoc]

/-- Going on from the place after a text. -/
theorem afterText_ending (text : List Char) : ∀ before : List Char,
    (ending before).afterText text = ending (before ++ text) := by
  induction text with
  | nil =>
    intro before
    rw [afterText_nil, List.append_nil]
  | cons c rest ih =>
    intro before
    rw [afterText_cons, ← ending_concat, ih, List.append_assoc, List.singleton_append]

end Position

/-! ### Layouts -/

/-- White space and comments before a text. A comment takes the rest of its line, so there comes a
line feed after it, or nothing at all. -/
inductive IsGap (after : List Char) : List Char → Prop
  | nil : IsGap after []
  | space {c : Char} {gap : List Char} :
      Text.isSpace c = true → IsGap after gap → IsGap after (c :: gap)
  | comment {body gap : List Char} : '\n' ∉ body → (∀ c ∈ (gap ++ after).head?, c = '\n') →
      IsGap after gap → IsGap after ('%' :: (body ++ gap))

/-- A lexeme as it can stand in a text: a mark, or an identifier that is a word. -/
def Lexeme.Proper (l : Lexeme) : Prop := ∀ x, l = .identifier x → IsWord x.toList

/-- A lexeme may stand between two texts. No character that could belong to an identifier stands
next to it. -/
structure Lexeme.Fits (l : Lexeme) (before after : List Char) : Prop where
  proper : l.Proper
  left : ∀ x, l = .identifier x → ∀ c ∈ before.getLast?, Lexer.isIdentifierChar c = false
  right : ∀ x, l = .identifier x → ∀ c ∈ after.head?, Lexer.isIdentifierChar c = false

/-- What the token takes of a text. -/
def Token.slice (t : Token) : List Char := t.lexeme.spelling.toList

/-- Tokens, each at its place and with a gap before it, and a last gap. They make up a text that
stands between `before` and `after`. -/
inductive Laid (after : List Char) : List Char → List Token → List Char → Prop
  | nil {before gap : List Char} : IsGap after gap → Laid after before [] gap
  | cons {before gap rest : List Char} {t : Token} {tokens : List Token} :
      IsGap (t.slice ++ (rest ++ after)) gap → t.position = .ending (before ++ gap) →
      t.lexeme.Fits (before ++ gap) (rest ++ after) →
      Laid after (before ++ (gap ++ t.slice)) tokens rest →
      Laid after before (t :: tokens) (gap ++ (t.slice ++ rest))

/-- A text that starts with none of the things that texts are made of. -/
structure StartsNothing (text : List Char) : Prop where
  space : ∀ c ∈ text.head?, Text.isSpace c = false
  comment : ∀ c ∈ text.head?, c ≠ '%'
  token : ∀ l : Lexeme, l.Proper → ¬l.spelling.toList <+: text

/-- The error names the first character of a text with which nothing starts: before it there are
tokens and gaps. -/
def LexError.Stops (e : LexError) (text : List Char) : Prop :=
  ∃ done after tokens, text = done ++ e.character :: after ∧ e.position = .ending done ∧
    Laid (e.character :: after) [] tokens done ∧ StartsNothing (e.character :: after)

/-! ### Classes of characters -/

namespace Text

/-- A code point in some ranges is in no others that lie apart from them. -/
theorem inRanges_eq_false_of_apart {rs ss : List (Nat × Nat)}
    (hapart : ∀ r ∈ rs, ∀ s ∈ ss, r.2 < s.1 ∨ s.2 < r.1) {c : Char} (hc : inRanges rs c = true) :
    inRanges ss c = false := by
  rw [inRanges, List.any_eq_true] at hc
  obtain ⟨r, hr, hcr⟩ := hc
  rw [Bool.and_eq_true, decide_eq_true_iff, decide_eq_true_iff] at hcr
  rw [inRanges, List.any_eq_false]
  intro s hs hcs
  rw [Bool.and_eq_true, decide_eq_true_iff, decide_eq_true_iff] at hcs
  rcases hapart r hr s hs with h | h <;> omega

/-- White space is in no identifier. -/
theorem isIdentifierChar_of_isSpace {c : Char} (hc : isSpace c = true) :
    Lexer.isIdentifierChar c = false := by
  by_cases hascii : c.toNat < 128
  · have hall : ∀ n : Fin 128, isSpace (Char.ofNat n) = true →
        Lexer.isIdentifierChar (Char.ofNat n) = false := by decide
    have hchar := hall ⟨c.toNat, hascii⟩
    rw [Char.ofNat_toNat] at hchar
    exact hchar hc
  · have hapart : inRanges Table.alphanumeric c = false :=
      inRanges_eq_false_of_apart (by decide +kernel) hc
    have hne : ∀ d : Char, d.toNat < 128 → c ≠ d := by
      rintro d hd rfl
      exact hascii hd
    have hhyphen := hne '-' (by decide)
    have hline := hne '_' (by decide)
    simp [Lexer.isIdentifierChar, isAlphanumeric, hascii, hapart, hhyphen, hline]

end Text

/-! ### Reading what is laid out -/

namespace Lexer

/-- Nothing is complete yet. -/
theorem map_nil_append (r : Except LexError (List Token)) : r.map ([] ++ ·) = r := by
  cases r <;> rfl

theorem scan_cons_of_step {mode next : Mode} {p : Position} {c : Char} {tokens : List Token}
    (h : step mode p c = .ok (next, tokens)) (rest : List Char) :
    scan mode p (c :: rest) = (scan next (p.after c) rest).map (tokens ++ ·) := by
  rw [scan, h]

theorem scan_space {c : Char} (hc : Text.isSpace c = true) (p : Position) (rest : List Char) :
    scan .gap p (c :: rest) = scan .gap (p.after c) rest := by
  have hstep : step .gap p c = .ok (.gap, []) := if_pos hc
  rw [scan_cons_of_step hstep, map_nil_append]

/-- A comment is left where its line ends. -/
theorem scan_comment {rest : List Char} (hrest : ∀ c ∈ rest.head?, c = '\n') :
    ∀ {body : List Char}, '\n' ∉ body → ∀ p : Position,
      scan .comment p (body ++ rest) = scan .gap (p.afterText body) rest
  | [], _, p => by
    cases rest with
    | nil => rfl
    | cons c rest =>
      obtain rfl : c = '\n' := hrest c rfl
      have hstep : step .comment p '\n' = .ok (.gap, []) := rfl
      rw [List.nil_append, Position.afterText_nil, scan_space (by decide), scan_cons_of_step hstep,
        map_nil_append]
  | c :: body, hbody, p => by
    obtain ⟨hc, hbody⟩ := not_or.1 (mt List.mem_cons.2 hbody)
    have hstep : step .comment p c = .ok (.comment, []) := by
      rw [step, if_neg (Ne.symm hc)]
    rw [List.cons_append, scan_cons_of_step hstep, map_nil_append, scan_comment hrest hbody,
      Position.afterText_cons]

/-- **A gap** is passed over. -/
theorem scan_gap {after gap : List Char} (h : IsGap after gap) : ∀ p : Position,
    scan .gap p (gap ++ after) = scan .gap (p.afterText gap) after := by
  induction h with
  | nil => exact fun p => rfl
  | space hc _ ih =>
    intro p
    rw [List.cons_append, scan_space hc, ih, Position.afterText_cons]
  | comment hbody hhead _ ih =>
    intro p
    have hstep : step .gap p '%' = .ok (.comment, []) := rfl
    rw [List.cons_append, List.append_assoc, scan_cons_of_step hstep, map_nil_append,
      scan_comment hhead hbody, ih, Position.afterText_cons, Position.afterText_append]

/-- A word is complete where no character follows that could belong to it. -/
theorem scan_word {after : List Char} (hafter : ∀ c ∈ after.head?, isIdentifierChar c = false)
    (start : Position) : ∀ {text : List Char}, (∀ c ∈ text, isIdentifierChar c = true) →
      ∀ (read : List Char) (p : Position), scan (.word start read) p (text ++ after) =
        (scan .gap (p.afterText text) after).map (wordToken start (text.reverse ++ read) :: ·)
  | [], _, read, p => by
    cases after with
    | nil => rfl
    | cons c after =>
      have hstep : step (.word start read) p c =
          (stepGap p c).map fun r => (r.1, wordToken start read :: r.2) :=
        if_neg (Bool.eq_false_iff.1 (hafter c rfl))
      rw [List.nil_append, Position.afterText_nil, scan, scan, hstep, step]
      rcases stepGap p c with e | ⟨mode, tokens⟩
      · rfl
      · dsimp only [Except.map]
        cases scan mode (p.after c) after <;> rfl
  | c :: text, htext, read, p => by
    obtain ⟨hc, htext⟩ := List.forall_mem_cons.1 htext
    have hstep : step (.word start read) p c = .ok (.word start (c :: read), []) := if_pos hc
    rw [List.cons_append, scan_cons_of_step hstep, map_nil_append, scan_word hafter start htext,
      Position.afterText_cons, List.reverse_cons, List.append_assoc, List.singleton_append]

/-- The first character of a word starts no gap and no mark. -/
theorem stepGap_of_isAlphanumeric {c : Char} (hc : Text.isAlphanumeric c = true) (p : Position) :
    stepGap p c = .ok (.word p [c], []) := by
  have hspace : Text.isSpace c = false := by
    rw [Bool.eq_false_iff]
    intro hspace
    have hno := Text.isIdentifierChar_of_isSpace hspace
    rw [isIdentifierChar, hc] at hno
    cases hno
  have hne : ∀ d : Char, Text.isAlphanumeric d = false → c ≠ d := by
    rintro d hd rfl
    rw [hc] at hd
    cases hd
  rw [stepGap, if_neg (by rw [hspace]; exact Bool.false_ne_true), if_neg (hne _ (by decide)),
    if_neg (hne _ (by decide)), if_neg (hne _ (by decide)), if_neg (hne _ (by decide)),
    if_neg (hne _ (by decide)), if_neg (hne _ (by decide)), if_neg (hne _ (by decide)), if_pos hc]

/-- **A token** is read where it may stand. -/
theorem scan_token {l : Lexeme} {before after : List Char} (h : l.Fits before after)
    (p : Position) : scan .gap p (l.spelling.toList ++ after) =
      (scan .gap (p.afterText l.spelling.toList) after).map (⟨l, p⟩ :: ·) := by
  cases l with
  | identifier x =>
    obtain ⟨c, rest, hx, hc, hrest⟩ := h.proper x rfl
    have hstep : step .gap p c = .ok (.word p [c], []) := stepGap_of_isAlphanumeric hc p
    have hword : wordToken p (rest.reverse ++ [c]) = ⟨.identifier x, p⟩ := by
      rw [wordToken, List.reverse_append, List.reverse_reverse, List.reverse_singleton,
        List.singleton_append, ← hx, String.ofList_toList]
    rw [Lexeme.spelling, hx, List.cons_append, scan_cons_of_step hstep, map_nil_append,
      scan_word (h.right x rfl) p hrest, hword, Position.afterText_cons]
  | leftParen =>
    have hstep : step .gap p '(' = .ok (.gap, [⟨.leftParen, p⟩]) := rfl
    exact scan_cons_of_step hstep after
  | rightParen =>
    have hstep : step .gap p ')' = .ok (.gap, [⟨.rightParen, p⟩]) := rfl
    exact scan_cons_of_step hstep after
  | comma =>
    have hstep : step .gap p ',' = .ok (.gap, [⟨.comma, p⟩]) := rfl
    exact scan_cons_of_step hstep after
  | dot =>
    have hstep : step .gap p '.' = .ok (.gap, [⟨.dot, p⟩]) := rfl
    exact scan_cons_of_step hstep after
  | quadDot =>
    have hfirst : step .gap p ':' = .ok (.colon p, []) := rfl
    have hsecond : step (.colon p) (p.after ':') ':' = .ok (.gap, [⟨.quadDot, p⟩]) := rfl
    refine (scan_cons_of_step hfirst _).trans ((map_nil_append _).trans ?_)
    exact scan_cons_of_step hsecond after
  | arrow =>
    have hfirst : step .gap p '=' = .ok (.equals p, []) := rfl
    have hsecond : step (.equals p) (p.after '=') '>' = .ok (.gap, [⟨.arrow, p⟩]) := rfl
    refine (scan_cons_of_step hfirst _).trans ((map_nil_append _).trans ?_)
    exact scan_cons_of_step hsecond after

/-- **Laid tokens** are read. -/
theorem scan_laid {after before text : List Char} {tokens : List Token}
    (h : Laid after before tokens text) :
    scan .gap (.ending before) (text ++ after) =
      (scan .gap (.ending (before ++ text)) after).map (tokens ++ ·) := by
  induction h with
  | nil hgap => rw [scan_gap hgap, Position.afterText_ending, map_nil_append]
  | @cons before gap rest t tokens hgap hplace hfits _ ih =>
    have htoken : (⟨t.lexeme, .ending (before ++ gap)⟩ : Token) = t := by rw [← hplace]
    have htext : gap ++ (t.slice ++ rest) ++ after = gap ++ (t.slice ++ (rest ++ after)) := by simp
    have hall : before ++ (gap ++ t.slice) ++ rest = before ++ (gap ++ (t.slice ++ rest)) := by simp
    rw [htext, scan_gap hgap, Position.afterText_ending, Token.slice, scan_token hfits,
      Position.afterText_ending, htoken, List.append_assoc, ← Token.slice, ih, hall]
    cases scan .gap (.ending (before ++ (gap ++ (t.slice ++ rest)))) after <;> rfl

/-- Where nothing starts, **reading stops**. -/
theorem scan_cons_of_startsNothing {c : Char} {after : List Char}
    (h : StartsNothing (c :: after)) (p : Position) : scan .gap p (c :: after) = .error ⟨c, p⟩ := by
  have hmark : ∀ l : Lexeme, l.text? = none → ¬l.spelling.toList <+: c :: after := by
    intro l hl
    refine h.token l ?_
    rintro x rfl
    cases hl
  have hsingle : ∀ l : Lexeme, l.text? = none → ∀ d : Char, l.spelling.toList = [d] → c ≠ d := by
    rintro l hl d hd rfl
    exact hmark l hl (hd ▸ ⟨after, rfl⟩)
  have hspace := h.space c rfl
  have halpha : Text.isAlphanumeric c = false := by
    rw [Bool.eq_false_iff]
    intro hc
    have hword : IsWord [c] := ⟨c, [], rfl, hc, fun d hd => absurd hd List.not_mem_nil⟩
    refine h.token (.identifier (.ofList [c])) (fun x hx => ?_) ⟨after, ?_⟩
    · rwa [← Lexeme.identifier.inj hx, String.toList_ofList]
    · rw [Lexeme.spelling, String.toList_ofList, List.singleton_append]
  rw [scan, step, stepGap, if_neg (Bool.eq_false_iff.1 hspace), if_neg (h.comment c rfl),
    if_neg (hsingle .leftParen rfl '(' rfl), if_neg (hsingle .rightParen rfl ')' rfl),
    if_neg (hsingle .comma rfl ',' rfl), if_neg (hsingle .dot rfl '.' rfl)]
  split_ifs with hcolon hequals hword
  · subst hcolon
    cases after with
    | nil => rfl
    | cons d after =>
      have hd : d ≠ ':' := by
        rintro rfl
        exact hmark .quadDot rfl ⟨after, rfl⟩
      have hstep : step (.colon p) (p.after ':') d = .error ⟨':', p⟩ := if_neg hd
      dsimp only
      rw [scan, hstep]
      rfl
  · subst hequals
    cases after with
    | nil => rfl
    | cons d after =>
      have hd : d ≠ '>' := by
        rintro rfl
        exact hmark .arrow rfl ⟨after, rfl⟩
      have hstep : step (.equals p) (p.after '=') d = .error ⟨'=', p⟩ := if_neg hd
      dsimp only
      rw [scan, hstep]
      rfl
  · rw [halpha] at hword
    cases hword
  · rfl

end Lexer

/-! ### Every text is laid out -/

theorem IsGap.isSpace_getLast {after gap : List Char} (h : IsGap after gap)
    (hafter : ∃ c ∈ after.head?, c ≠ '\n') : ∀ d ∈ gap.getLast?, Text.isSpace d = true := by
  induction h with
  | nil => exact nofun
  | @space c gap hc _ ih =>
    intro d hd
    cases gap with
    | nil => exact Option.some.inj hd ▸ hc
    | cons e gap => exact ih d (by rwa [List.getLast?_cons_cons] at hd)
  | @comment body gap _ hhead _ ih =>
    intro d hd
    cases gap with
    | nil =>
      obtain ⟨c, hc, hne⟩ := hafter
      exact absurd (hhead c hc) hne
    | cons e gap =>
      refine ih d ?_
      rwa [← List.cons_append, List.getLast?_append_of_ne_nil _ (List.cons_ne_nil e gap)] at hd

/-- At the front of a text there is a gap, which may be empty, before something else. -/
theorem exists_gap : ∀ text : List Char, ∃ gap rest, text = gap ++ rest ∧ IsGap rest gap ∧
    (∀ c ∈ rest.head?, Text.isSpace c = false) ∧ ∀ c ∈ rest.head?, c ≠ '%'
  | [] => ⟨[], [], rfl, .nil, nofun, nofun⟩
  | c :: text => by
    by_cases hspace : Text.isSpace c = true
    · obtain ⟨gap, rest, rfl, hgap, hrest⟩ := exists_gap text
      exact ⟨c :: gap, rest, rfl, .space hspace hgap, hrest⟩
    by_cases hcomment : c = '%'
    · subst hcomment
      -- the comment ends before the first line feed
      obtain ⟨gap, rest, htail, hgap, hrest⟩ := exists_gap (text.dropWhile (· != '\n'))
      refine ⟨'%' :: (text.takeWhile (· != '\n') ++ gap), rest, ?_, .comment ?_ ?_ hgap, hrest⟩
      · rw [List.cons_append, List.append_assoc, ← htail, List.takeWhile_append_dropWhile]
      · intro hmem
        simpa using List.mem_takeWhile_imp hmem
      · rw [← htail]
        intro d hd
        have hnot := List.head?_dropWhile_not (· != '\n') text
        rw [Option.mem_def.1 hd] at hnot
        simpa using hnot
    · refine ⟨[], c :: text, rfl, .nil, ?_, ?_⟩
      · rintro d ⟨⟩
        exact Bool.eq_false_iff.2 hspace
      · rintro d ⟨⟩
        exact hcomment
termination_by text => text.length
decreasing_by
  · exact Nat.lt_succ_self _
  · exact Nat.lt_succ_of_le (List.dropWhile_sublist _).length_le

/-- No identifier goes on from one text to the next. -/
def Parted (before after : List Char) : Prop :=
  ∀ c ∈ after.head?, Lexer.isIdentifierChar c = true →
    ∀ d ∈ before.getLast?, Lexer.isIdentifierChar d = false

theorem Parted.of_append_getLast {before last after : List Char} (hlast : last ≠ [])
    (h : ∀ d ∈ last.getLast?, Lexer.isIdentifierChar d = false) :
    Parted (before ++ last) after := by
  intro c _ _ d hd
  rw [List.getLast?_append_of_ne_nil _ hlast] at hd
  exact h d hd

/-- A gap parts what comes before it from what comes after it. -/
theorem IsGap.parted {before gap rest : List Char} (h : IsGap rest gap)
    (hrest : ∀ c ∈ rest.head?, Text.isSpace c = false) (hparted : Parted before (gap ++ rest)) :
    Parted (before ++ gap) rest := by
  by_cases hgap : gap = []
  · subst hgap
    rwa [List.append_nil]
  · intro c hc hchar
    have hfeed : c ≠ '\n' := by
      rintro rfl
      exact absurd (hrest _ hc) (by decide)
    exact Parted.of_append_getLast hgap
      (fun d hd => Text.isIdentifierChar_of_isSpace (h.isSpace_getLast ⟨c, hc, hfeed⟩ d hd)) c hc
      hchar

namespace Lexeme

/-- A mark is no identifier, so nothing is asked of its neighbours. -/
theorem fits_of_mark {l : Lexeme} (hl : ∀ x, l ≠ .identifier x) (before after : List Char) :
    l.Fits before after :=
  ⟨fun x hx => absurd hx (hl x), fun x hx => absurd hx (hl x), fun x hx => absurd hx (hl x)⟩

theorem isIdentifierChar_getLast_of_mark : ∀ {l : Lexeme}, (∀ x, l ≠ .identifier x) →
    ∀ d ∈ l.spelling.toList.getLast?, Lexer.isIdentifierChar d = false
  | .identifier x, hl => absurd rfl (hl x)
  | .leftParen, _ | .rightParen, _ | .comma, _ | .dot, _ | .quadDot, _ | .arrow, _ => by
    rintro d ⟨⟩
    decide

theorem Proper.spelling_ne_nil : ∀ {l : Lexeme}, l.Proper → l.spelling.toList ≠ []
  | .identifier x, h => by
    obtain ⟨c, rest, hx, -⟩ := h x rfl
    rw [spelling, hx]
    exact List.cons_ne_nil c rest
  | .leftParen, _ | .rightParen, _ | .comma, _ | .dot, _ | .quadDot, _ | .arrow, _ => by decide

/-- If some token starts a text, then one does that may stand there: the whole word of an
identifier. -/
theorem Proper.exists_fits {l : Lexeme} (h : l.Proper) {text : List Char}
    (hfront : l.spelling.toList <+: text) : ∃ (m : Lexeme) (rest : List Char),
      text = m.spelling.toList ++ rest ∧ m.Proper ∧ ∀ before, Parted before text →
        m.Fits before rest ∧ Parted (before ++ m.spelling.toList) rest := by
  by_cases hl : ∃ x, l = .identifier x
  · obtain ⟨x, rfl⟩ := hl
    obtain ⟨c, cs, hx, hc, -⟩ := h x rfl
    obtain ⟨more, rfl⟩ := hfront
    rw [spelling, hx, List.cons_append]
    generalize cs ++ more = tail
    have hword : IsWord (c :: tail.takeWhile Lexer.isIdentifierChar) :=
      ⟨c, _, rfl, hc, fun d hd => List.mem_takeWhile_imp hd⟩
    have hend : ∀ d ∈ (tail.dropWhile Lexer.isIdentifierChar).head?,
        Lexer.isIdentifierChar d = false := by
      intro d hd
      have hnot := List.head?_dropWhile_not Lexer.isIdentifierChar tail
      rwa [Option.mem_def.1 hd] at hnot
    have hproper : (identifier (.ofList (c :: tail.takeWhile Lexer.isIdentifierChar))).Proper := by
      intro y hy
      rwa [← Lexeme.identifier.inj hy, String.toList_ofList]
    refine ⟨_, tail.dropWhile Lexer.isIdentifierChar, ?_, hproper, fun before hparted =>
      ⟨⟨hproper, fun _ _ => ?_, fun _ _ => hend⟩, fun d hd hchar => ?_⟩⟩
    · rw [spelling, String.toList_ofList, List.cons_append, List.takeWhile_append_dropWhile]
    · exact hparted c rfl (hword.isIdentifierChar List.mem_cons_self)
    · rw [hend d hd] at hchar
      cases hchar
  · have hmark : ∀ x, l ≠ .identifier x := fun x hx => hl ⟨x, hx⟩
    obtain ⟨rest, rfl⟩ := hfront
    exact ⟨l, rest, rfl, h, fun before _ => ⟨fits_of_mark hmark before rest,
      .of_append_getLast h.spelling_ne_nil (isIdentifierChar_getLast_of_mark hmark)⟩⟩

end Lexeme

/-- **Every text is laid out**, up to a place where nothing starts. -/
theorem exists_laid (before text : List Char) (hparted : Parted before text) :
    ∃ done after tokens, text = done ++ after ∧ Laid after before tokens done ∧
      StartsNothing after := by
  obtain ⟨gap, other, htext, hgap, hspace, hcomment⟩ := exists_gap text
  by_cases htoken : ∃ l : Lexeme, l.Proper ∧ l.spelling.toList <+: other
  · obtain ⟨l, hl, hfront⟩ := htoken
    obtain ⟨m, rest, hother, hm, hfits⟩ := hl.exists_fits hfront
    obtain ⟨hfits, hparted⟩ := hfits _ (hgap.parted hspace (htext ▸ hparted))
    rw [List.append_assoc] at hparted
    have hshorter : rest.length < text.length := by
      have hpos := List.length_pos_iff.2 hm.spelling_ne_nil
      rw [htext, hother, List.length_append, List.length_append]
      omega
    obtain ⟨done, after, tokens, rfl, hlaid, hnothing⟩ := exists_laid _ rest hparted
    rw [hother] at hgap
    refine ⟨gap ++ (m.spelling.toList ++ done), after, ⟨m, .ending (before ++ gap)⟩ :: tokens, ?_,
      .cons (t := ⟨m, .ending (before ++ gap)⟩) hgap rfl hfits hlaid, hnothing⟩
    rw [htext, hother, List.append_assoc, List.append_assoc]
  · exact ⟨gap, other, [], htext, .nil hgap, hspace, hcomment,
      fun l hl hfront => htoken ⟨l, hl, hfront⟩⟩
termination_by text.length
decreasing_by exact hshorter

/-! ### Texts -/

theorem tokenize_of_laid {text : String} {tokens : List Token}
    (h : Laid [] [] tokens text.toList) : tokenize text = .ok tokens := by
  have hstart : Position.start = .ending [] := rfl
  have hscan := Lexer.scan_laid h
  rw [List.append_nil] at hscan
  rw [tokenize, hstart, hscan, Lexer.scan]
  exact congrArg Except.ok (List.append_nil tokens)

theorem tokenize_of_stops {text : String} {e : LexError} (h : e.Stops text.toList) :
    tokenize text = .error e := by
  have hstart : Position.start = .ending [] := rfl
  obtain ⟨c, p⟩ := e
  obtain ⟨done, after, tokens, htext, rfl, hlaid, hnothing⟩ := h
  rw [tokenize, hstart, htext, Lexer.scan_laid hlaid, List.nil_append,
    Lexer.scan_cons_of_startsNothing hnothing]
  rfl

/-- A text is laid out to its end, or there is a character with which nothing starts. -/
theorem laid_or_stops (text : List Char) :
    (∃ tokens, Laid [] [] tokens text) ∨ ∃ e : LexError, e.Stops text := by
  obtain ⟨done, after, tokens, htext, hlaid, hnothing⟩ := exists_laid [] text nofun
  cases after with
  | nil =>
    rw [List.append_nil] at htext
    exact .inl ⟨tokens, htext ▸ hlaid⟩
  | cons c after =>
    exact .inr ⟨⟨c, .ending done⟩, done, after, tokens, htext, rfl, hlaid, hnothing⟩

theorem laid_of_tokenize {text : String} {tokens : List Token} (h : tokenize text = .ok tokens) :
    Laid [] [] tokens text.toList := by
  rcases laid_or_stops text.toList with ⟨others, hlaid⟩ | ⟨e, hstops⟩
  · cases h.symm.trans (tokenize_of_laid hlaid)
    exact hlaid
  · cases h.symm.trans (tokenize_of_stops hstops)

theorem stops_of_tokenize {text : String} {e : LexError} (h : tokenize text = .error e) :
    e.Stops text.toList := by
  rcases laid_or_stops text.toList with ⟨tokens, hlaid⟩ | ⟨e', hstops⟩
  · cases h.symm.trans (tokenize_of_laid hlaid)
  · cases h.symm.trans (tokenize_of_stops hstops)
    exact hstops

/-- **Reading tokens loses nothing.** A text is read as the tokens that lie in it with gaps around
them, and if reading stops, then at the first character with which nothing starts. -/
theorem tokenize_lossless (text : String) :
    (∀ tokens, tokenize text = .ok tokens ↔ Laid [] [] tokens text.toList) ∧
      ∀ e, tokenize text = .error e ↔ e.Stops text.toList :=
  ⟨fun _ => ⟨laid_of_tokenize, tokenize_of_laid⟩, fun _ => ⟨stops_of_tokenize, tokenize_of_stops⟩⟩

/-- A comment that the end of the text ends, and a word before an arrow. -/
example : tokenize "a-=>\n  b%)" =
    .ok [⟨.identifier "a-", ⟨1, 1⟩⟩, ⟨.arrow, ⟨1, 3⟩⟩, ⟨.identifier "b", ⟨2, 3⟩⟩] := by
  decide +kernel

end Strips
