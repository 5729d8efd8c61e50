import Strips.Statement

/-!
# Reading statements

Statements are read by recursive descent from a `Cursor` on a list of tokens. A reader takes the
cursor along on success and on failure, so that reading can go on after an error: `next` has then
taken the offending token, `peek` has not.

A statement that starts with `goal` is a goal. One that starts with `goals` is a goal, and so are
the facts after it up to the next action.

## Main definitions

* `Cursor` and `Reading` – where a reader stands, and what it does.
* `Cursor.nextStatement` – the next statement.
-/

namespace Strips

/-- Where a reader stands in a list of tokens. -/
structure Cursor where
  /-- The tokens not taken yet. -/
  rest : List Token
  /-- How many were taken. -/
  taken : Nat := 0
  /-- Whether facts are goals. -/
  goalMode : Bool := false
  /-- The place of the last token of the text. -/
  last : Option Position := none
  deriving DecidableEq, Repr

/-- The cursor before the first token. -/
def Cursor.ofTokens (tokens : List Token) : Cursor :=
  { rest := tokens, last := tokens.getLast?.map Token.position }

/-- A reader: a result or an error, and the cursor after it. -/
abbrev Reading (α : Type) : Type := ExceptT SyntaxError (StateM Cursor) α

namespace Reading

/-- The error at the end of the input. -/
def endOfInput {α : Type} : Reading α := do throw (.endOfInput (← get).last)

/-- Refuse a token. -/
def unexpected {α : Type} (token : Token) (expected : Expectation) : Reading α :=
  throw (.unexpected token expected)

/-- The next token, left where it is. -/
def peek : Reading (Option Token) := do return (← get).rest.head?

/-- Take the next token. -/
def next : Reading Token := do
  let cursor ← get
  match cursor.rest with
  | [] => throw (.endOfInput cursor.last)
  | token :: rest =>
    set { cursor with rest, taken := cursor.taken + 1 }
    return token

/-- Say whether the facts that follow are goals. -/
def setGoalMode (goalMode : Bool) : Reading Unit := modify ({ · with goalMode })

/-- Take the next token, which has to be a given mark. -/
def mark (lexeme : Lexeme) (expected : Expectation) : Reading Unit := do
  let token ← next
  if token.lexeme = lexeme then return () else unexpected token expected

/-- Take the next token, which has to be an identifier. -/
def identifier (expected : Expectation) : Reading (Token × String) := do
  let token ← next
  match token.lexeme with
  | .identifier text => return (token, text)
  | _ => unexpected token expected

end Reading

/-- The variables of a statement, and the arena of its cells. -/
structure Vocabulary where
  known : List (String × Nat) := []
  arena : Arena := {}
  deriving Repr

/-- The term of an argument. Each variable has one cell and each occurrence of a constant one of
its own; a variable starts with an upper-case character. -/
def Vocabulary.term (v : Vocabulary) (text : String) : Term × Vocabulary :=
  if (text.toList.head?.map Text.isUpper).getD false then
    match v.known.lookup text with
    | some i => (.cell i, v)
    | none =>
      let (i, arena) := v.arena.newCell
      (.cell i, { known := v.known ++ [(text, i)], arena })
  else
    let (i, arena) := v.arena.newCell (some text)
    (.cell i, { v with arena })

namespace Reading

/-- The arguments after an opening parenthesis, up to the closing one. -/
def arguments : Nat → List Term → Vocabulary → Reading (List Term × Vocabulary)
  | 0, _, _ => endOfInput
  | fuel + 1, terms, v => do
    let token ← next
    if token.lexeme = .rightParen then return (terms, v)
    let token ←
      if terms.isEmpty then pure token
      else if token.lexeme = .comma then next
      else unexpected token .argumentEnd
    match token.lexeme with
    | .identifier text =>
      let (t, v) := v.term text
      arguments fuel (terms ++ [t]) v
    | _ => unexpected token .argument

/-- The rest of a literal after its name: arguments, if there is an opening parenthesis. -/
def literal (name : String) (v : Vocabulary) : Reading (Literal × Vocabulary) := do
  match (← peek) with
  | some ⟨.leftParen, _⟩ =>
    let _ ← next
    let (terms, v) ← arguments ((← get).rest.length + 1) [] v
    return (⟨name, terms⟩, v)
  | _ => return (⟨name, []⟩, v)

/-- An effect after its first word: whether it is denied, and the literal. -/
def effect (name : String) (v : Vocabulary) : Reading ((Bool × Literal) × Vocabulary) := do
  if name = "not" then
    let (_, name) ← identifier .nameAfterNot
    let (l, v) ← literal name v
    return ((true, l), v)
  else
    let (l, v) ← literal name v
    return ((false, l), v)

/-- A list of items parted by commas, up to the mark that ends it. Each item starts with an
identifier, and `item` reads the rest of it. -/
def listUntil {β : Type} (terminator : Lexeme)
    (item : String → Vocabulary → Reading (β × Vocabulary)) :
    Nat → List β → Vocabulary → Reading (List β × Vocabulary)
  | 0, _, _ => endOfInput
  | fuel + 1, items, v => do
    let token ← next
    if token.lexeme = terminator then return (items, v)
    let token ←
      if items.isEmpty then pure token
      else if token.lexeme = .comma then next
      else unexpected token (.literalEnd terminator)
    match token.lexeme with
    | .identifier name =>
      let (x, v) ← item name v
      listUntil terminator item fuel (items ++ [x]) v
    | _ => unexpected token .literal

/-- The rest of an action after its name. -/
def schema (name : String) (position : Position) : Reading Schema := do
  mark .quadDot .quadDot
  let fuel := (← get).rest.length + 1
  let (preconditions, v) ← listUntil .arrow literal fuel [] {}
  let (effects, v) ← listUntil .dot effect fuel [] v
  let negative := (effects.filter (·.1)).map Prod.snd
  let positive := (effects.filter (!·.1)).map Prod.snd
  match Action.build v.arena name preconditions negative positive with
  | (.ok action, arena) => return ⟨action, arena⟩
  | (.error e, _) => throw (.schema e position)

/-- The rest of a fact after its name. -/
def fact (name : String) (position : Position) : Reading Fact := do
  let (l, v) ← literal name {}
  mark .dot .dot
  match l.fact? v.arena with
  | some f => return f
  | none => throw (.openFact name position)

/-- The next statement, or `none` at the end of the input. -/
def statement : Reading (Option Statement) := do
  let some first ← peek | return none
  let mut isGoal := (← get).goalMode
  if first.isWord "goal" then
    let _ ← next
    isGoal := true
  else if first.isWord "goals" then
    let _ ← next
    setGoalMode true
    isGoal := true
  let (token, name) ← identifier .name
  let some following ← peek | endOfInput
  match following.lexeme with
  | .quadDot =>
    if isGoal && !(← get).goalMode then unexpected following .factAfterGoal
    setGoalMode false
    return some (.schema (← schema name token.position))
  | .dot | .leftParen =>
    let f ← fact name token.position
    return some (if isGoal then .goal f else .fact f)
  | _ => unexpected following .afterName

end Reading

/-- Read the next statement; `none` at the end of the input. The cursor goes on from where the
reader stopped, also after an error. -/
def Cursor.nextStatement (cursor : Cursor) : Except SyntaxError (Option Statement) × Cursor :=
  Reading.statement.run.run cursor

end Strips
