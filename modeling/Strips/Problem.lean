import Strips.Statement.Parser
import Strips.Graph
import Strips.Plan

/-!
# Planning problems

A problem is what a whole text says: action schemas, initial facts and goals, in reading order, with
equal facts kept once.

## Main definitions

* `Problem.parse` – the problem of a text.
* `Problem.ofBytes` – the problem of the contents of a file.
* `Problem.graph` – a planning graph on which the problem is loaded.
-/

namespace Strips

/-- Action schemas, initial facts and goals. -/
structure Problem where
  schemas : List Schema := []
  initial : List Fact := []
  goals : List Fact := []
  deriving Repr

/-- Why the contents of a file are no problem. -/
inductive SourceError where
  /-- The bytes are no text in UTF-8. -/
  | notText
  | grammar (cause : SyntaxError)
  deriving DecidableEq, Repr

namespace Problem

/-- Add a fact at the end, unless it is there. -/
def insertFact (facts : List Fact) (f : Fact) : List Fact :=
  if facts.contains f then facts else facts ++ [f]

/-- Add what a statement says. -/
def add (p : Problem) : Statement → Problem
  | .fact f => { p with initial := insertFact p.initial f }
  | .goal f => { p with goals := insertFact p.goals f }
  | .schema s => { p with schemas := p.schemas ++ [s] }

/-- Read statements up to the end of the input or the first error. Each statement takes a token, so
the number of tokens bounds them. -/
def read : Nat → Cursor → Problem → Except SyntaxError Problem
  | 0, _, p => .ok p
  | fuel + 1, cursor, p =>
    match cursor.nextStatement with
    | (.error e, _) => .error e
    | (.ok none, _) => .ok p
    | (.ok (some s), cursor) => read fuel cursor (p.add s)

/-- The problem of a list of tokens. -/
def ofTokens (tokens : List Token) : Except SyntaxError Problem :=
  read (tokens.length + 1) (.ofTokens tokens) {}

/-- The problem of a text. -/
def parse (text : String) : Except SyntaxError Problem :=
  match tokenize text with
  | .error e => .error (.character e)
  | .ok tokens => ofTokens tokens

/-- The text with every line ended by a line feed alone. -/
def normalizeLines : List Char → List Char
  | [] => []
  | '\r' :: '\n' :: rest => '\n' :: normalizeLines rest
  | '\r' :: rest => '\n' :: normalizeLines rest
  | c :: rest => c :: normalizeLines rest

/-- No carriage return is left. -/
theorem carriageReturn_notMem_normalizeLines (text : List Char) : '\r' ∉ normalizeLines text := by
  fun_induction normalizeLines text with
  | case1 => simp
  | case2 rest ih => simp [ih]
  | case3 rest _ ih => simp [ih]
  | case4 c rest h1 h2 ih =>
    rw [List.mem_cons]
    rintro (rfl | h)
    · exact h2 rfl
    · exact ih h

/-- The problem of the contents of a file: text in UTF-8, with any of the usual line ends. -/
def ofBytes (bytes : ByteArray) : Except SourceError Problem :=
  match String.fromUTF8? bytes with
  | none => .error .notText
  | some text =>
    (parse (.ofList (normalizeLines text.toList))).mapError .grammar

/-- The sizes of a problem, printed. -/
def summary (p : Problem) : String :=
  s!"{p.schemas.length} action schemas, {p.initial.length} initial facts, " ++
    s!"{p.goals.length} goals"

/-! ### Plans by name -/

/-- Why there is no action for a line of a plan. -/
inductive NameError where
  /-- No schema has this name. -/
  | unknown (name : String)
  /-- The arguments leave a variable of the action, printed, without a value. -/
  | unbound (action : String)
  /-- The fact cannot be kept. -/
  | schema (cause : SchemaError)
  deriving DecidableEq, Repr

/-- The message about a missing action. -/
def NameError.message : NameError → String
  | unknown name => name
  | unbound action => Action.notGroundMessage action
  | schema cause => cause.message

/-- The action of a plan that a name with arguments stands for: the first schema of this name, under
these arguments or, without any, as it is. -/
def namedEntry (p : Problem) (name : String) (arguments : Option (List String)) :
    Except NameError PlanEntry :=
  match p.schemas.find? (·.action.name == name) with
  | none => .error (.unknown name)
  | some s =>
    match arguments with
    | none => .ok ((s.action.step? s.arena).elim (.unbound s.text) .step)
    | some values => (s.instantiate values).mapError .unbound |>.map .step

/-- The action of a plan that keeps a fact. -/
def keepingEntry (f : Fact) : Except NameError PlanEntry :=
  (Step.keep f).mapError .schema |>.map .step

/-! ### Graphs -/

/-- Load the problem on a graph. -/
def load (p : Problem) (g : Graph) : Except GraphError Unit × Graph :=
  g.load p.schemas (p.initial.map Fact.literal) (p.goals.map Fact.literal)

/-- A new graph on which the problem is loaded. -/
def graph (p : Problem) (strict : Bool) (budget : Int) : Except GraphError Graph :=
  match Graph.create strict budget with
  | .error e => .error e
  | .ok g =>
    match p.load g with
    | (.error e, _) => .error e
    | (.ok _, g) => .ok g

end Problem

end Strips
