import Strips.Problem
import Strips.Text.Integer
import Strips.Text.LetterCase

/-!
# Settings

Settings are variables of the environment. A settings file may set some of them beforehand: each of
its lines assigns a value to a name, and blank lines and lines that start with `#` are left out.

## Main definitions

* `Environment.loadFile` – the environment after a settings file.
* `Environment.verbose`, `strictMutexes`, `logDir`, `maxLayers` – the settings.
-/

namespace Strips

/-- Variables with their values. -/
abbrev Environment : Type := List (String × String)

/-- Why a settings file is refused. -/
inductive SettingsError where
  /-- A line without an equals sign. -/
  | noEquals
  /-- A line without a name. -/
  | emptyName
  /-- A name or a value with a null character. -/
  | nullCharacter
  deriving DecidableEq, Repr

/-- The message about a refused settings file. -/
def SettingsError.message : SettingsError → String
  | noEquals => "not enough values to unpack (expected 2, got 1)"
  | emptyName => "[Errno 22] Invalid argument"
  | nullCharacter => "embedded null byte"

/-- The message about a text that is no whole number; a long text is cut. -/
def notIntegerMessage (text : String) : String :=
  "invalid literal for int() with base 10: " ++
    String.ofList ((Text.Quoted.encode text.toList).take 200)

/-- The text without white space around it. -/
def stripSpace (s : List Char) : List Char :=
  ((s.dropWhile Text.isSpace).reverse.dropWhile Text.isSpace).reverse

/-- The lines of a text. -/
def linesOf : List Char → List (List Char)
  | [] => [[]]
  | c :: rest =>
    if c = '\n' then [] :: linesOf rest
    else match linesOf rest with
      | [] => [[c]]
      | line :: lines => (c :: line) :: lines

namespace Environment

/-- The value of a variable. -/
def get? (env : Environment) (name : String) : Option String := env.lookup name

/-- Set a variable. -/
def set (env : Environment) (name value : String) : Environment :=
  (name, value) :: env.filter (·.1 ≠ name)

/-- What one line of a settings file does. -/
def loadLine (env : Environment) (line : List Char) : Except SettingsError Environment :=
  match stripSpace line with
  | [] => .ok env
  | '#' :: _ => .ok env
  | line =>
    if !line.contains '=' then .error .noEquals
    else
      let name := stripSpace (line.takeWhile (· ≠ '='))
      let value := stripSpace ((line.dropWhile (· ≠ '=')).drop 1)
      if (name ++ value).contains (Char.ofNat 0) then .error .nullCharacter
      else if name.isEmpty then .error .emptyName
      else .ok (env.set (.ofList name) (.ofList value))

/-- The environment after a settings file. -/
def loadFile (env : Environment) (text : String) : Except SettingsError Environment :=
  (linesOf (Problem.normalizeLines text.toList)).foldlM loadLine env

/-- Whether a variable is `true`, in upper or lower case. -/
def isTrue (env : Environment) (name : String) : Bool :=
  (env.get? name).any fun value => Text.lower value == "true"

/-- Whether progress is printed. -/
def verbose (env : Environment) : Bool := env.isTrue "GRAPHPLAN_VERBOSE"

/-- Whether steps with mutually exclusive preconditions exclude each other. -/
def strictMutexes (env : Environment) : Bool := env.isTrue "GRAPHPLAN_STRICT_MUTEXES"

/-- The directory of run logs. -/
def logDir (env : Environment) : String := (env.get? "GRAPHPLAN_LOG_DIR").getD "logs"

/-- The greatest number of expansions, or the text that is no number. -/
def maxLayers (env : Environment) : Except String Int :=
  let text := (env.get? "GRAPHPLAN_MAX_LAYERS").getD "0"
  match Text.readInt? text with
  | some n => .ok n
  | none => .error text

/-- Whether the number of expansions is a number and not negative. -/
def isValid (env : Environment) : Bool :=
  match env.maxLayers with
  | .ok n => 0 ≤ n
  | .error _ => false

end Environment

end Strips
