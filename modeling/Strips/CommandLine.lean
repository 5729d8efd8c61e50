import Strips.Text.Integer

/-!
# Command lines

A command line names one problem file and may set options before and after it. A long option may be
cut short as long as one option is meant, and may have its value after an equals sign. Short options
may share one dash. Two dashes end the options, and a negative number is a value, not an option.

Parsers of options do not agree on everything, and two of the conventions here are those of the
earlier ones. Two dashes after an equals sign end the options there too, and leave the option that
stands before the sign without a value; later parsers take them for the value. And an equals sign
between the letters behind a single dash is passed over, so that `-v=v` is two times `-v`; later
parsers take what follows it for a value, which no option of a single letter has.

## Main definitions

* `Options` – what a command line asks for.
* `CommandLine.parse` – read a command line.
-/

namespace Strips

/-- What a command line says about an option that takes a value. -/
inductive OptionValue (α : Type) where
  /-- The option does not occur. -/
  | absent
  /-- The option occurs without a value: two dashes stand after its equals sign. Only the earlier
  parsers have this case. -/
  | blank
  | given (value : α)
  deriving DecidableEq, Repr

/-- The value of an option, or what stands for it where the option does not occur. -/
def OptionValue.getD {α : Type} (otherwise : α) : OptionValue α → Option α
  | absent => some otherwise
  | blank => none
  | given value => some value

/-- What a command line asks for. What it leaves out is decided by the settings. -/
structure Options where
  problem : String
  verbose : Bool := false
  strictMutexes : Bool := false
  maxLayers : OptionValue Int := .absent
  logDir : OptionValue String := .absent
  noLog : Bool := false
  crossCheck : Bool := false
  deriving DecidableEq, Repr

/-- Why a command line is not followed. -/
inductive Usage where
  /-- Help was asked for. -/
  | help
  /-- The command line is wrong. -/
  | wrong
  deriving DecidableEq, Repr

namespace CommandLine

/-- The options. -/
inductive Flag where
  | help
  | verbose
  | maxLayers
  | strictMutexes
  | logDir
  | noLog
  | crossCheck
  deriving DecidableEq, Repr

/-- The long names. -/
def longNames : List (String × Flag) :=
  [("--help", .help), ("--verbose", .verbose), ("--max-layers", .maxLayers),
    ("--strict-mutexes", .strictMutexes), ("--log-dir", .logDir), ("--no-log", .noLog),
    ("--cross-check", .crossCheck)]

/-- The option of a single letter. -/
def shortFlag? : Char → Option Flag
  | 'h' => some .help
  | 'v' => some .verbose
  | _ => none

/-- Whether an option takes a value. -/
def Flag.takesValue : Flag → Bool
  | .maxLayers | .logDir => true
  | _ => false

/-- What a word of a command line is. -/
inductive Word where
  /-- A value or the problem file. -/
  | plain (text : String)
  /-- A long option, with the value after its equals sign. -/
  | long (flag : Flag) (value : Option String)
  /-- Letters behind a single dash. -/
  | letters (flags : List Flag)
  /-- Letters behind a single dash, of which one is no option. -/
  | wrongLetters
  /-- Two dashes. -/
  | separator
  /-- An option that does not exist. -/
  | unknown
  /-- An option cut too short. -/
  | ambiguous
  deriving DecidableEq, Repr

/-- Whether a text after a dash is a number: digits, with a point among or before them. -/
def isNumber (s : List Char) : Bool :=
  let digit := fun c => (Text.decimalValue? c).isSome
  let rest := s.dropWhile digit
  match s, rest with
  | _ :: _, [] => true
  | _ :: _, ['\n'] => s != rest
  | _, '.' :: fraction =>
    let rest := fraction.dropWhile digit
    (rest.isEmpty || rest = ['\n']) && fraction != rest
  | _, _ => false

/-- What a word is that starts with a dash and is no option and no number. -/
def otherWord (s : String) : Word :=
  match s.toList with
  | '-' :: rest =>
    if isNumber rest || s.toList.contains ' ' then .plain s else .unknown
  | _ => .plain s

/-- What the word of an option letter and what follows it is. An equals sign right after the first
letter does not count, unless nothing follows it, as with the earlier parsers. -/
def lettersWord (first : Flag) (others : List Char) : Word :=
  let others := match others with
    | '=' :: c :: rest => c :: rest
    | others => others
  match others.mapM shortFlag? with
  | some flags => .letters (first :: flags)
  | none => .wrongLetters

/-- What a word is that stands before any pair of dashes. -/
def classify (s : String) : Word :=
  match s.toList with
  | '-' :: '-' :: _ =>
    if s = "--" then .separator
    else
      let name := String.ofList (s.toList.takeWhile (· ≠ '='))
      let value := if s.toList.contains '=' then
          some (String.ofList ((s.toList.dropWhile (· ≠ '=')).drop 1))
        else none
      match longNames.lookup name with
      | some flag => .long flag value
      | none =>
        match longNames.filter fun (long, _) => name.toList.isPrefixOf long.toList with
        | [(_, flag)] => .long flag value
        | [] => otherWord s
        | _ => .ambiguous
  | '-' :: c :: rest =>
    match shortFlag? c with
    | none => otherWord s
    | some flag => lettersWord flag rest
  | _ => .plain s

/-- What the words of a command line are. After two dashes every word is plain. -/
def classifyAll : List String → List Word
  | [] => []
  | s :: rest =>
    match classify s with
    | .separator => .separator :: rest.map .plain
    | word => word :: classifyAll rest

/-- What has been read of a command line. -/
structure Reading where
  options : Options := { problem := "" }
  /-- Whether the problem file was named. -/
  hasProblem : Bool := false
  /-- Whether something was left over. -/
  leftOver : Bool := false
  deriving Repr

namespace Reading

/-- Set an option without a value. -/
def switchOn (r : Reading) (flag : Flag) : Except Usage Reading :=
  let o := r.options
  match flag with
  | .help => .error .help
  | .verbose => .ok { r with options := { o with verbose := true } }
  | .strictMutexes => .ok { r with options := { o with strictMutexes := true } }
  | .noLog => .ok { r with options := { o with noLog := true } }
  | .crossCheck => .ok { r with options := { o with crossCheck := true } }
  | .maxLayers | .logDir => .error .wrong

/-- Set an option with a value. -/
def assign (r : Reading) (flag : Flag) (value : String) : Except Usage Reading :=
  let o := r.options
  match flag with
  | .logDir =>
    let logDir := if value = "--" then .blank else .given value
    .ok { r with options := { o with logDir } }
  | .maxLayers =>
    if value = "--" then .ok { r with options := { o with maxLayers := .blank } }
    else match Text.readInt? value with
      | some n => .ok { r with options := { o with maxLayers := .given n } }
      | none => .error .wrong
  | _ => .error .wrong

/-- Take the problem file, or leave a word over. -/
def takeProblem (r : Reading) (text : String) : Reading :=
  if r.hasProblem then { r with leftOver := true }
  else { r with options := { r.options with problem := text }, hasProblem := true }

end Reading

/-- Read words from left to right. -/
def readWords (r : Reading) : List Word → Except Usage Reading
  | [] => .ok r
  | .plain text :: .separator :: rest =>
    readWords (if r.hasProblem then { r with leftOver := true } else r.takeProblem text) rest
  | .plain text :: rest => readWords (r.takeProblem text) rest
  | .long flag none :: .plain value :: rest =>
    if flag.takesValue then
      match r.assign flag value with
      | .ok r => readWords r rest
      | .error e => .error e
    else
      match r.switchOn flag with
      | .ok r => readWords r (.plain value :: rest)
      | .error e => .error e
  | .long flag none :: rest =>
    match r.switchOn flag with
    | .ok r => readWords r rest
    | .error e => .error e
  | .long flag (some value) :: rest =>
    match r.assign flag value with
    | .ok r => readWords r rest
    | .error e => .error e
  | .letters flags :: rest =>
    match flags.foldlM Reading.switchOn r with
    | .ok r => readWords r rest
    | .error e => .error e
  | .wrongLetters :: _ => .error .wrong
  | .separator :: rest =>
    readWords (if r.hasProblem then { r with leftOver := true } else r) rest
  | .unknown :: rest => readWords { r with leftOver := true } rest
  | .ambiguous :: _ => .error .wrong

/-- Read a command line, by the conventions of the earlier parsers. -/
def parse (args : List String) : Except Usage Options :=
  let words := classifyAll args
  if words.contains .ambiguous then .error .wrong
  else match readWords {} words with
    | .error e => .error e
    | .ok r => if r.hasProblem && !r.leftOver then .ok r.options else .error .wrong

end CommandLine

end Strips
