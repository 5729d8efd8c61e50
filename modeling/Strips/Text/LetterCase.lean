import Strips.Text.CharClass
import Strips.Text.Table.WordCase

/-!
# Lower and upper case of text

Full case mapping: one character may become several, and a capital sigma takes its final form at
the end of a word. Mapping is on `List Char`, the form in which texts are scanned; `lower` and
`upper` wrap it for `String`.
-/

namespace Strips.Text

/-- Image of a character under a table of runs `(first, last, stride, image of first)`. -/
def mapRuns? (runs : List (Nat × Nat × Nat × Nat)) (c : Char) : Option Char :=
  (runs.find? fun (first, last, stride, _) =>
      first ≤ c.toNat && c.toNat ≤ last && (c.toNat - first) % stride == 0).map
    fun (first, _, _, image) => Char.ofNat (image + (c.toNat - first))

/-- Lower-case form of one character, outside of any word. -/
def lowerChar (c : Char) : List Char :=
  if c.toNat < 0x80 then [c.toLower]
  else if c.toNat = 0x130 then ['i', Char.ofNat 0x307]
  else [(mapRuns? Table.toLower c).getD c]

/-- Upper-case form of one character. -/
def upperChar (c : Char) : List Char :=
  if c.toNat < 0x80 then [c.toUpper]
  else match Table.toUpperMany.find? (·.1 == c.toNat) with
    | some (_, images) => images.map Char.ofNat
    | none => [(mapRuns? Table.toUpper c).getD c]

/-! ### The end of a word -/

/-- Characters that are skipped when the end of a word is looked for. -/
def isCaseIgnorable (c : Char) : Bool :=
  if c.toNat < 0x80 then c == '\'' || c == '.' || c == ':' || c == '^' || c == Char.ofNat 0x60
  else inRanges Table.caseIgnorable c

/-- Characters that count as letters of a word. -/
def isCased (c : Char) : Bool :=
  if c.toNat < 0x80 then c.isAlpha else inRanges Table.cased c

/-- Whether the word goes on: the next character that is not skipped is cased. -/
def wordContinues : List Char → Bool
  | [] => false
  | c :: rest => if isCaseIgnorable c then wordContinues rest else isCased c

/-- Lower-case form of a text; `inWord` says whether the last character that is not skipped was
cased. -/
def lowerChars (inWord : Bool) : List Char → List Char
  | [] => []
  | c :: rest =>
    let image :=
      if c.toNat = 0x3A3 then
        [Char.ofNat (if inWord && !wordContinues rest then 0x3C2 else 0x3C3)]
      else lowerChar c
    image ++ lowerChars (if isCaseIgnorable c then inWord else isCased c) rest

/-- Lower-case form of a text. -/
def lower (s : String) : String := .ofList (lowerChars false s.toList)

/-- Upper-case form of a text. -/
def upper (s : String) : String := .ofList (s.toList.flatMap upperChar)

end Strips.Text
