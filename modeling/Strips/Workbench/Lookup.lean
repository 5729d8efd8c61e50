import Strips.Workbench

/-!
# Looking things up on a workbench

Filings and exclusions are found by marks. What is asked for gets the mark that it has now. It finds
what was noted under this mark, if that is still the same as what is asked for.

An exclusion is found by two members when each of its own members is found by one of the two, and
the two have no other marks than its members. For members that cannot change this says no more than
that the exclusion consists of these two.

## Main definitions

* `Exclusions.contains`, `Exclusions.insert`, `Exclusions.same` – the pairs that exclude each other.
* `Workbench.filing?`, `Workbench.fileUnder`, `Workbench.index` – actions filed under literals.
-/

namespace Strips

namespace Workbench

/-! ### Exclusions -/

/-- A member with its mark. -/
def note (b : Workbench) (m : Member) : Noted := ⟨m, b.mark m⟩

/-- Whether one noted member is found by another one. -/
def finds (b : Workbench) (asked noted : Noted) : Bool :=
  asked.mark.same noted.mark && b.same asked.member noted.member

/-- The pair of two members; a member with itself stands alone. -/
def exclusion (b : Workbench) (m n : Member) : Exclusion :=
  if b.finds (b.note m) (b.note n) then [b.note m] else [b.note m, b.note n]

/-- Whether one pair is found by another one. -/
def findsPair (b : Workbench) (asked noted : Exclusion) : Bool :=
  asked.length == noted.length && noted.all (fun x => asked.any (b.finds · x)) &&
    asked.all fun x => noted.any fun y => x.mark.same y.mark

/-- The printed forms of the members of a pair. -/
def pairText (b : Workbench) : Exclusion → String × String
  | [] => ("", "")
  | [x] => (b.text x.member, b.text x.member)
  | x :: y :: _ => (b.text x.member, b.text y.member)

end Workbench

namespace Exclusions

/-- The pairs in which a mark stands. -/
def row (r : Exclusions) (mark : Mark) : List Exclusion :=
  ((r.rows.find? (·.1.same mark)).map Prod.snd).getD []

/-- Put a pair into the row of a mark. -/
def addToRow (pair : Exclusion) (mark : Mark) :
    List (Mark × List Exclusion) → List (Mark × List Exclusion)
  | [] => [(mark, [pair])]
  | (m, pairs) :: rest =>
    if m.same mark then (m, pair :: pairs) :: rest else (m, pairs) :: addToRow pair mark rest

/-- Whether a pair is found. -/
def finds (b : Workbench) (r : Exclusions) (pair : Exclusion) : Bool :=
  match pair.head? with
  | some x => (r.row x.mark).any (b.findsPair pair)
  | none => false

/-- Whether two members exclude each other. -/
def contains (b : Workbench) (r : Exclusions) (m n : Member) : Bool := r.finds b (b.exclusion m n)

/-- Make two members exclude each other. -/
def insert (b : Workbench) (r : Exclusions) (m n : Member) : Exclusions :=
  let pair := b.exclusion m n
  if r.finds b pair then r
  else ⟨pair :: r.pairs, pair.foldl (fun rows x => addToRow pair x.mark rows) r.rows⟩

/-- Make two actions exclude each other, unless they are the same. -/
def insertActions (b : Workbench) (r : Exclusions) (x y : Actor) : Exclusions :=
  if x == y then r else r.insert b (.object x.handle) (.object y.handle)

/-- Whether two actions exclude each other. -/
def containsActions (b : Workbench) (r : Exclusions) (x y : Actor) : Bool :=
  r.contains b (.object x.handle) (.object y.handle)

/-- Whether all pairs are found among others, which are as many. -/
def same (b : Workbench) (r s : Exclusions) : Bool :=
  r.pairs.length == s.pairs.length && r.pairs.all (s.finds b)

/-- The printed forms of the pairs. -/
def texts (b : Workbench) (r : Exclusions) : List (String × String) := r.pairs.map b.pairText

end Exclusions

/-! ### Filings -/

namespace Workbench

/-- Whether a filing is found by a literal that has the given key now. -/
def meets (b : Workbench) (f : Filing) (l : Literal) (key : ValueKey) : Bool :=
  f.key == key && f.literal.same b.arena l

/-- The filing that is found by a literal. -/
def filing? (b : Workbench) (filings : List Filing) (l : Literal) : Option Filing :=
  filings.find? (b.meets · l (l.key b.arena))

/-- File an action under a literal with the given key, unless it is filed there already. -/
def fileUnder (b : Workbench) (l : Literal) (key : ValueKey) (x : Actor) :
    List Filing → List Filing
  | [] => [⟨l, key, [x.handle]⟩]
  | f :: rest =>
    if b.meets f l key then
      let known := (b.actors f.actions).contains x
      { f with actions := if known then f.actions else f.actions ++ [x.handle] } :: rest
    else f :: b.fileUnder l key x rest

/-- File an action under several literals. -/
def fileAll (b : Workbench) (x : Actor) (ls : List Literal) (filings : List Filing) :
    List Filing :=
  ls.foldl (fun filings l => b.fileUnder l (l.key b.arena) x filings) filings

/-- The filings that can be found now. -/
def index (b : Workbench) (filings : List Filing) : Index Saying Actor :=
  (filings.filter fun f => f.key == f.literal.key b.arena).map fun f =>
    (b.saying f.literal, b.actors f.actions)

/-- Whether all filings and all instances of one file are found in another one of the same size. -/
def sameFile (b : Workbench) (f g : FileItem) : Bool :=
  f.filings.length == g.filings.length && f.instances.length == g.instances.length &&
    f.filings.all (fun x =>
      match g.filings.find? (b.meets · x.literal x.key) with
      | some y => b.actors x.actions == b.actors y.actions
      | none => false) &&
    f.instances.all fun (k, h) =>
      match g.instances.find? (·.1.same k) with
      | some (_, i) => b.same (.object h) (.object i)
      | none => false

/-- The printed forms of a file. -/
def fileTexts (b : Workbench) (filings : List Filing) : List (String × List String) :=
  filings.map fun f => (f.literal.text b.arena, f.actions.map fun h => b.text (.object h))

end Workbench

end Strips
