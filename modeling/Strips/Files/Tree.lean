import Strips.Files.Path
import Strips.Text.Quoted

/-!
# A tree of files

Directories and files as a value, with the operations that a run needs: open a file, make a
directory with all its parents, write a file. A location is the list of names from the root of all
directories; paths that are not absolute start at the working directory.

Two dots lead to the parent directory when they are met, so every part before them has to exist.

## Main definitions

* `FileTree.read`, `FileTree.makeDirectories`, `FileTree.writeFile`.
* `FileTree.listing` – the files below the working directory.
-/

namespace Strips

/-- The names on the way from the root of all directories. -/
abbrev Location : Type := List String

/-- Why an operation on files fails. -/
inductive FileFault where
  | notFound
  | exists
  | notDirectory
  | isDirectory
  /-- A name on the way, or the whole path, is too long. -/
  | nameTooLong
  /-- The path holds a null character, and so is none. -/
  | nullCharacter
  deriving DecidableEq, Repr

/-- The number and the wording of a fault. -/
def FileFault.text : FileFault → String
  | notFound => "[Errno 2] No such file or directory"
  | .exists => "[Errno 17] File exists"
  | notDirectory => "[Errno 20] Not a directory"
  | isDirectory => "[Errno 21] Is a directory"
  | nameTooLong => "[Errno 36] File name too long"
  | nullCharacter => "embedded null byte"

/-- A fault and the path, as it was given, at which it arose. -/
structure FileError where
  fault : FileFault
  path : String
  deriving DecidableEq, Repr

/-- The message about a failed operation on files. It shows the path, if that is one. -/
def FileError.message (e : FileError) : String :=
  if e.fault = .nullCharacter then e.fault.text else s!"{e.fault.text}: {Text.quoted e.path}"

/-- The greatest number of bytes in a name. -/
def maxNameBytes : Nat := 255

/-- The greatest number of bytes in a path. -/
def maxPathBytes : Nat := 4095

/-- Why a text cannot be a path. -/
def pathFault? (path : String) : Option FileFault :=
  if path.toList.contains (Char.ofNat 0) then some .nullCharacter
  else if maxPathBytes < path.utf8ByteSize then some .nameTooLong
  else none

/-- The directories and files that exist. -/
structure FileTree where
  /-- The working directory. -/
  here : Location
  directories : List Location
  files : List (Location × ByteArray) := []

namespace FileTree

/-- An empty working directory. -/
def empty : FileTree :=
  { here := ["work"], directories := [[], ["work"]] }

/-- Whether a location is a directory. -/
def isDirectory (t : FileTree) (l : Location) : Bool := t.directories.contains l

/-- The contents of the file at a location. -/
def contents? (t : FileTree) (l : Location) : Option ByteArray := t.files.lookup l

/-- Follow parts from a location. All that is passed has to be a directory, in which no name is too
long; the end may be anything, or not exist. -/
def walk (t : FileTree) (l : Location) : List String → Except FileFault Location
  | [] => .ok l
  | part :: rest =>
    if !t.isDirectory l then
      .error (if (t.contents? l).isSome then .notDirectory else .notFound)
    else if part = "." then t.walk l rest
    else if part = ".." then t.walk l.dropLast rest
    else if maxNameBytes < part.utf8ByteSize then .error .nameTooLong
    else t.walk (l ++ [part]) rest

/-- The location that a path leads to. -/
def locate (t : FileTree) (p : Path) : Except FileFault Location :=
  match pathFault? p.toString with
  | some fault => .error fault
  | none => t.walk (if p.isAbsolute then [] else t.here) p.parts

/-- The location that a path leads to, which a slash at the end requires to be a directory. -/
def locateRaw (t : FileTree) (path : String) : Except FileFault Location :=
  let start := if (Path.ofString path).isAbsolute then [] else t.here
  let parts := (splitSlashes path.toList).map String.ofList
  let closing := if parts.getLast? = some "" then ["."] else []
  match pathFault? path with
  | some fault => .error fault
  | none =>
    if path = "" then .error .notFound else t.walk start (parts.filter (· ≠ "") ++ closing)

/-- The contents of a file. -/
def read (t : FileTree) (path : String) : Except FileError ByteArray :=
  match t.locateRaw path with
  | .error fault => .error ⟨fault, path⟩
  | .ok l =>
    if t.isDirectory l then .error ⟨.isDirectory, path⟩
    else match t.contents? l with
      | some bytes => .ok bytes
      | none => .error ⟨.notFound, path⟩

/-- Make one directory in an existing one. -/
def makeDirectory (t : FileTree) (p : Path) : Except FileFault FileTree :=
  match t.locate p with
  | .error fault => .error fault
  | .ok l =>
    if t.isDirectory l || (t.contents? l).isSome then .error .exists
    else .ok { t with directories := t.directories ++ [l] }

/-- Whether a path leads to a directory. -/
def leadsToDirectory (t : FileTree) (p : Path) : Bool :=
  match t.locate p with
  | .ok l => t.isDirectory l
  | .error _ => false

/-- Make a directory that may exist already: if part of the way to it is missing, its parent is made
first. `depth` bounds the number of parents. What was made before a failure stays. -/
def makeWithParents (t : FileTree) (p : Path) : Nat → Except FileError Unit × FileTree
  | 0 => (.error ⟨.notFound, p.toString⟩, t)
  | depth + 1 =>
    let settle := fun (t : FileTree) (fault : FileFault) =>
      (if t.leadsToDirectory p then .ok () else .error ⟨fault, p.toString⟩, t)
    match t.makeDirectory p with
    | .ok t => (.ok (), t)
    | .error .notFound =>
      match t.makeWithParents p.parent depth with
      | (.error e, t) => (.error e, t)
      | (.ok _, t) =>
        match t.makeDirectory p with
        | .ok t => (.ok (), t)
        | .error fault => settle t fault
    | .error fault => settle t fault

/-- Make a directory and all directories on the way to it. -/
def makeDirectories (t : FileTree) (p : Path) : Except FileError Unit × FileTree :=
  t.makeWithParents p (p.parts.length + 1)

/-- The files with the contents of one of them replaced, or a new one at the end. -/
def putFile (l : Location) (bytes : ByteArray) :
    List (Location × ByteArray) → List (Location × ByteArray)
  | [] => [(l, bytes)]
  | (m, old) :: rest => if m = l then (l, bytes) :: rest else (m, old) :: putFile l bytes rest

/-- Write a file in an existing directory. -/
def writeFile (t : FileTree) (p : Path) (bytes : ByteArray) : Except FileError Unit × FileTree :=
  let failed := fun fault => (Except.error ⟨fault, p.toString⟩, t)
  match t.locate p with
  | .error fault => failed fault
  | .ok l =>
    if t.isDirectory l then failed .isDirectory
    else if !t.isDirectory l.dropLast then failed .notFound
    else (.ok (), { t with files := putFile l bytes t.files })

/-- The files below the working directory, with their paths from there. -/
def listing (t : FileTree) : List (String × ByteArray) :=
  t.files.filterMap fun (l, bytes) =>
    if t.here.isPrefixOf l then some ("/".intercalate (l.drop t.here.length), bytes) else none

end FileTree

end Strips
