import Strips.Calendar
import Strips.Decimal.Binary64
import Strips.Files.Tree
import Strips.Pddl.Reference

/-!
# What a run needs from its surroundings

A run reads a file, keeps a log, asks for the time, prints lines and, if asked to, puts its problem
to a second planner. `Host` lists these operations for any monad, so that the same run works on real
files and on a `World`, which is a value: a tree of files, a clock, a planner and the lines printed
so far.

The operations can fail as far as their types say. In particular a line can always be printed,
whatever its characters, and no computation between two operations runs out of stack.

## Main definitions

* `Host` – the operations.
* `World`, `Host.world` – surroundings as a value.
-/

namespace Strips

/-- The operations that a run needs. -/
structure Host (m : Type → Type) where
  /-- The contents of a file. -/
  read : String → m (Except FileError ByteArray)
  /-- Make a directory and all directories on the way to it. -/
  makeDirectories : Path → m (Except FileError Unit)
  /-- Write a text file. -/
  write : Path → String → m (Except FileError Unit)
  /-- The time of day. -/
  now : m Instant
  /-- Seconds since the last reading of the stopwatch. -/
  stopwatch : m Binary64
  /-- Ask a second planner for a plan of a task. It answers with a plan, or that there is none, or
  fails with a message. -/
  plan : Pddl.Search → Pddl.Task → m (Except String (Option Pddl.ReferencePlan))
  /-- Print a line. This cannot fail. -/
  print : String → m Unit

/-- Surroundings as a value. -/
structure World where
  files : FileTree := .empty
  /-- What the clock shows when it is next read. -/
  clock : Instant := 0
  /-- How far the clock moves after each reading. -/
  tick : Int := 0
  /-- What the stopwatch shows at its next readings. -/
  readings : List Binary64 := []
  /-- What the second planner answers. -/
  planner : Pddl.Search → Pddl.Task → Except String (Option Pddl.ReferencePlan) :=
    fun _ _ => .error "no planner"
  /-- The lines printed so far. -/
  output : List String := []

namespace World

/-- Change the files. -/
def withFiles (w : World) (result : Except FileError Unit × FileTree) :
    Except FileError Unit × World :=
  (result.1, { w with files := result.2 })

end World

/-- The operations on surroundings that are a value. -/
def Host.world : Host (StateM World) where
  read path := fun w => (w.files.read path, w)
  makeDirectories path := fun w => w.withFiles (w.files.makeDirectories path)
  write path text := fun w => w.withFiles (w.files.writeFile path text.toUTF8)
  now := fun w => (w.clock, { w with clock := w.clock + w.tick })
  stopwatch := fun w => (w.readings.headD {}, { w with readings := w.readings.tail })
  plan search task := fun w => (w.planner search task, w)
  print line := fun w => ((), { w with output := w.output ++ [line] })

end Strips
