import BlockScript.Files.Tree
import BlockScript.Host

/-!
Surroundings as a value: a file tree, a clock that stands still, a chance that is always the same,
and what has been reported and rung so far.
-/

namespace BlockScript

structure Surroundings where
  files : FileTree
  now : Moment
  chance : Binary64
  events : List Event
  bells : Nat

namespace Surroundings

def settle (s : Surroundings) : Except FileError FileTree → Bool × Surroundings
  | .ok files => (true, { s with files })
  | .error _ => (false, s)

def answer (request : Host.Request) (s : Surroundings) : request.Answer × Surroundings :=
  match request with
  | .readText path => (s.files.readText? path, s)
  | .pathExists path => (s.files.exists? path, s)
  | .createFile path => s.settle (s.files.createFile path)
  | .createFolder path =>
    let (files, outcome) := s.files.createFolder path
    (outcome.isOk, { s with files })
  | .writeText path content => s.settle (s.files.writeText path content)
  | .report event => ((), { s with events := event :: s.events })
  | .ring => (none, { s with bells := s.bells + 1 })
  | .now => (s.now, s)
  | .chance => (s.chance, s)

end Surroundings

end BlockScript
