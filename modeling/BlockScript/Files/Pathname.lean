/-!
Path names.

A path name is a text whose parts stand between slashes.  `steps` are the parts that a walk
through folders takes; `parent?` is the path name of the containing folder, in which the steps
that stay in place are left out.
-/

namespace BlockScript.Pathname

def nameLimit : Nat := 255

def lengthLimit : Nat := 4095

def steps (path : String) : List String :=
  ((path.toList.splitOn '/').filter (!·.isEmpty)).map String.ofList

def isAbsolute (path : String) : Bool := path.toList.head? = some '/'

def namesFolder (path : String) : Bool := path.toList.getLast? = some '/'

/-- Path names are neither empty nor too long and hold no null character. A single step that is
too long is no matter of the path name: the walk that comes to it fails. -/
def isValid (path : String) : Bool :=
  !path.isEmpty && !path.toList.contains '\x00' && path.utf8ByteSize ≤ lengthLimit

/-- The steps without those that stay in place, a leading one excepted. -/
def properSteps (path : String) : List String :=
  match steps path with
  | [] => []
  | first :: rest =>
    let rest := rest.filter (· ≠ ".")
    if first = "." ∧ isAbsolute path then rest else first :: rest

def ofSteps (absolute : Bool) (steps : List String) : String :=
  (if absolute then "/" else "") ++ "/".intercalate steps

def parent? (path : String) : Option String :=
  match properSteps path with
  | [] => none
  | steps => some (ofSteps (isAbsolute path) steps.dropLast)

def join (path name : String) : String :=
  if path.isEmpty then name
  else if namesFolder path then path ++ name
  else path ++ "/" ++ name

end BlockScript.Pathname
