import BlockScript.Files.Pathname
import BlockScript.Node.Document
import BlockScript.Host
import BlockScript.Store

/-!
The workspace: everything that is kept between sessions.

It holds the documents of the programs, the variables as literals, and the account fields, which
pass through untouched.  `Workspace.load` and `Workspace.save` deal with its file.
-/

namespace BlockScript

structure Workspace where
  credentials : Table Json
  programs : List Json
  bindings : Table Json

inductive WorkspaceError where
  | inaccessible (path : String)
  | invalid
  | program (error : DocumentError)

def WorkspaceError.message : WorkspaceError → String
  | inaccessible path => "cannot access " ++ path
  | invalid => "invalid application document"
  | program error => error.message

namespace Workspace

def programsField : String := "programs"

def variablesField : String := "variables"

def emptyProgram : Json := .array []

def initial : Workspace := ⟨.empty, [emptyProgram], .empty⟩

instance : Inhabited Workspace := ⟨initial⟩

/-! ## Text -/

/-- The only value of a field, none if it is missing; a field that is there twice is an error. -/
def single (name : String) (fields : List (String × Json)) :
    Except WorkspaceError (Option Json) :=
  match fields.filter (·.1 = name) with
  | [] => .ok none
  | [(_, value)] => .ok (some value)
  | _ => .error .invalid

def ofFields (fields : List (String × Json)) : Except WorkspaceError Workspace := do
  let programs ← match ← single programsField fields with
    | none => .ok []
    | some (.array programs) => .ok programs
    | some _ => .error .invalid
  let bindings ← match ← single variablesField fields with
    | none => .ok []
    | some (.object bindings) => .ok bindings
    | some _ => .error .invalid
  let credentials := fields.filter fun (name, _) => name ≠ programsField ∧ name ≠ variablesField
  return ⟨.ofList credentials, programs, .ofList bindings⟩

def parse (text : String) : Except WorkspaceError Workspace :=
  match Json.parseFields? text with
  | some fields => ofFields fields
  | none => .error .invalid

/-- Account fields come first, then programs and variables. -/
def toJson (w : Workspace) : Json :=
  .object (w.credentials.entries ++
    [(programsField, .array w.programs), (variablesField, .object w.bindings.entries)])

def toText (w : Workspace) : String := w.toJson.pretty

/-! ## File -/

/-- Reads the workspace of a file. A missing file gives the initial workspace, and one without
programs gets an empty program. -/
def load (path : String) : HostTask WorkspaceError Workspace := do
  if !(← HostTask.pathExists path) then
    HostTask.report .documentMissing
    return initial
  match ← HostTask.readText path with
  | none => .fail (.inaccessible path)
  | some text =>
    let w ← Task.ofExcept (parse text)
    HostTask.report .documentLoaded
    return if w.programs.isEmpty then { w with programs := [emptyProgram] } else w

def save (path : String) (w : Workspace) : HostTask WorkspaceError Unit := do
  let parent := (Pathname.parent? path).getD ""
  let ready ← if parent.isEmpty then pure true else HostTask.createFolder parent
  if !ready then .fail (.inaccessible path)
  else if !(← HostTask.writeText path w.toText) then .fail (.inaccessible path)
  else HostTask.report .documentSaved

/-! ## Variables -/

/-- Defines variables from their literals in turn, up to the first that is no literal. -/
def seedEntries (store : Store) : List (String × Json) → Option WorkspaceError × Store
  | [] => (none, store)
  | (name, literal) :: rest =>
    match Value.ofJson literal with
    | .ok value => seedEntries (store.set name value) rest
    | .error e => (some (.program (.malformed (.literal e))), store)

def seed (w : Workspace) (store : Store) : Option WorkspaceError × Store :=
  seedEntries store w.bindings.entries

def capture (w : Workspace) (store : Store) : Workspace :=
  { w with bindings := store.map Value.toJson }

/-! ## Programs -/

variable {κ : Type} [Vocabulary κ]

def roots (w : Workspace) (registry : Registry κ) :
    Except WorkspaceError (List (List (Node κ))) :=
  w.programs.mapM fun document =>
    match Document.ofDocument registry document with
    | .ok roots => .ok roots
    | .error e => .error (.program e)

def setPrograms [DecidableEq κ] (w : Workspace) (registry : Registry κ)
    (programs : List (List (Node κ))) : Except WorkspaceError Workspace := do
  let documents ← programs.mapM fun roots =>
    match Document.toDocument registry roots with
    | .ok document => .ok document
    | .error e => .error (WorkspaceError.program e)
  return { w with programs := documents }

end Workspace

end BlockScript
