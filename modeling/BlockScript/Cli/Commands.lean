import BlockScript.Catalog.Standard
import BlockScript.Cli.Console
import BlockScript.Cli.Options
import BlockScript.Run.Program
import BlockScript.Settings.Basic
import BlockScript.Workspace

/-!
The commands of the command line program.

`run` runs programs one after another on the same variables and then keeps the variables; `show`,
`palette` and `check` only look.  `Cli.launch` is the whole program as a task that gives its exit
code.
-/

namespace BlockScript.Cli

open Catalog (Block)

/-- Loops go round at most this often; no real run gets that far. -/
def horizon : Nat := UInt64.size

inductive CliError where
  | settings (error : SettingsError)
  | workspace (error : WorkspaceError)
  | noProgram (index count : Nat)
  | failures (count : Nat)

def CliError.message : CliError → String
  | settings error => error.message
  | workspace error => error.message
  | noProgram index count => "no program " ++ toString index ++ ": document has " ++ toString count
  | failures count => toString count ++ " program(s) failed"

def withCause (error : EvalError) : String :=
  match error with
  | .behavior _ cause => error.message ++ ": " ++ cause.message
  | _ => error.message

abbrev CliTask (α : Type) := ConsoleTask CliError α

def onHost {ε α : Type} (wrap : ε → CliError) (task : HostTask ε α) : CliTask α :=
  (ConsoleTask.ofHost task).mapError wrap

/-- The workspace and its variables. Constants win over variables of their names. -/
def openWorkspace (s : Settings) : CliTask (Workspace × Store) := do
  let w ← onHost .workspace (Workspace.load s.dataFile)
  match w.seed .empty with
  | (some e, _) => .fail (.workspace e)
  | (none, store) =>
    return (w, if s.seedConstants then Store.seedConstants store else store)

def programs (w : Workspace) : CliTask (List (List (Node Block))) :=
  match w.roots Catalog.registry with
  | .ok roots => .done roots
  | .error e => .fail (.workspace e)

def runOne (index : Nat) (roots : List (Node Block)) (store : Store) :
    CliTask (Bool × Store) := do
  let task := Evaluation.actions (Node.execute horizon roots)
  let (ending, store) ← ConsoleTask.runAlone store false task
  let line := "program " ++ toString index ++ ": "
  match ending with
  | .done .completed =>
    ConsoleTask.print (line ++ "completed")
    return (false, store)
  | .done .stopped =>
    ConsoleTask.print (line ++ "stopped")
    return (false, store)
  | .failed error =>
    ConsoleTask.ofHost (HostTask.report .runAborted)
    ConsoleTask.print (line ++ "failed: " ++ withCause error)
    return (true, store)
  | .crashed | .unfinished =>
    ConsoleTask.print (line ++ "failed: " ++ EvalError.died.message)
    return (true, store)

def runAll (store : Store) : List (Nat × List (Node Block)) → CliTask (Nat × Store)
  | [] => return (0, store)
  | (index, roots) :: rest => do
    let (failed, store) ← runOne index roots store
    let (failures, store) ← runAll store rest
    return (if failed then failures + 1 else failures, store)

def select (program : Option Nat) (all : List (List (Node Block))) :
    CliTask (List (Nat × List (Node Block))) :=
  match program with
  | none => .done (all.zipIdx.map fun (roots, index) => (index, roots))
  | some index =>
    match all[index]? with
    | some roots => .done [(index, roots)]
    | none => .fail (.noProgram index all.length)

/-- Opens the workspace and runs programs of it; gives the workspace as it was opened, how many
programs failed, and the variables in the end. -/
def runSelected (s : Settings) (program : Option Nat) : CliTask (Workspace × Nat × Store) := do
  let (w, store) ← openWorkspace s
  let selected ← select program (← programs w)
  let (failures, store) ← runAll store selected
  return (w, failures, store)

def run (s : Settings) (program : Option Nat) (dryRun : Bool) : CliTask Unit := do
  let (w, failures, store) ← runSelected s program
  if dryRun then onHost .workspace (HostTask.report .documentKept)
  else onHost .workspace ((w.capture store).save s.dataFile)
  if failures = 0 then return () else .fail (.failures failures)

def printPrograms (index : Nat) : List Json → CliTask Unit
  | [] => return ()
  | program :: rest => do
    ConsoleTask.print ("# program " ++ toString index)
    ConsoleTask.print program.pretty
    printPrograms (index + 1) rest

def showWorkspace (s : Settings) : CliTask Unit := do
  let w ← onHost .workspace (Workspace.load s.dataFile)
  printPrograms 0 w.programs
  if w.bindings.isEmpty then return ()
  else
    ConsoleTask.print "# variables"
    ConsoleTask.print (Json.object w.bindings.entries).pretty

def padRight (width : Nat) (s : String) : String :=
  s ++ String.ofList (List.replicate (width - s.length) ' ')

def hexByte (n : UInt8) : String :=
  String.ofList [Nat.digitChar (n.toNat / 16), Nat.digitChar (n.toNat % 16)]

def groupLines (group : Group Block) : List String :=
  let color := hexByte group.color.red ++ hexByte group.color.green ++ hexByte group.color.blue
  (group.name ++ " (#" ++ color ++ ")") :: group.blocks.map fun k =>
    "  " ++ padRight 10 ((Catalog.registry.codeOf? k).getD "") ++ " " ++ (describe k).summary

def printLines : List String → CliTask Unit
  | [] => return ()
  | line :: rest => do
    ConsoleTask.print line
    printLines rest

def showPalette : CliTask Unit := printLines (Catalog.registry.groups.flatMap groupLines)

def check (s : Settings) : CliTask Unit := do
  let (w, _) ← openWorkspace s
  let all ← programs w
  let blocks := all.flatten.length
  ConsoleTask.print (s.dataFile ++ ": " ++ toString all.length ++ " program(s), " ++
    toString blocks ++ " root block(s), " ++ toString w.bindings.size ++ " variable(s) OK")

def execute (home : Option String) (globals : Globals) (command : Command) : CliTask Unit := do
  let loaded ← onHost .settings (Settings.load home globals.config)
  let s := loaded.override ⟨globals.data, globals.log, globals.noConstants⟩
  match command with
  | .run program dryRun => run s program dryRun
  | .show => showWorkspace s
  | .palette => showPalette
  | .check => check s

def versionText : String := "blockwork 0.1.0"

def usageText : String :=
  "Usage: blockwork [--config CONFIG] [--data DATA] [--log LOG] [--no-constants] " ++
    "<run [-p PROGRAM] [--dry-run] | show | palette | check>"

def exitCode (task : CliTask Unit) : ConsoleTask Empty Nat :=
  match task with
  | .done () => .done 0
  | .fail error => .ask (.complain ("error: " ++ error.message)) fun _ => .done 1
  | .crash => .crash
  | .unfinished => .unfinished
  | .ask request resume => .ask request fun answer => exitCode (resume answer)

def launch (home : Option String) (args : List String) : ConsoleTask Empty Nat :=
  match parse? args with
  | some (.execute globals command) => exitCode (execute home globals command)
  | some .version => do
    ConsoleTask.print versionText
    return 0
  | some .help => do
    ConsoleTask.print usageText
    return 0
  | none => do
    ConsoleTask.complain usageText
    return 2

end BlockScript.Cli
