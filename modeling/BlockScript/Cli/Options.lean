import BlockScript.Number.Reading

/-!
The command line.

Options of the whole program may stand before and after the command; after it they win.  On
either side an option stands at most once.
-/

namespace BlockScript.Cli

inductive Command where
  | run (program : Option Nat) (dryRun : Bool)
  | show
  | palette
  | check
deriving DecidableEq, Repr

structure Globals where
  config : Option String
  data : Option String
  log : Option String
  noConstants : Bool
deriving DecidableEq, Repr

def Globals.none : Globals := ⟨Option.none, Option.none, Option.none, false⟩

/-- Options given later win. -/
def Globals.merge (before after : Globals) : Globals where
  config := after.config.or before.config
  data := after.data.or before.data
  log := after.log.or before.log
  noConstants := before.noConstants || after.noConstants

inductive Invocation where
  | execute (globals : Globals) (command : Command)
  | version
  | help
deriving DecidableEq, Repr

inductive CommandName where
  | run
  | show
  | palette
  | check
deriving DecidableEq, Repr

def CommandName.ofText? : String → Option CommandName
  | "run" => some .run
  | "show" => some .show
  | "palette" => some .palette
  | "check" => some .check
  | _ => none

structure Options where
  globals : Globals
  program : Option Nat
  dryRun : Bool

def Options.none : Options := ⟨Globals.none, Option.none, false⟩

inductive Argument where
  | long (name : String) (value : Option String)
  | short (flags : List Char)
  | separator
  | word (text : String)

def Argument.ofText (text : String) : Argument :=
  match text.toList with
  | ['-'] => .word text
  | ['-', '-'] => .separator
  | '-' :: '-' :: rest =>
    let name := String.ofList (rest.takeWhile (· ≠ '='))
    match rest.dropWhile (· ≠ '=') with
    | [] => .long name none
    | _ :: value => .long name (some (String.ofList value))
  | '-' :: flags => .short flags
  | _ => .word text

/-- The value of an option: attached to it, or else the next argument if that is a word. -/
def takeValue (attached : Option String) (rest : List String) : Option (String × List String) :=
  match attached, rest with
  | some value, rest => some (value, rest)
  | none, next :: rest =>
    match Argument.ofText next with
    | .word value => some (value, rest)
    | _ => none
  | none, [] => none

def setOnce {α : Type} (old : Option α) (value : α) : Option (Option α) :=
  match old with
  | none => some (some value)
  | some _ => none

def path? (value : String) : Option String := if value.isEmpty then none else some value

inductive Progress where
  | options (options : Options) (rest : List String)
  | version
  | help

def readLong (inside : Option CommandName) (o : Options) (name : String)
    (value : Option String) (rest : List String) : Option Progress :=
  match name, inside with
  | "config", _ => do
    let (value, rest) ← takeValue value rest
    let config ← setOnce o.globals.config (← path? value)
    return .options { o with globals := { o.globals with config } } rest
  | "data", _ => do
    let (value, rest) ← takeValue value rest
    let data ← setOnce o.globals.data (← path? value)
    return .options { o with globals := { o.globals with data } } rest
  | "log", _ => do
    let (value, rest) ← takeValue value rest
    let log ← setOnce o.globals.log value
    return .options { o with globals := { o.globals with log } } rest
  | "no-constants", _ =>
    if value.isSome || o.globals.noConstants then none
    else some (.options { o with globals := { o.globals with noConstants := true } } rest)
  | "program", some .run => do
    let (value, rest) ← takeValue value rest
    let program ← setOnce o.program (← indexOfText? value)
    return .options { o with program } rest
  | "dry-run", some .run =>
    if value.isSome || o.dryRun then none else some (.options { o with dryRun := true } rest)
  | "help", _ => if value.isSome then none else some .help
  | "version", none => if value.isSome then none else some .version
  | _, _ => none

/-- Reads an option by its letter; the letter for a program takes the rest as its value. -/
def readShort (inside : Option CommandName) (o : Options) (flags : List Char)
    (rest : List String) : Option Progress :=
  match flags, inside with
  | 'h' :: _, _ => some .help
  | 'V' :: _, none => some .version
  | ['p'], some .run => readLong inside o "program" none rest
  | 'p' :: '=' :: value, some .run => readLong inside o "program" (some (String.ofList value)) rest
  | 'p' :: value, some .run => readLong inside o "program" (some (String.ofList value)) rest
  | _, _ => none

inductive Side where
  | options (options : Options) (word : Option (String × List String))
  | version
  | help

/-- Reads options up to the first word, at most `fuel` arguments. Nothing may follow a
separator. -/
def readSide (inside : Option CommandName) : Nat → Options → List String → Option Side
  | 0, _, _ => none
  | _, o, [] => some (.options o none)
  | fuel + 1, o, arg :: rest =>
    let continueWith : Option Progress → Option Side
      | some (.options o rest) => readSide inside fuel o rest
      | some .version => some .version
      | some .help => some .help
      | none => none
    match Argument.ofText arg with
    | .long name value => continueWith (readLong inside o name value rest)
    | .short flags => continueWith (readShort inside o flags rest)
    | .separator => if rest.isEmpty then some (.options o none) else none
    | .word text => some (.options o (some (text, rest)))

def command (name : CommandName) (o : Options) : Command :=
  match name with
  | .run => .run o.program o.dryRun
  | .show => .show
  | .palette => .palette
  | .check => .check

def parse? (args : List String) : Option Invocation :=
  match readSide none (args.length + 1) .none args with
  | some .version => some .version
  | some .help => some .help
  | some (.options before (some (word, rest))) =>
    match CommandName.ofText? word with
    | some name =>
      match readSide (some name) (rest.length + 1) .none rest with
      | some (.options after none) =>
        some (.execute (before.globals.merge after.globals) (command name after))
      | some .help => some .help
      | _ => none
    | none =>
      if word = "help" then
        match rest with
        | [] => some .help
        | [topic] =>
          if topic = "help" ∨ (CommandName.ofText? topic).isSome then some .help else none
        | _ => none
      else none
  | _ => none

end BlockScript.Cli
