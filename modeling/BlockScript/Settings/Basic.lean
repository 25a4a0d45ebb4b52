import BlockScript.Files.Pathname
import BlockScript.Host
import BlockScript.Settings.Toml

/-!
Settings of the command line program.

They come from a file in the user's application folder, or one named explicitly, and are then
overridden by the command line.
-/

namespace BlockScript

structure Settings where
  dataFile : String
  log : String
  seedConstants : Bool
deriving DecidableEq, Repr

structure Overrides where
  dataFile : Option String
  log : Option String
  noConstants : Bool
deriving DecidableEq, Repr

inductive SettingsError where
  | unreadable (path : String)
  | invalid (path : Option String)
deriving DecidableEq, Repr

def SettingsError.message : SettingsError → String
  | unreadable path => "cannot read config " ++ path
  | invalid none => "invalid configuration"
  | invalid (some path) => "in " ++ path ++ ": invalid configuration"

namespace Settings

def folder (home : Option String) : String := Pathname.join (home.getD "") ".blockwork"

def initial (home : Option String) : Settings where
  dataFile := Pathname.join (folder home) "data.json"
  log := "info"
  seedConstants := true

def set? (s : Settings) : String × Toml.Scalar → Option Settings
  | ("data_file", .string path) => some { s with dataFile := path }
  | ("log", .string log) => some { s with log }
  | ("seed_constants", .boolean seedConstants) => some { s with seedConstants }
  | _ => none

def ofText? (home : Option String) (text : String) : Option Settings := do
  let pairs ← Toml.parse? text
  if (pairs.map (·.1)).Nodup then pairs.foldlM set? (initial home) else none

def parse (home : Option String) (text : String) : Except SettingsError Settings :=
  match ofText? home text with
  | some s => .ok s
  | none => .error (.invalid none)

def loadFile (home : Option String) (path : String) : HostTask SettingsError Settings := do
  match ← HostTask.readText path with
  | none => .fail (.unreadable path)
  | some text =>
    match ofText? home text with
    | some s => return s
    | none => .fail (.invalid (some path))

def load (home : Option String) (path : Option String) : HostTask SettingsError Settings := do
  match path with
  | some path => loadFile home path
  | none =>
    let usual := Pathname.join (folder home) "config.toml"
    if ← HostTask.pathExists usual then loadFile home usual else return initial home

def override (s : Settings) (o : Overrides) : Settings where
  dataFile := o.dataFile.getD s.dataFile
  log := o.log.getD s.log
  seedConstants := s.seedConstants && !o.noConstants

end Settings

end BlockScript
