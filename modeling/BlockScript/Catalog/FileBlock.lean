import BlockScript.Catalog.Argument
import BlockScript.Text.Lines

/-!
Blocks that read and write text files.

What the surroundings refuse is reported and otherwise passed over; line numbers outside the file
fail the block and leave the file alone.
-/

namespace BlockScript.Catalog

inductive FileBlock where
  | read
  | createFile
  | createFolder
  | exists?
  | removeLines
  | addLines
deriving DecidableEq, Repr

inductive LineEdit where
  | remove (start stop : Int64)
  | add (added : List String) (index : Int64)

def LineEdit.apply (lines : List String) : LineEdit → Except BehaviorError (List String)
  | remove start stop => do
    let stop ← boundary stop lines.length
    let start ← boundary start stop
    return lines.take start ++ lines.drop stop
  | add added index => do
    let place ← boundary index lines.length
    return lines.take place ++ added ++ lines.drop place

namespace FileBlock

def reportUnless (event : Event) (success : Bool) : HostTask BehaviorError Unit :=
  if success then return () else HostTask.report event

def readFile (path : String) : HostTask BehaviorError Value := do
  match ← HostTask.readText path with
  | some content => return .list ((Text.readLines content).map .text)
  | none =>
    HostTask.report .readFailed
    return .list []

def editFile (path : String) (edit : LineEdit) : HostTask BehaviorError Unit := do
  match ← HostTask.readText path with
  | none => HostTask.report .cannotRead
  | some content =>
    let lines ← Task.ofExcept (edit.apply (Text.readLines content))
    reportUnless .cannotWrite (← HostTask.writeText path (Text.writeLines lines))

def statement (f : Arguments → HostTask BehaviorError Unit) : Behavior :=
  .statement fun args => ActionTask.ofHost (f args)

def behavior : FileBlock → Behavior
  | read => .expression fun args => do
    let path ← Task.ofExcept (args.text 0)
    readFile path
  | createFile => statement fun args => do
    let path ← Task.ofExcept (args.text 0)
    reportUnless .createFileFailed (← HostTask.createFile path)
  | createFolder => statement fun args => do
    let path ← Task.ofExcept (args.text 0)
    reportUnless .createFolderFailed (← HostTask.createFolder path)
  | exists? => .expression fun args => do
    let path ← Task.ofExcept (args.text 0)
    return .boolean (← HostTask.pathExists path)
  | removeLines => statement fun args => do
    let start ← Task.ofExcept (args.integer 0)
    let stop ← Task.ofExcept (args.integer 1)
    let path ← Task.ofExcept (args.text 2)
    editFile path (.remove start stop)
  | addLines => statement fun args => do
    let added ← Task.ofExcept (args.list 0)
    let index ← Task.ofExcept (args.integer 1)
    let path ← Task.ofExcept (args.text 2)
    editFile path (.add (added.map Value.display) index)

def slots : FileBlock → List SlotKind
  | read | createFile | createFolder | exists? => [.text]
  | removeLines => [.integer, .integer, .text]
  | addLines => [.list, .integer, .text]

def labels : FileBlock → List String
  | read => ["read file", ""]
  | createFile => ["create file", ""]
  | createFolder => ["create folder", ""]
  | exists? => ["file", "exists"]
  | removeLines => ["remove lines", "to", "in file", ""]
  | addLines => ["add lines", "at", "in file", ""]

def kind (block : FileBlock) : Kind where
  role := .block block.behavior
  slots := block.slots
  labels := block.labels
  labels_length := by cases block <;> rfl

end FileBlock

end BlockScript.Catalog
