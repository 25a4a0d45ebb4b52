import BlockScript.Catalog.Argument

/-!
List expressions, and statements that change a list variable.

A statement reads the variable, converts it to a list, and replaces it by the changed list; two
separate requests, so that another program may act in between.
-/

namespace BlockScript.Catalog

inductive ListQuery where
  | new
  | size
  | isEmpty
  | item
  | contains
deriving DecidableEq, Repr

namespace ListQuery

def compute (args : Arguments) : ListQuery → Except BehaviorError Value
  | new => return .list []
  | size => return .integer (Int64.ofNat (← args.list 0).length)
  | isEmpty => return .boolean (← args.list 0).isEmpty
  | item => do
    let items ← args.list 1
    let index ← args.integer 0
    let place ← position index items.length
    return items.getD place default
  | contains => do
    let items ← args.list 0
    let value ← args.any 1
    return .boolean (items.any (·.equal value))

def slots : ListQuery → List SlotKind
  | new => []
  | size | isEmpty => [.list]
  | item => [.integer, .list]
  | contains => [.list, .any]

def labels : ListQuery → List String
  | new => ["new list"]
  | size => ["size of", ""]
  | isEmpty => ["is", "empty"]
  | item => ["get item", "of", ""]
  | contains => ["list", "contains", ""]

def kind (query : ListQuery) : Kind where
  role := .block (computing fun args => query.compute args)
  slots := query.slots
  labels := query.labels
  labels_length := by cases query <;> rfl

end ListQuery

inductive ListUpdate where
  | append
  | insert
  | delete
  | combine
  | sort
deriving DecidableEq, Repr

inductive ListChange where
  | append (item : Value)
  | insert (item : Value) (index : Int64)
  | delete (index : Int64)
  | combine (tail : List Value)
  | sort

/-- The changed list. A list whose order contradicts itself cannot be sorted, and the program does
not outlive the attempt. -/
def ListChange.apply (items : List Value) : ListChange → ActionTask BehaviorError (List Value)
  | append item => return items ++ [item]
  | insert item index => do
    let place ← Task.ofExcept (boundary index items.length)
    return items.insertIdx place item
  | delete index => do
    let place ← Task.ofExcept (position index items.length)
    return items.eraseIdx place
  | combine tail => return items ++ tail
  | sort =>
    match Value.sort items with
    | .ok (some sorted) => return sorted
    | .ok none => .crash
    | .error e => .fail (.failed (.unsortable e))

namespace ListUpdate

def change (args : Arguments) : ListUpdate → Except BehaviorError (ListChange × String)
  | append => do
    let item ← args.any 0
    let name ← args.text 1
    return (.append item, name)
  | insert => do
    let item ← args.any 0
    let index ← args.integer 1
    let name ← args.text 2
    return (.insert item index, name)
  | delete => do
    let index ← args.integer 0
    let name ← args.text 1
    return (.delete index, name)
  | combine => do
    let tail ← args.list 1
    let name ← args.text 0
    return (.combine tail, name)
  | sort => do
    let name ← args.text 0
    return (.sort, name)

def perform (change : ListChange) (name : String) : ActionTask BehaviorError Unit := do
  match ← ActionTask.get name with
  | none => .fail (.failed (.noListVariable name))
  | some value =>
    let items ← change.apply value.toList
    let _ ← ActionTask.replace name (.list items)
    return ()

def slots : ListUpdate → List SlotKind
  | append => [.any, .text]
  | insert => [.any, .integer, .text]
  | delete => [.integer, .text]
  | combine => [.text, .list]
  | sort => [.text]

def labels : ListUpdate → List String
  | append => ["add", "to list", ""]
  | insert => ["insert", "at", "in", ""]
  | delete => ["delete item", "of", ""]
  | combine => ["combine lists", "and", ""]
  | sort => ["sort list", ""]

def behavior (update : ListUpdate) : Behavior :=
  .statement fun args => do
    let (change, name) ← Task.ofExcept (update.change args)
    perform change name

def kind (update : ListUpdate) : Kind where
  role := .block update.behavior
  slots := update.slots
  labels := update.labels
  labels_length := by cases update <;> rfl

end ListUpdate

end BlockScript.Catalog
