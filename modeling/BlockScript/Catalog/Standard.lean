import BlockScript.Block.Registry
import BlockScript.Catalog.Clock
import BlockScript.Catalog.FileBlock
import BlockScript.Catalog.ListBlock
import BlockScript.Catalog.Operation
import BlockScript.Catalog.Signal
import BlockScript.Catalog.TextBlock

/-!
The standard catalog.

The order of the groups and of the blocks in them is part of every saved document, since it gives
the codes.
-/

namespace BlockScript.Catalog

inductive Block where
  | operation (op : Operation)
  | signal (signal : Signal)
  | reading (reading : Reading)
  | file (block : FileBlock)
  | text (block : TextBlock)
  | query (query : ListQuery)
  | update (update : ListUpdate)
  | assign
  | builtin (builtin : Builtin)
deriving DecidableEq, Repr

def assignment : Behavior :=
  .statement fun args => do
    let name ← Task.ofExcept (args.text 0)
    let value ← Task.ofExcept (args.any 1)
    if ← ActionTask.replace name value then return ()
    else ActionTask.ofHost (HostTask.report .assignmentIgnored)

def Block.kind : Block → Kind
  | operation op => op.kind
  | signal s => s.kind
  | reading r => r.kind
  | file f => f.kind
  | text t => t.kind
  | query q => q.kind
  | update u => u.kind
  | assign =>
    { role := .block assignment, slots := [.text, .any], labels := ["set variable", "to", ""] }
  | builtin b => b.kind

instance : Vocabulary Block := ⟨Block.kind⟩

def operations : Group Block where
  name := "Operations"
  color := ⟨104, 157, 242⟩
  blocks := [.add, .subtract, .multiply, .divide, .remainder, .greater, .less, .round, .equal,
    .both, .either, .negate, .random].map .operation

def control : Group Block where
  name := "Control"
  color := ⟨252, 186, 3⟩
  blocks := [.builtin (.control .ifThen), .builtin (.control .ifElse),
    .builtin (.control .whileLoop), .signal .stop, .signal .wait]

def time : Group Block where
  name := "Time"
  color := ⟨56, 232, 223⟩
  blocks := [.date, .time, .year, .month, .monthName, .day, .dayName, .hour, .minutes,
    .seconds].map .reading

def system : Group Block where
  name := "System"
  color := ⟨208, 214, 209⟩
  blocks := [.signal .beep, .signal .notify]

def files : Group Block where
  name := "Files"
  color := ⟨158, 122, 109⟩
  blocks := [.read, .createFile, .createFolder, .exists?, .removeLines, .addLines].map .file

def texts : Group Block where
  name := "Text"
  color := ⟨198, 30, 123⟩
  blocks := [.join, .length, .isBlank, .contains, .substring, .split, .upper, .lower].map .text

def lists : Group Block where
  name := "Lists"
  color := ⟨223, 92, 242⟩
  blocks := [.new, .size, .isEmpty, .item, .contains].map .query ++
    [.append, .insert, .delete, .combine, .sort].map .update

def storing : Group Block where
  name := "Variables"
  color := ⟨125, 214, 15⟩
  blocks := [.assign, .builtin .reference]

def registry : Registry Block where
  groups := [operations, control, time, system, files, texts, lists, storing]
  builtin := .builtin
  describe_builtin _ := rfl

end BlockScript.Catalog
