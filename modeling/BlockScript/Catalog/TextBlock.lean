import BlockScript.Catalog.Argument
import BlockScript.Text.Case
import BlockScript.Text.Split

/-!
Text expressions; positions count characters.
-/

namespace BlockScript.Catalog

inductive TextBlock where
  | join
  | length
  | isBlank
  | contains
  | substring
  | split
  | upper
  | lower
deriving DecidableEq, Repr

namespace TextBlock

def cut (s : String) (start stop : Int64) : Except BehaviorError String := do
  let stop ← boundary stop s.length
  let start ← boundary start stop
  return String.ofList ((s.toList.take stop).drop start)

def compute (args : Arguments) : TextBlock → Except BehaviorError Value
  | join => do
    let s ← args.text 0
    let t ← args.text 1
    return .text (s ++ t)
  | length => return .integer (Int64.ofNat (← args.text 0).length)
  | isBlank => return .boolean (← args.text 0).isEmpty
  | contains => do
    let s ← args.text 0
    let part ← args.text 1
    return .boolean (Text.occursIn part.toList s.toList)
  | substring => do
    let s ← args.text 0
    let start ← args.integer 1
    let stop ← args.integer 2
    return .text (← cut s start stop)
  | split => do
    let s ← args.text 0
    let separator ← args.text 1
    return .list ((Text.split s separator).map .text)
  | upper => return .text (Text.upper (← args.text 0))
  | lower => return .text (Text.lower (← args.text 0))

def slots : TextBlock → List SlotKind
  | join | contains | split => [.text, .text]
  | substring => [.text, .integer, .integer]
  | length | isBlank | upper | lower => [.text]

def labels : TextBlock → List String
  | join => ["", "+", ""]
  | length => ["length of", ""]
  | isBlank => ["is", "blank"]
  | contains => ["", "contains", ""]
  | substring => ["substring", "from", "to", ""]
  | split => ["split", "with", ""]
  | upper => ["upper case", ""]
  | lower => ["lower case", ""]

def kind (block : TextBlock) : Kind where
  role := .block (computing fun args => block.compute args)
  slots := block.slots
  labels := block.labels
  labels_length := by cases block <;> rfl

end TextBlock

end BlockScript.Catalog
