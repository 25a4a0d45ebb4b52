import BlockScript.Catalog.Argument
import BlockScript.Number.Arithmetic

/-!
Arithmetic, comparison and logic.
-/

namespace BlockScript.Catalog

inductive Operation where
  | add
  | subtract
  | multiply
  | divide
  | remainder
  | greater
  | less
  | round
  | equal
  | both
  | either
  | negate
  | random
deriving DecidableEq, Repr

namespace Operation

def onReals (f : Binary64 → Binary64 → Value) : Behavior :=
  computing fun args => do
    let x ← args.real 0
    let y ← args.real 1
    return f x y

def behavior : Operation → Behavior
  | add => onReals fun x y => .real (x + y)
  | subtract => onReals fun x y => .real (x - y)
  | multiply => onReals fun x y => .real (x * y)
  | divide => onReals fun x y => .real (x / y)
  | remainder => onReals fun x y => .real (x % y)
  | greater => onReals fun x y => .boolean (y.less x)
  | less => onReals fun x y => .boolean (x.less y)
  | round => computing fun args => return .integer (← args.real 0).roundHalfUp
  | equal => computing fun args => do
    let x ← args.any 0
    let y ← args.any 1
    return .boolean (x.equal y)
  -- The second operand is looked at only if the first does not decide.
  | both => computing fun args => do
    if ← args.boolean 0 then return .boolean (← args.boolean 1) else return .boolean false
  | either => computing fun args => do
    if ← args.boolean 0 then return .boolean true else return .boolean (← args.boolean 1)
  | negate => computing fun args => return .boolean !(← args.boolean 0)
  | random => .expression fun args => do
    let low ← Task.ofExcept (args.real 0)
    let high ← Task.ofExcept (args.real 1)
    let share ← HostTask.chance
    return .real (share * (high - low) + low)

def between (slot : SlotKind) (mark : String) (behavior : Behavior) : Kind where
  role := .block behavior
  slots := [slot, slot]
  labels := ["", mark, ""]

def kind (op : Operation) : Kind :=
  let behavior := op.behavior
  match op with
  | add => between .real "+" behavior
  | subtract => between .real "-" behavior
  | multiply => between .real "*" behavior
  | divide => between .real "/" behavior
  | remainder => between .real "mod" behavior
  | greater => between .real ">" behavior
  | less => between .real "<" behavior
  | round => { role := .block behavior, slots := [.real], labels := ["round", ""] }
  | equal => between .any "=" behavior
  | both => between .boolean "and" behavior
  | either => between .boolean "or" behavior
  | negate => { role := .block behavior, slots := [.boolean], labels := ["not", ""] }
  | random =>
    { role := .block behavior, slots := [.real, .real], labels := ["random from", "to", ""] }

end Operation

end BlockScript.Catalog
