import BlockScript.Block.Kind
import BlockScript.Value.Conversion

/-!
Typed access to the arguments of a block.

Arguments come converted to the kinds of their slots, so that the accessors fail only for slots of
any kind, or where a block is called with other arguments than its slots give.
-/

namespace BlockScript

namespace Arguments

abbrev Checked (α : Type) := Except BehaviorError α

def any (args : Arguments) (index : Nat) : Checked Value :=
  match args[index]? with
  | some value => .ok value
  | none => .error (.missingArgument index)

def ofKind {α : Type} (expected : ValueKind) (read? : Value → Option α) (args : Arguments)
    (index : Nat) : Checked α := do
  let value ← args.any index
  match read? value with
  | some a => .ok a
  | none => .error (.argumentKind index expected value.kind)

def real : Arguments → Nat → Checked Binary64 := ofKind .real Value.asReal?

def integer : Arguments → Nat → Checked Int64 := ofKind .integer Value.asInteger?

def boolean : Arguments → Nat → Checked Bool := ofKind .boolean Value.asBoolean?

def text : Arguments → Nat → Checked String := ofKind .text Value.asText?

def list : Arguments → Nat → Checked (List Value) := ofKind .list Value.asList?

end Arguments

namespace Catalog

def position (index : Int64) (length : Nat) : Except BehaviorError Nat :=
  if 0 ≤ index.toInt ∧ index.toInt < length then .ok index.toInt.toNat
  else .error (.failed (.indexOutOfRange index length))

/-- A position up to `length`, the end included. -/
def boundary (index : Int64) (length : Nat) : Except BehaviorError Nat :=
  if 0 ≤ index.toInt ∧ index.toInt ≤ length then .ok index.toInt.toNat
  else .error (.failed (.indexOutOfRange index length))

def computing (f : Arguments → Except BehaviorError Value) : Behavior :=
  .expression fun args => Task.ofExcept (f args)

end Catalog

end BlockScript
