import BlockScript.Block.Behavior
import BlockScript.Text.Quoted

/-!
Kinds of blocks.

A kind has slots for its inputs, labels around them, and a role in a program.  The control flow
blocks, the variable reference, the declaration marker and the preview are built in; statements
and expressions bring their behavior along.
-/

namespace BlockScript

inductive Flow where
  | ifThen
  | ifElse
  | whileLoop
deriving DecidableEq, Repr

def Flow.bodyCount : Flow → Nat
  | ifThen | whileLoop => 1
  | ifElse => 2

inductive Category where
  | statement
  | expression
  | control (flow : Flow)
  | reference
  | declaration
  | shadow
deriving DecidableEq, Repr

namespace Category

def name : Category → String
  | statement => "Statement"
  | expression => "Expression"
  | control .ifThen => "If"
  | control .ifElse => "IfElse"
  | control .whileLoop => "While"
  | reference => "Variable"
  | declaration => "VariableDeclaration"
  | shadow => "Shadow"

def isControl : Category → Bool
  | control _ => true
  | _ => false

def isField : Category → Bool
  | expression | reference => true
  | _ => false

def bodyCount : Category → Nat
  | control flow => flow.bodyCount
  | _ => 0

end Category

inductive Builtin where
  | control (flow : Flow)
  | reference
  | declaration
  | shadow
deriving DecidableEq, Repr

def Builtin.category : Builtin → Category
  | control flow => .control flow
  | reference => .reference
  | declaration => .declaration
  | shadow => .shadow

def Category.builtin? : Category → Option Builtin
  | control flow => some (.control flow)
  | reference => some .reference
  | declaration => some .declaration
  | shadow => some .shadow
  | statement | expression => none

inductive Role where
  | block (behavior : Behavior)
  | builtin (builtin : Builtin)

structure Kind where
  role : Role
  slots : List SlotKind
  labels : List String
  labels_length : labels.length = slots.length + 1 := by rfl

inductive KindError where
  | labelCount (slots : Nat) (labels : List String)
deriving DecidableEq, Repr

def KindError.message : KindError → String
  | labelCount slots labels =>
    "invalid block descriptor: " ++ toString slots ++ " slots need " ++ toString (slots + 1) ++
      " labels, got " ++ toString labels.length ++ " (" ++ Text.quotedList labels ++ ")"

namespace Kind

def ofBehavior (behavior : Behavior) (slots : List SlotKind) (labels : List String) :
    Except KindError Kind :=
  if h : labels.length = slots.length + 1 then .ok ⟨.block behavior, slots, labels, h⟩
  else .error (.labelCount slots.length labels)

def category (kind : Kind) : Category :=
  match kind.role with
  | .block (.statement _) => .statement
  | .block (.expression _) => .expression
  | .builtin builtin => builtin.category

def behavior? (kind : Kind) : Option Behavior :=
  match kind.role with
  | .block behavior => some behavior
  | .builtin _ => none

def summaryParts : List String → List SlotKind → List String
  | label :: labels, slot :: slots =>
    let rest := ("<" ++ slot.name ++ ">") :: summaryParts labels slots
    if label.isEmpty then rest else label :: rest
  | labels, _ => labels.filter (!·.isEmpty)

def summary (kind : Kind) : String := " ".intercalate (summaryParts kind.labels kind.slots)

end Kind

def Builtin.kind : Builtin → Kind
  | b@(control .whileLoop) => { role := .builtin b, slots := [.boolean], labels := ["while", ""] }
  | b@(control .ifThen) => { role := .builtin b, slots := [.boolean], labels := ["if", ""] }
  | b@(control .ifElse) => { role := .builtin b, slots := [.boolean], labels := ["if", ""] }
  | declaration => { role := .builtin declaration, slots := [], labels := ["Create variable"] }
  | b@reference => { role := .builtin b, slots := [], labels := [""] }
  | b@shadow => { role := .builtin b, slots := [], labels := [""] }

/-- A vocabulary names kinds: two blocks are of the same kind when they have the same name. -/
class Vocabulary (κ : Type) where
  describe : κ → Kind

export Vocabulary (describe)

end BlockScript
