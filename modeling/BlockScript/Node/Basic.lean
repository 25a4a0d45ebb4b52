import BlockScript.Block.Kind
import BlockScript.Value.Conversion

/-!
Placed blocks.

A node pairs a kind with what a block of that kind holds: inputs, statement lists, a variable's
name, or a preview.  `Node.fits` says that the two go together; `Node.wellFormed` says so of a
whole tree.
-/

namespace BlockScript

mutual

inductive Node (κ : Type) where
  | block (kind : κ) (inputs : List (Input κ))
  | control (kind : κ) (inputs : List (Input κ)) (bodies : List (List (Node κ)))
  | reference (kind : κ) (name : String)
  | declaration (kind : κ)
  | shadow (kind : κ) (shadowed : Option (Node κ)) (covered : Option (Input κ))

inductive Input (κ : Type) where
  | literal (value : Value)
  | node (node : Node κ)

end

namespace Input

variable {κ : Type}

instance : Inhabited (Input κ) := ⟨literal default⟩

def asNode? : Input κ → Option (Node κ)
  | literal _ => none
  | node n => some n

end Input

namespace Node

variable {κ : Type}

def kind : Node κ → κ
  | block k _ | control k _ _ | reference k _ | declaration k | shadow k _ _ => k

def inputs : Node κ → List (Input κ)
  | block _ inputs | control _ inputs _ => inputs
  | _ => []

def bodies : Node κ → List (List (Node κ))
  | control _ _ bodies => bodies
  | _ => []

def isShadow : Node κ → Bool
  | shadow .. => true
  | _ => false

def variableName? : Node κ → Option String
  | reference _ name => some name
  | _ => none

def shadowed? : Node κ → Option (Node κ)
  | shadow _ shadowed _ => shadowed
  | _ => none

def covered? : Node κ → Option (Input κ)
  | shadow _ _ covered => covered
  | _ => none

def setInput (slot : Nat) (input : Input κ) : Node κ → Node κ
  | block k inputs => block k (inputs.set slot input)
  | control k inputs bodies => control k (inputs.set slot input) bodies
  | n => n

def setBody (index : Nat) (body : List (Node κ)) : Node κ → Node κ
  | control k inputs bodies => control k inputs (bodies.set index body)
  | n => n

def rename? (name : String) : Node κ → Option (Node κ)
  | reference k _ => some (reference k name)
  | _ => none

section
variable [Vocabulary κ]

def category (n : Node κ) : Category := (describe n.kind).category

def fresh (k : κ) : Node κ :=
  let inputs := (describe k).slots.map fun slot => Input.literal slot.default
  match (describe k).category with
  | .statement | .expression => block k inputs
  | .control flow => control k inputs (List.replicate flow.bodyCount [])
  | .reference => reference k ""
  | .declaration => declaration k
  | .shadow => shadow k none none

/-- A preview of a node, covering an input. It shows a fresh copy, which keeps the name of a
variable; markers and previews are not shown. -/
def preview (k : κ) (of : Node κ) (covered : Option (Input κ)) : Node κ :=
  let shadowed := match of with
    | block k _ | control k _ _ => some (fresh k)
    | reference k name => some (reference k name)
    | declaration _ | shadow _ _ _ => none
  shadow k shadowed covered

def fits (n : Node κ) : Bool :=
  let k := describe n.kind
  match n, k.category with
  | block _ inputs, .statement | block _ inputs, .expression => inputs.length == k.slots.length
  | control _ inputs bodies, .control flow =>
    inputs.length == k.slots.length && bodies.length == flow.bodyCount
  | reference _ _, .reference => true
  | declaration _, .declaration => true
  | shadow _ _ _, .shadow => true
  | _, _ => false

def checked? (n : Node κ) : Option (Node κ) := if n.fits then some n else none

mutual

def wellFormed : Node κ → Bool
  | n@(block _ inputs) => n.fits && inputsWellFormed inputs
  | n@(control _ inputs bodies) =>
    n.fits && inputsWellFormed inputs && bodiesWellFormed bodies
  | n@(reference _ _) => n.fits
  | n@(declaration _) => n.fits
  | n@(shadow _ shadowed covered) =>
    n.fits && shadowedWellFormed shadowed && coveredWellFormed covered

def inputWellFormed : Input κ → Bool
  | .literal _ => true
  | .node n => wellFormed n

def inputsWellFormed : List (Input κ) → Bool
  | [] => true
  | input :: rest => inputWellFormed input && inputsWellFormed rest

def listWellFormed : List (Node κ) → Bool
  | [] => true
  | n :: rest => wellFormed n && listWellFormed rest

def bodiesWellFormed : List (List (Node κ)) → Bool
  | [] => true
  | body :: rest => listWellFormed body && bodiesWellFormed rest

def shadowedWellFormed : Option (Node κ) → Bool
  | none => true
  | some n => wellFormed n

def coveredWellFormed : Option (Input κ) → Bool
  | none => true
  | some input => inputWellFormed input

end

end

/-! ## Equality -/

section
variable [DecidableEq κ]

mutual

def equal : Node κ → Node κ → Bool
  | block k xs, block l ys => k = l && equalInputs xs ys
  | control k xs bs, control l ys cs => k = l && equalInputs xs ys && equalBodies bs cs
  | reference k s, reference l t => k = l && s == t
  | declaration k, declaration l => k = l
  | shadow k m x, shadow l n y => k = l && equalShadowed m n && equalCovered x y
  | _, _ => false

def equalInput : Input κ → Input κ → Bool
  | .literal v, .literal w => v.equal w
  | .node m, .node n => equal m n
  | _, _ => false

def equalInputs : List (Input κ) → List (Input κ) → Bool
  | [], [] => true
  | x :: xs, y :: ys => equalInput x y && equalInputs xs ys
  | _, _ => false

def equalList : List (Node κ) → List (Node κ) → Bool
  | [], [] => true
  | m :: ms, n :: ns => equal m n && equalList ms ns
  | _, _ => false

def equalBodies : List (List (Node κ)) → List (List (Node κ)) → Bool
  | [], [] => true
  | b :: bs, c :: cs => equalList b c && equalBodies bs cs
  | _, _ => false

def equalShadowed : Option (Node κ) → Option (Node κ) → Bool
  | none, none => true
  | some m, some n => equal m n
  | _, _ => false

def equalCovered : Option (Input κ) → Option (Input κ) → Bool
  | none, none => true
  | some x, some y => equalInput x y
  | _, _ => false

end

end

end Node

end BlockScript
