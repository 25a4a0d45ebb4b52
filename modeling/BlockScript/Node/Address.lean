import BlockScript.Node.Basic

/-!
Addresses in a program.

A path leads from a root through slots and statement lists to a node.  An address names a slot, or
a position in the list of roots or in a statement list.  Edits at an address that does not exist
change nothing.

Reading follows a path by `child?`.  Editing has a walk of its own, by `focusChild?`, which also
gives what becomes of the node when the child is changed.
-/

namespace BlockScript

inductive Step where
  | slot (slot : Nat)
  | body (body position : Nat)
deriving DecidableEq, Repr

structure NodePath where
  root : Nat
  steps : List Step
deriving DecidableEq, Repr

inductive Address where
  | slot (node : NodePath) (slot : Nat)
  | root (position : Nat)
  | body (node : NodePath) (body position : Nat)
deriving DecidableEq, Repr

variable {κ β : Type}

namespace Node

def child? (n : Node κ) : Step → Option (Node κ)
  | .slot slot => do (← n.inputs[slot]?).asNode?
  | .body body position => do (← n.bodies[body]?)[position]?

def follow? : List Step → Node κ → Option (Node κ)
  | [], n => some n
  | step :: rest, n => do follow? rest (← n.child? step)

/-- The input of a slot, and the node with another one in its place. -/
def focusInput? (slot : Nat) : Node κ → Option (Input κ × (Input κ → Node κ))
  | block k inputs => do return (← inputs[slot]?, fun input => block k (inputs.set slot input))
  | control k inputs bodies => do
    return (← inputs[slot]?, fun input => control k (inputs.set slot input) bodies)
  | _ => none

def focusBody? (body : Nat) : Node κ → Option (List (Node κ) × (List (Node κ) → Node κ))
  | control k inputs bodies => do
    return (← bodies[body]?, fun list => control k inputs (bodies.set body list))
  | _ => none

def focusChild? (n : Node κ) : Step → Option (Node κ × (Node κ → Node κ))
  | .slot slot => do
    let (input, put) ← n.focusInput? slot
    return (← input.asNode?, fun child => put (.node child))
  | .body body position => do
    let (list, put) ← n.focusBody? body
    return (← list[position]?, fun child => put (list.set position child))

def edit? (f : Node κ → Option (β × Node κ)) : List Step → Node κ → Option (β × Node κ)
  | [], n => f n
  | step :: rest, n => do
    let (child, put) ← n.focusChild? step
    let (result, child) ← edit? f rest child
    return (result, put child)

def replaceInput? (slot : Nat) (input : Input κ) (n : Node κ) : Option (Input κ × Node κ) := do
  let (old, put) ← n.focusInput? slot
  return (old, put input)

def editBody? (body : Nat) (f : List (Node κ) → Option (β × List (Node κ))) (n : Node κ) :
    Option (β × Node κ) := do
  let (list, put) ← n.focusBody? body
  let (result, list) ← f list
  return (result, put list)

end Node

namespace NodePath

def resolve? (path : NodePath) (roots : List (Node κ)) : Option (Node κ) := do
  (← roots[path.root]?).follow? path.steps

def edit? (path : NodePath) (f : Node κ → Option (β × Node κ)) (roots : List (Node κ)) :
    Option (β × List (Node κ)) := do
  let (result, root) ← (← roots[path.root]?).edit? f path.steps
  return (result, roots.set path.root root)

end NodePath

def splice? (position : Nat) (nodes list : List (Node κ)) : Option (Unit × List (Node κ)) :=
  if position ≤ list.length then some ((), list.take position ++ nodes ++ list.drop position)
  else none

def extract? (position : Nat) (list : List (Node κ)) : Option (Node κ × List (Node κ)) := do
  let n ← list[position]?
  return (n, list.eraseIdx position)

namespace Address

def isPosition : Address → Bool
  | slot _ _ => false
  | _ => true

def read? (roots : List (Node κ)) : Address → Option (Input κ)
  | slot path i => do (← path.resolve? roots).inputs[i]?
  | root position => do return .node (← roots[position]?)
  | body path i position => do
    return .node (← (← (← path.resolve? roots).bodies[i]?)[position]?)

def editList? (f : Nat → List (Node κ) → Option (β × List (Node κ))) (roots : List (Node κ)) :
    Address → Option (β × List (Node κ))
  | slot _ _ => none
  | root position => f position roots
  | body path i position => path.edit? (Node.editBody? i (f position)) roots

/-- The result of an edit and the roots afterwards, which stay as they are if there is none. -/
def settle (roots : List (Node κ)) : Option (β × List (Node κ)) → Option β × List (Node κ)
  | some (result, roots) => (some result, roots)
  | none => (none, roots)

def write (roots : List (Node κ)) (input : Input κ) : Address → Option (Input κ) × List (Node κ)
  | slot path i => settle roots (path.edit? (Node.replaceInput? i input) roots)
  | _ => (none, roots)

def insert (roots nodes : List (Node κ)) (address : Address) : Bool × List (Node κ) :=
  let (result, roots) :=
    settle roots (address.editList? (fun position => splice? position nodes) roots)
  (result.isSome, roots)

def delete (roots : List (Node κ)) (address : Address) : Option (Node κ) × List (Node κ) :=
  settle roots (address.editList? extract? roots)

end Address

end BlockScript
