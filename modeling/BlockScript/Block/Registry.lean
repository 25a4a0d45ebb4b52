import BlockScript.Block.Kind

/-!
The registry: kinds in groups, addressed by code.

The code of a kind is the index of its group and its position there, or the word for variable
references.  `resolve?` reads codes and `codeOf?` writes the code of the first place where a kind
is registered.
-/

namespace BlockScript

structure Color where
  red : UInt8
  green : UInt8
  blue : UInt8
deriving DecidableEq, Repr

structure Group (κ : Type) where
  name : String
  color : Color
  blocks : List κ

structure Registry (κ : Type) [Vocabulary κ] where
  groups : List (Group κ)
  builtin : Builtin → κ
  describe_builtin : ∀ b, describe (builtin b) = b.kind

namespace Registry

def referenceCode : String := "variable"

def positionCode (group block : Nat) : String := toString group ++ "." ++ toString block

def cutAtPoint? (code : String) : Option (String × String) :=
  match code.toList.dropWhile (· ≠ '.') with
  | _ :: after => some (String.ofList (code.toList.takeWhile (· ≠ '.')), String.ofList after)
  | [] => none

/-- The position that a code names. It may be any two naturals; where they lie outside the groups
there is no kind. -/
def readPosition? (code : String) : Option (Nat × Nat) := do
  let (group, block) ← cutAtPoint? code
  return (← naturalOfText? group, ← naturalOfText? block)

variable {κ : Type} [Vocabulary κ]

def at? (registry : Registry κ) (group block : Nat) : Option κ := do
  let group ← registry.groups[group]?
  group.blocks[block]?

/-- The kind that a code names; the word for variable references is read in any ASCII case. -/
def resolve? (registry : Registry κ) (code : String) : Option κ :=
  if lowerAscii code.toList = referenceCode.toList then some (registry.builtin .reference)
  else do
    let (group, block) ← readPosition? code
    registry.at? group block

def locate? [DecidableEq κ] (k : κ) (index : Nat) : List (Group κ) → Option (Nat × Nat)
  | [] => none
  | group :: rest =>
    match group.blocks.idxOf? k with
    | some block => some (index, block)
    | none => locate? k (index + 1) rest

def codeOf? [DecidableEq κ] (registry : Registry κ) (k : κ) : Option String :=
  if (describe k).category = .reference then some referenceCode
  else (locate? k 0 registry.groups).map fun (group, block) => positionCode group block

def paletteCode (k : κ) (group block : Nat) : String :=
  if (describe k).category = .reference then referenceCode else positionCode group block

def palette (registry : Registry κ) : List (String × κ) :=
  registry.groups.zipIdx.flatMap fun (group, g) =>
    group.blocks.zipIdx.map fun (k, b) => (paletteCode k g b, k)

end Registry

end BlockScript
