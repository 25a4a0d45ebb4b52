import BlockScript.Proofs.Document.RoundTrip
import BlockScript.Run.Evaluation

/-!
# References of one kind

A document does not tell kinds of variable references apart, and neither does evaluation.  `adopt`
gives all references of a tree the kind that they are read with; the tree has the same document as
before (`writeNode_adopt`) and evaluates in the same way (`evaluate_adopt`), and can be loaded
(`every_adopt`).
-/

namespace BlockScript

variable {κ : Type}

namespace Node

mutual

def adopt (own : κ) : Node κ → Node κ
  | block k inputs => block k (adoptInputs own inputs)
  | control k inputs bodies => control k (adoptInputs own inputs) (adoptBodies own bodies)
  | reference _ name => reference own name
  | declaration k => declaration k
  | shadow k _ covered => shadow k none (adoptCovered own covered)

def adoptInput (own : κ) : Input κ → Input κ
  | .literal value => .literal value
  | .node n => .node (adopt own n)

def adoptInputs (own : κ) : List (Input κ) → List (Input κ)
  | [] => []
  | input :: rest => adoptInput own input :: adoptInputs own rest

def adoptList (own : κ) : List (Node κ) → List (Node κ)
  | [] => []
  | n :: rest => adopt own n :: adoptList own rest

def adoptBodies (own : κ) : List (List (Node κ)) → List (List (Node κ))
  | [] => []
  | body :: rest => adoptList own body :: adoptBodies own rest

def adoptCovered (own : κ) : Option (Input κ) → Option (Input κ)
  | none => none
  | some input => some (adoptInput own input)

end

variable {own : κ}

theorem adoptInputs_eq_map (inputs : List (Input κ)) :
    adoptInputs own inputs = inputs.map (adoptInput own) := by
  induction inputs with
  | nil => simp [adoptInputs]
  | cons input rest ih => simp [adoptInputs, ih]

theorem adoptList_eq_map (nodes : List (Node κ)) :
    adoptList own nodes = nodes.map (adopt own) := by
  induction nodes with
  | nil => simp [adoptList]
  | cons n rest ih => simp [adoptList, ih]

theorem adoptBodies_eq_map (bodies : List (List (Node κ))) :
    adoptBodies own bodies = bodies.map fun body => body.map (adopt own) := by
  induction bodies with
  | nil => simp [adoptBodies]
  | cons body rest ih => simp [adoptBodies, adoptList_eq_map, ih]

theorem exists_of_adoptCovered {covered : Option (Input κ)} {n : Node κ}
    (adopted : adoptCovered own covered = some (.node n)) : ∃ m, covered = some (.node m) := by
  rcases covered with _ | _ | m
  · cases adopted
  · cases adopted
  · exact ⟨m, rfl⟩

section
variable [Vocabulary κ]

theorem fits_adopt (reference : (describe own).category = .reference) {n : Node κ}
    (fits : n.fits = true) : (n.adopt own).fits = true := by
  cases n with
  | block k inputs =>
      rw [← fits, adopt]
      simp only [Node.fits, kind, adoptInputs_eq_map]
      cases (describe k).category <;> simp only [List.length_map]
  | control k inputs bodies =>
      rw [← fits, adopt]
      simp only [Node.fits, kind, adoptInputs_eq_map, adoptBodies_eq_map]
      cases (describe k).category <;> simp only [List.length_map]
  | reference k name => simp [adopt, Node.fits, kind, reference]
  | declaration k => exact fits
  | shadow k shadowed covered =>
      rw [← fits, adopt]
      simp only [Node.fits, kind]
      cases (describe k).category <;> rfl

theorem every_adopt (registry : Registry κ) (n : Node κ) (wellFormed : n.Every fun m => m.fits = true) :
    (n.adopt (registry.builtin .reference)).Every (Document.Loadable registry) := by
  induction wellFormed with
  | @intro n fits _ ih =>
      have adopted := fits_adopt registry.category_builtin_reference fits
      have input (input : Input κ) (under : ∀ m, input = .node m → m ∈ n.children) :
          (adoptInput (registry.builtin .reference) input).Every (Document.Loadable registry) := by
        cases input with
        | literal value => trivial
        | node m => exact ih m (under m rfl)
      cases n with
      | block k inputs =>
          rw [adopt] at adopted ⊢
          refine every_block.2 ⟨⟨adopted, trivial⟩, ?_⟩
          rw [adoptInputs_eq_map, List.forall_mem_map]
          exact fun i mem => input i fun m eq => List.mem_filterMap.2 ⟨_, eq ▸ mem, rfl⟩
      | control k inputs bodies =>
          rw [adopt] at adopted ⊢
          refine every_control.2 ⟨⟨adopted, trivial⟩, ?_, ?_⟩
          · rw [adoptInputs_eq_map, List.forall_mem_map]
            exact fun i mem => input i fun m eq =>
              List.mem_append_left _ (List.mem_filterMap.2 ⟨_, eq ▸ mem, rfl⟩)
          · simp only [adoptBodies_eq_map, List.forall_mem_map]
            exact fun body mem m inside =>
              ih m (List.mem_append_right _ (List.mem_flatten.2 ⟨body, mem, inside⟩))
      | reference k name => exact every_reference.2 ⟨adopted, rfl⟩
      | declaration k => exact every_declaration.2 ⟨adopted, trivial⟩
      | shadow k shadowed covered =>
          rw [adopt] at adopted ⊢
          refine every_shadow.2 ⟨⟨adopted, trivial⟩, nofun, ?_⟩
          cases covered with
          | none => simp [adoptCovered]
          | some covered =>
              simp only [adoptCovered, Option.some.injEq, forall_eq']
              exact input covered fun m eq => by simp [children, eq, Input.asNode?]

mutual

theorem evaluate_adopt (horizon : Nat) (n : Node κ) :
    evaluate horizon (n.adopt own) = evaluate horizon n := by
  cases n with
  | block k inputs => simp only [adopt, evaluate, evaluateInputs_adopt horizon inputs]
  | control k inputs bodies =>
      simp only [adopt, evaluate, evaluateInputs_adopt horizon inputs,
        evaluateBodies_adopt horizon bodies]
  | reference k name => simp only [adopt, evaluate]
  | declaration k => simp only [adopt]
  | shadow k shadowed covered => simp only [adopt, evaluate, evaluateCovered_adopt horizon covered]

theorem evaluateInputs_adopt (horizon : Nat) (inputs : List (Input κ)) (slots : List SlotKind) :
    evaluateInputs horizon slots (adoptInputs own inputs) = evaluateInputs horizon slots inputs := by
  match inputs, slots with
  | [], _ => simp only [adoptInputs]
  | _ :: _, [] => simp only [adoptInputs, evaluateInputs]
  | .literal value :: rest, slot :: slots =>
      simp only [adoptInputs, adoptInput, evaluateInputs, evaluateInputs_adopt horizon rest slots]
  | .node n :: rest, slot :: slots =>
      simp only [adoptInputs, adoptInput, evaluateInputs, evaluateInput, evaluate_adopt horizon n,
        evaluateInputs_adopt horizon rest slots]

theorem evaluateList_adopt (horizon : Nat) (nodes : List (Node κ)) :
    evaluateList horizon (adoptList own nodes) = evaluateList horizon nodes := by
  cases nodes with
  | nil => simp only [adoptList]
  | cons n rest =>
      simp only [adoptList, evaluateList, evaluate_adopt horizon n, evaluateList_adopt horizon rest]

theorem evaluateBodies_adopt (horizon : Nat) (bodies : List (List (Node κ))) :
    evaluateBodies horizon (adoptBodies own bodies) = evaluateBodies horizon bodies := by
  cases bodies with
  | nil => simp only [adoptBodies]
  | cons body rest =>
      simp only [adoptBodies, evaluateBodies, evaluateList_adopt horizon body,
        evaluateBodies_adopt horizon rest]

theorem evaluateCovered_adopt (horizon : Nat) (covered : Option (Input κ)) :
    evaluateCovered horizon (adoptCovered own covered) = evaluateCovered horizon covered := by
  match covered with
  | none => simp only [adoptCovered]
  | some (.literal value) => simp only [adoptCovered, adoptInput]
  | some (.node n) =>
      simp only [adoptCovered, adoptInput, evaluateCovered, evaluate_adopt horizon n]

end

end

end Node

namespace Document

variable [Vocabulary κ] [DecidableEq κ] {own : κ}

mutual

theorem writeNode_adopt (registry : Registry κ) (n : Node κ) :
    writeNode registry (n.adopt own) = writeNode registry n := by
  cases n with
  | block k inputs => simp only [Node.adopt, writeNode, writeInputs_adopt registry inputs]
  | control k inputs bodies =>
      simp only [Node.adopt, writeNode, writeInputs_adopt registry inputs,
        writeBodies_adopt registry bodies]
  | reference k name => simp only [Node.adopt, writeNode]
  | declaration k => simp only [Node.adopt]
  | shadow k shadowed covered => simp only [Node.adopt, writeNode]

theorem writeInput_adopt (registry : Registry κ) (input : Input κ) (slot : Option SlotKind) :
    writeInput registry slot (Node.adoptInput own input) = writeInput registry slot input := by
  match input with
  | .literal value => simp only [Node.adoptInput]
  | .node (.shadow k shadowed (some covered)) =>
      simp only [Node.adoptInput, Node.adopt, Node.adoptCovered, writeInput,
        writeInput_adopt registry covered slot]
  | .node (.shadow k shadowed none) =>
      simp only [Node.adoptInput, Node.adopt, Node.adoptCovered, writeInput]
  | .node (.block k inputs) =>
      exact writeNode_adopt registry (.block k inputs)
  | .node (.control k inputs bodies) =>
      exact writeNode_adopt registry (.control k inputs bodies)
  | .node (.reference k name) => exact writeNode_adopt registry (.reference k name)
  | .node (.declaration k) => simp only [Node.adoptInput, Node.adopt]

theorem writeInputs_adopt (registry : Registry κ) (inputs : List (Input κ))
    (slots : List SlotKind) :
    writeInputs registry slots (Node.adoptInputs own inputs) =
      writeInputs registry slots inputs := by
  cases inputs with
  | nil => simp only [Node.adoptInputs]
  | cons input rest =>
      simp only [Node.adoptInputs, writeInputs, writeInput_adopt registry input,
        writeInputs_adopt registry rest]

theorem writeList_adopt (registry : Registry κ) (nodes : List (Node κ)) :
    writeList registry (Node.adoptList own nodes) = writeList registry nodes := by
  cases nodes with
  | nil => simp only [Node.adoptList]
  | cons n rest =>
      have persistent : isPersistent (n.adopt own) = isPersistent n := by
        cases n <;> simp only [Node.adopt, isPersistent]
      simp only [Node.adoptList, writeList, persistent, writeNode_adopt registry n,
        writeList_adopt registry rest]

theorem writeBodies_adopt (registry : Registry κ) (bodies : List (List (Node κ)))
    (fields : List String) :
    writeBodies registry fields (Node.adoptBodies own bodies) =
      writeBodies registry fields bodies := by
  match bodies, fields with
  | [], _ => simp only [Node.adoptBodies]
  | _ :: _, [] => simp only [Node.adoptBodies, writeBodies]
  | body :: rest, field :: fields =>
      simp only [Node.adoptBodies, writeBodies, writeList_adopt registry body,
        writeBodies_adopt registry rest]

end

end Document

end BlockScript
