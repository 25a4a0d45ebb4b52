import BlockScript.Node.Document
import BlockScript.Proofs.Tree

/-!
# Stripped programs

`stripList` is the program that a document keeps of a list of nodes: previews and declaration
markers are left out of lists, and a preview in a slot gives way to the input that it covers, or to
the default literal of the slot.  What is left has as many inputs and statement lists as before, so
it still suits its kinds (`fits_strip`).
-/

namespace BlockScript

variable {κ : Type}

theorem Document.isShadow_of_isPersistent {n : Node κ} (persistent : isPersistent n = true) :
    n.isShadow = false := by
  cases n with
  | shadow k shadowed covered => simp [isPersistent] at persistent
  | _ => rfl

variable [Vocabulary κ]

namespace Node

mutual

def strip : Node κ → Node κ
  | block k inputs => block k (stripInputs (describe k).slots inputs)
  | control k inputs bodies =>
    control k (stripInputs (describe k).slots inputs) (stripBodies bodies)
  | reference k name => reference k name
  | declaration k => declaration k
  | shadow k shadowed covered => shadow k shadowed covered

def stripInput (slot : Option SlotKind) : Input κ → Input κ
  | .literal value => .literal value
  | .node (shadow _ _ (some covered)) => stripInput slot covered
  | .node (shadow _ _ none) => .literal ((slot.map SlotKind.default).getD (.text ""))
  | .node n => .node (strip n)

def stripInputs (slots : List SlotKind) : List (Input κ) → List (Input κ)
  | [] => []
  | input :: rest => stripInput slots.head? input :: stripInputs slots.tail rest

def stripList : List (Node κ) → List (Node κ)
  | [] => []
  | shadow _ _ _ :: rest => stripList rest
  | declaration _ :: rest => stripList rest
  | n :: rest => strip n :: stripList rest

def stripBodies : List (List (Node κ)) → List (List (Node κ))
  | [] => []
  | body :: rest => stripList body :: stripBodies rest

end

theorem stripInput_node {n : Node κ} (slot : Option SlotKind) (plain : n.isShadow = false) :
    stripInput slot (.node n) = .node n.strip := by
  cases n with
  | shadow k shadowed covered => simp [isShadow] at plain
  | _ => rw [stripInput] <;> simp

theorem stripList_cons (n : Node κ) (rest : List (Node κ)) :
    stripList (n :: rest) =
      if Document.isPersistent n then n.strip :: stripList rest else stripList rest := by
  cases n with
  | _ => rw [stripList] <;> simp [Document.isPersistent]

theorem length_stripInputs (slots : List SlotKind) (inputs : List (Input κ)) :
    (stripInputs slots inputs).length = inputs.length := by
  induction inputs generalizing slots with
  | nil => rw [stripInputs]
  | cons input rest ih => simp only [stripInputs, List.length_cons, ih]

theorem length_stripBodies (bodies : List (List (Node κ))) :
    (stripBodies bodies).length = bodies.length := by
  induction bodies with
  | nil => rw [stripBodies]
  | cons body rest ih => simp only [stripBodies, List.length_cons, ih]

theorem stripInputs_of_forall {inputs : List (Input κ)}
    (each : ∀ input ∈ inputs, ∀ slot, stripInput slot input = input) (slots : List SlotKind) :
    stripInputs slots inputs = inputs := by
  induction inputs generalizing slots with
  | nil => rw [stripInputs]
  | cons input rest ih =>
      obtain ⟨here, later⟩ := List.forall_mem_cons.1 each
      rw [stripInputs, here, ih later]

theorem stripList_of_forall {nodes : List (Node κ)}
    (each : ∀ n ∈ nodes, Document.isPersistent n = true ∧ n.strip = n) : stripList nodes = nodes := by
  induction nodes with
  | nil => rw [stripList]
  | cons n rest ih =>
      obtain ⟨⟨persistent, here⟩, later⟩ := List.forall_mem_cons.1 each
      rw [stripList_cons, if_pos persistent, here, ih later]

theorem stripBodies_of_forall {bodies : List (List (Node κ))}
    (each : ∀ body ∈ bodies, stripList body = body) : stripBodies bodies = bodies := by
  induction bodies with
  | nil => rw [stripBodies]
  | cons body rest ih =>
      obtain ⟨here, later⟩ := List.forall_mem_cons.1 each
      rw [stripBodies, here, ih later]

theorem strip_of_persistent {n : Node κ}
    (persistent : n.Every fun m => Document.isPersistent m = true) : n.strip = n := by
  induction persistent with
  | @intro n here below ih =>
      have kept {inputs : List (Input κ)}
          (under : ∀ m ∈ inputs.filterMap Input.asNode?, m ∈ n.children) :
          ∀ input ∈ inputs, ∀ slot, stripInput slot input = input := by
        intro input mem slot
        cases input with
        | literal value => rw [stripInput]
        | node m =>
            have child := under m (List.mem_filterMap.2 ⟨_, mem, rfl⟩)
            have plain := Document.isShadow_of_isPersistent (every_iff.1 (below m child)).1
            rw [stripInput_node slot plain, ih m child]
      cases n with
      | block k inputs => rw [strip, stripInputs_of_forall (kept fun m mem => mem)]
      | control k inputs bodies =>
          have inside : ∀ body ∈ bodies, stripList body = body := by
            intro body mem
            refine stripList_of_forall fun m member => ?_
            have child : m ∈ (control k inputs bodies).children :=
              List.mem_append_right _ (List.mem_flatten.2 ⟨body, mem, member⟩)
            exact ⟨(every_iff.1 (below m child)).1, ih m child⟩
          rw [strip, stripInputs_of_forall (kept fun m mem => List.mem_append_left _ mem),
            stripBodies_of_forall inside]
      | reference k name => rw [strip]
      | declaration k => rw [strip]
      | shadow k shadowed covered => rw [strip]

theorem fits_strip (n : Node κ) : n.strip.fits = n.fits := by
  cases n with
  | block k inputs =>
      simp only [strip, fits, kind]
      cases (describe k).category <;> simp only [length_stripInputs]
  | control k inputs bodies =>
      simp only [strip, fits, kind]
      cases (describe k).category <;> simp only [length_stripInputs, length_stripBodies]
  | reference k name => rw [strip]
  | declaration k => rw [strip]
  | shadow k shadowed covered => rw [strip]

end Node

end BlockScript
