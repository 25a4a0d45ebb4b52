import BlockScript.Catalog.Standard
import BlockScript.Node.Address
import BlockScript.Proofs.Document.Adoption
import BlockScript.Proofs.Evaluation.Runs

/-!
# Copies that previews show

`conceal` takes from a tree the copies that its previews show, at every depth.  Adopting drops them
as well, so a tree and its concealed form are adopted alike (`adopt_conceal`), and evaluation and
documents, which do not change under `adopt`, cannot tell them apart.  An address reads from the
concealed tree what it reads from the tree, concealed (`read?_conceal`).  Programs that differ in
such copies only are those with the same concealed form; `copies_invisible` compares two of them.
-/

namespace BlockScript

variable {κ : Type}

namespace Node

mutual

def conceal : Node κ → Node κ
  | block k inputs => block k (concealInputs inputs)
  | control k inputs bodies => control k (concealInputs inputs) (concealBodies bodies)
  | reference k name => reference k name
  | declaration k => declaration k
  | shadow k _ covered => shadow k none (concealCovered covered)

def concealInput : Input κ → Input κ
  | .literal value => .literal value
  | .node n => .node (conceal n)

def concealInputs : List (Input κ) → List (Input κ)
  | [] => []
  | input :: rest => concealInput input :: concealInputs rest

def concealList : List (Node κ) → List (Node κ)
  | [] => []
  | n :: rest => conceal n :: concealList rest

def concealBodies : List (List (Node κ)) → List (List (Node κ))
  | [] => []
  | body :: rest => concealList body :: concealBodies rest

def concealCovered : Option (Input κ) → Option (Input κ)
  | none => none
  | some input => some (concealInput input)

end

theorem concealInputs_eq_map (inputs : List (Input κ)) :
    concealInputs inputs = inputs.map concealInput := by
  induction inputs with
  | nil => simp [concealInputs]
  | cons input rest ih => simp [concealInputs, ih]

theorem concealList_eq_map (nodes : List (Node κ)) : concealList nodes = nodes.map conceal := by
  induction nodes with
  | nil => simp [concealList]
  | cons n rest ih => simp [concealList, ih]

theorem concealBodies_eq_map (bodies : List (List (Node κ))) :
    concealBodies bodies = bodies.map fun body => body.map conceal := by
  induction bodies with
  | nil => simp [concealBodies]
  | cons body rest ih => simp [concealBodies, concealList_eq_map, ih]

/-! ## Evaluation and documents -/

section
variable (own : κ)

mutual

theorem adopt_conceal (n : Node κ) : n.conceal.adopt own = n.adopt own := by
  cases n with
  | block k inputs => simp only [conceal, adopt, adoptInputs_conceal inputs]
  | control k inputs bodies =>
      simp only [conceal, adopt, adoptInputs_conceal inputs, adoptBodies_conceal bodies]
  | reference k name => simp only [conceal]
  | declaration k => simp only [conceal]
  | shadow k shadowed covered => simp only [conceal, adopt, adoptCovered_conceal covered]

theorem adoptInput_conceal (input : Input κ) :
    adoptInput own (concealInput input) = adoptInput own input := by
  cases input with
  | literal value => simp only [concealInput]
  | node n => simp only [concealInput, adoptInput, adopt_conceal n]

theorem adoptInputs_conceal (inputs : List (Input κ)) :
    adoptInputs own (concealInputs inputs) = adoptInputs own inputs := by
  cases inputs with
  | nil => simp only [concealInputs]
  | cons input rest =>
      simp only [concealInputs, adoptInputs, adoptInput_conceal input, adoptInputs_conceal rest]

theorem adoptList_conceal (nodes : List (Node κ)) :
    adoptList own (concealList nodes) = adoptList own nodes := by
  cases nodes with
  | nil => simp only [concealList]
  | cons n rest => simp only [concealList, adoptList, adopt_conceal n, adoptList_conceal rest]

theorem adoptBodies_conceal (bodies : List (List (Node κ))) :
    adoptBodies own (concealBodies bodies) = adoptBodies own bodies := by
  cases bodies with
  | nil => simp only [concealBodies]
  | cons body rest =>
      simp only [concealBodies, adoptBodies, adoptList_conceal body, adoptBodies_conceal rest]

theorem adoptCovered_conceal (covered : Option (Input κ)) :
    adoptCovered own (concealCovered covered) = adoptCovered own covered := by
  cases covered with
  | none => simp only [concealCovered]
  | some input => simp only [concealCovered, adoptCovered, adoptInput_conceal input]

end

end

/-! ## Addresses -/

theorem asNode?_concealInput (input : Input κ) :
    (concealInput input).asNode? = input.asNode?.map conceal := by
  cases input <;> simp [concealInput, Input.asNode?]

theorem inputs_conceal (n : Node κ) : n.conceal.inputs = n.inputs.map concealInput := by
  cases n <;> simp [conceal, inputs, concealInputs_eq_map]

theorem bodies_conceal (n : Node κ) :
    n.conceal.bodies = n.bodies.map fun body => body.map conceal := by
  cases n <;> simp [conceal, bodies, concealBodies_eq_map]

theorem child?_conceal (n : Node κ) (step : Step) :
    n.conceal.child? step = (n.child? step).map conceal := by
  cases step with
  | slot slot =>
      simp only [child?, inputs_conceal, List.getElem?_map]
      cases n.inputs[slot]? with
      | none => rfl
      | some input => exact asNode?_concealInput input
  | body body position =>
      simp only [child?, bodies_conceal, List.getElem?_map]
      cases n.bodies[body]? with
      | none => rfl
      | some list => exact List.getElem?_map ..

theorem follow?_conceal (steps : List Step) (n : Node κ) :
    n.conceal.follow? steps = (n.follow? steps).map conceal := by
  induction steps generalizing n with
  | nil => rfl
  | cons step rest ih =>
      simp only [follow?, child?_conceal]
      cases n.child? step with
      | none => rfl
      | some child => exact ih child

end Node

open Node

theorem NodePath.resolve?_conceal (path : NodePath) (roots : List (Node κ)) :
    path.resolve? (concealList roots) = (path.resolve? roots).map conceal := by
  simp only [resolve?, concealList_eq_map, List.getElem?_map]
  cases roots[path.root]? with
  | none => rfl
  | some root => exact follow?_conceal path.steps root

theorem Address.read?_conceal (address : Address) (roots : List (Node κ)) :
    address.read? (concealList roots) = (address.read? roots).map concealInput := by
  cases address with
  | root position =>
      simp only [read?, concealList_eq_map, List.getElem?_map]
      cases roots[position]? <;> simp [concealInput]
  | slot path slot =>
      simp only [read?, NodePath.resolve?_conceal]
      cases path.resolve? roots with
      | none => rfl
      | some n => simp [inputs_conceal]
  | body path body position =>
      simp only [read?, NodePath.resolve?_conceal]
      cases path.resolve? roots with
      | none => rfl
      | some n =>
          simp only [Option.map_some, Option.bind_eq_bind, Option.bind_some, bodies_conceal,
            List.getElem?_map]
          cases n.bodies[body]? with
          | none => rfl
          | some list => cases at_ : list[position]? <;> simp [at_, concealInput]

/-! ## Programs -/

section
variable [Vocabulary κ] [DecidableEq κ]

/-- Programs that differ in copies only do the same, with the same effects, have the same document
or cannot be written for the same reason, and hold the same at every address but for copies. -/
theorem copies_invisible (registry : Registry κ) {nodes nodes' : List (Node κ)}
    (same : concealList nodes = concealList nodes') :
    (∀ horizon, execute horizon nodes = execute horizon nodes') ∧
    (∀ horizon (m : Machine), m.run (Evaluation.actions (execute horizon nodes)) =
      m.run (Evaluation.actions (execute horizon nodes'))) ∧
    Document.toDocument registry nodes = Document.toDocument registry nodes' ∧
    ∀ address : Address,
      (address.read? nodes).map concealInput = (address.read? nodes').map concealInput := by
  let own := registry.builtin .reference
  have adopted : adoptList own nodes = adoptList own nodes' := by
    rw [← adoptList_conceal own nodes, same, adoptList_conceal]
  have evaluated (horizon : Nat) : execute horizon nodes = execute horizon nodes' := by
    have lists : evaluateList horizon nodes = evaluateList horizon nodes' := by
      calc evaluateList horizon nodes
          = evaluateList horizon (adoptList own nodes) := (evaluateList_adopt horizon nodes).symm
        _ = evaluateList horizon (adoptList own nodes') := by rw [adopted]
        _ = evaluateList horizon nodes' := evaluateList_adopt horizon nodes'
    rw [execute, execute, lists]
  have written : Document.writeList registry nodes = Document.writeList registry nodes' := by
    calc Document.writeList registry nodes
        = Document.writeList registry (adoptList own nodes) :=
          (Document.writeList_adopt registry nodes).symm
      _ = Document.writeList registry (adoptList own nodes') := by rw [adopted]
      _ = Document.writeList registry nodes' := Document.writeList_adopt registry nodes'
  refine ⟨evaluated, fun horizon m => by rw [evaluated], ?_, fun address => ?_⟩
  · rw [Document.toDocument, Document.toDocument, written]
  · rw [← Address.read?_conceal, ← Address.read?_conceal, same]

end

section
open Catalog

def twiceCovered (inner outer listed : Option (Node Block)) : List (Node Block) :=
  [.block .assign [.literal (.text "x"),
      .node (.shadow (.builtin .shadow) outer
        (some (.node (.shadow (.builtin .shadow) inner (some (.literal (.integer 1)))))))],
    .shadow (.builtin .shadow) listed none]

theorem copies_invisible_dragging :
    let m : Machine := .bare (.ofList [("x", .integer 0)])
    let copied := twiceCovered (some (.reference (.builtin .reference) "y")) none
      (some (.shadow (.builtin .shadow) (some (.declaration (.builtin .declaration))) none))
    concealList copied = concealList (twiceCovered none none none) ∧
    (∃ m', m.run (Evaluation.actions (execute 1 copied)) = (.done .completed, m') ∧
      m'.store.get? "x" = some (.integer 1)) ∧
    Document.toDocument Catalog.registry copied =
      Document.toDocument Catalog.registry (twiceCovered none none none) ∧
    ((Address.slot ⟨0, []⟩ 1).read? copied).isSome := by
  intro m copied
  have same : concealList copied = concealList (twiceCovered none none none) := rfl
  obtain ⟨-, run, written, read⟩ := copies_invisible Catalog.registry same
  refine ⟨same, ?_, written, ?_⟩
  · rw [run]
    exact ⟨_, rfl, rfl⟩
  · have isRead := read (.slot ⟨0, []⟩ 1)
    rw [← Option.isSome_map, isRead]
    rfl

end

end BlockScript
