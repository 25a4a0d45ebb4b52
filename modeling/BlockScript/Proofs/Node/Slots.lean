import BlockScript.Catalog.Standard
import BlockScript.Proofs.Node.Grafting

/-!
# Slots as places

A slot that can be read can be written, and only such a slot.  Writing gives what stood there, can be
undone with it, and is seen nowhere but on the way to the slot (`replaces_graft`); a write that
fails changes nothing (`write_slot_of_unreadable`).  Reading a node at an address and following a
path one step further come to the same (`read?_slot_node`, `read?_body_node`).
-/

namespace BlockScript.Address

variable {κ : Type} {roots roots' : List (Node κ)} {path : NodePath} {s : Nat} {input old : Input κ}

/-! ## Reading -/

theorem read?_slot_eq_some : (slot path s).read? roots = some input ↔
    ∃ n, path.resolve? roots = some n ∧ n.inputs[s]? = some input :=
  Option.bind_eq_some_iff

theorem read?_slot_node {child : Node κ} : (slot path s).read? roots = some (.node child) ↔
    (path.next (.slot s)).resolve? roots = some child := by
  rw [read?_slot_eq_some, NodePath.resolve?_next, Option.bind_eq_some_iff]
  simp only [Node.child?_slot]

theorem read?_body_node {i position : Nat} {child : Node κ} :
    (body path i position).read? roots = some (.node child) ↔
      (path.next (.body i position)).resolve? roots = some child := by
  rw [NodePath.resolve?_next, Option.bind_eq_some_iff]
  simp only [read?, Option.bind_eq_bind, Option.bind_eq_some_iff, Option.pure_def,
    Option.some.injEq, Input.node.injEq, Node.child?_body]
  constructor
  · rintro ⟨n, found, body, here, m, inside, rfl⟩
    exact ⟨n, found, body, here, inside⟩
  · rintro ⟨n, found, body, here, inside⟩
    exact ⟨n, found, body, here, child, inside, rfl⟩

/-! ## Writing -/

theorem write_slot {n : Node κ} (found : path.resolve? roots = some n)
    (here : n.inputs[s]? = some old) (input : Input κ) :
    (slot path s).write roots input = (some old, path.graft (n.setInput s input) roots) := by
  simp [write, NodePath.edit?_eq, found, Node.replaceInput?, Node.focusInput?_eq, here, settle]

theorem write_slot_of_unreadable (nothing : (slot path s).read? roots = none) (input : Input κ) :
    (slot path s).write roots input = (none, roots) := by
  rw [write, NodePath.edit?_eq]
  cases found : path.resolve? roots with
  | none => rfl
  | some n =>
      have here : n.inputs[s]? = none := by simpa [read?, found] using nothing
      simp [Node.replaceInput?, Node.focusInput?_eq, here, settle]

theorem eq_of_write_fails {address : Address}
    (fails : address.write roots input = (none, roots')) : roots' = roots := by
  cases address with
  | slot path s =>
      cases here : (slot path s).read? roots with
      | none =>
          rw [write_slot_of_unreadable here] at fails
          exact (Prod.mk.inj fails).2.symm
      | some old =>
          obtain ⟨n, found, here⟩ := read?_slot_eq_some.1 here
          rw [write_slot found here] at fails
          cases (Prod.mk.inj fails).1
  | root | body => exact (Prod.mk.inj fails).2.symm

structure Replaces (path : NodePath) (s : Nat) (old input : Input κ)
    (roots roots' : List (Node κ)) : Prop where
  read : (slot path s).read? roots' = some input
  undone : (slot path s).write roots' old = (some input, roots)
  /-- Paths to other places than the slot and the nodes above it lead where they led. -/
  elsewhere : ∀ other : NodePath, ¬ other.Leads path → ¬ (path.next (.slot s)).Leads other →
    other.resolve? roots' = other.resolve? roots
  owner : ∃ n n', path.resolve? roots = some n ∧ path.resolve? roots' = some n' ∧
    n'.kind = n.kind ∧ n'.bodies = n.bodies ∧ ∀ i ≠ s, n'.inputs[i]? = n.inputs[i]?

theorem replaces_graft {n : Node κ} (found : path.resolve? roots = some n)
    (here : n.inputs[s]? = some old) (input : Input κ) :
    Replaces path s old input roots (path.graft (n.setInput s input) roots) where
  read := by
    obtain ⟨bound, -⟩ := List.getElem?_eq_some_iff.1 here
    refine read?_slot_eq_some.2 ⟨_, NodePath.resolve?_graft found _, ?_⟩
    rw [Node.inputs_setInput, List.getElem?_set_self bound]
  undone := by
    obtain ⟨bound, -⟩ := List.getElem?_eq_some_iff.1 here
    have there : (n.setInput s input).inputs[s]? = some input := by
      rw [Node.inputs_setInput, List.getElem?_set_self bound]
    rw [write_slot (NodePath.resolve?_graft found _) there, NodePath.graft_graft found,
      Node.setInput_setInput, Node.setInput_self here, NodePath.graft_self found]
  elsewhere other above through := by
    by_cases below : path.Leads other
    · -- the path goes on from the owner of the slot, by another step than the slot's
      obtain ⟨root, rest, steps⟩ := below
      rw [NodePath.resolve?_graft_of_leads found _ root.symm steps.symm,
        ← NodePath.graft_self found, NodePath.resolve?_graft_of_leads found _ root.symm steps.symm]
      rcases rest with _ | ⟨step, rest⟩
      · exact absurd ⟨root.symm, by simp [← steps]⟩ above
      have other : step ≠ .slot s := by
        rintro rfl
        exact through ⟨root, rest, by simp [NodePath.next, ← steps]⟩
      have same : (n.setInput s input).child? step = n.child? step := by
        cases step with
        | slot j =>
            have differs : s ≠ j := fun eq => other (eq ▸ rfl)
            simp only [Node.child?, Node.inputs_setInput, List.getElem?_set_ne differs]
        | body i position => simp only [Node.child?, Node.bodies_setInput]
      rw [Node.follow?, Node.follow?, same]
    · exact NodePath.resolve?_graft_of_not_leads found _ above below
  owner := by
    refine ⟨n, _, found, NodePath.resolve?_graft found _, ?_, n.bodies_setInput s input, ?_⟩
    · cases n <;> rfl
    · intro i differs
      rw [Node.inputs_setInput, List.getElem?_set_ne differs.symm]

/-! ## The two walks -/

theorem edit?_resolves (path : NodePath) (change : Node κ → Node κ) (roots : List (Node κ)) :
    (path.edit? (fun n => some (n, change n)) roots).map Prod.fst = path.resolve? roots ∧
    ((path.edit? (fun n => some (n, change n)) roots).bind fun r => path.resolve? r.2) =
      (path.resolve? roots).map change := by
  rw [NodePath.edit?_eq]
  cases found : path.resolve? roots with
  | none => exact ⟨rfl, rfl⟩
  | some n => exact ⟨rfl, NodePath.resolve?_graft found _⟩

/-- Writing to a slot succeeds exactly when reading does, and the two obey the laws of a lens.  What
cannot be written stays as it is; both walks along a path agree; and to read a node is to follow the
path one step further. -/
theorem write_lawful (roots : List (Node κ)) (path : NodePath) (s : Nat) (input : Input κ) :
    ((slot path s).write roots input).1 = (slot path s).read? roots ∧
    (∀ old roots', (slot path s).write roots input = (some old, roots') →
      Replaces path s old input roots roots') ∧
    (∀ (address : Address) roots', address.write roots input = (none, roots') → roots' = roots) ∧
    (∀ address : Address, address.isPosition = true →
      address.write roots input = (none, roots)) ∧
    (∀ change : Node κ → Node κ,
      (path.edit? (fun n => some (n, change n)) roots).map Prod.fst = path.resolve? roots ∧
      ((path.edit? (fun n => some (n, change n)) roots).bind fun r => path.resolve? r.2) =
        (path.resolve? roots).map change) ∧
    (∀ child, (slot path s).read? roots = some (.node child) ↔
      (path.next (.slot s)).resolve? roots = some child) ∧
    ∀ i position child, (body path i position).read? roots = some (.node child) ↔
      (path.next (.body i position)).resolve? roots = some child := by
  have writes : ∀ old, (slot path s).read? roots = some old → ∃ n,
      path.resolve? roots = some n ∧ n.inputs[s]? = some old ∧
      (slot path s).write roots input = (some old, path.graft (n.setInput s input) roots) := by
    intro old here
    obtain ⟨n, found, here⟩ := read?_slot_eq_some.1 here
    exact ⟨n, found, here, write_slot found here input⟩
  refine ⟨?_, ?_, fun _ _ => eq_of_write_fails, ?_, fun change => edit?_resolves path change roots,
    fun _ => read?_slot_node, fun _ _ _ => read?_body_node⟩
  · cases here : (slot path s).read? roots with
    | none => rw [write_slot_of_unreadable here]
    | some old =>
        obtain ⟨n, -, -, done⟩ := writes old here
        rw [done]
  · intro old roots' done
    cases here : (slot path s).read? roots with
    | none =>
        rw [write_slot_of_unreadable here] at done
        cases (Prod.mk.inj done).1
    | some held =>
        obtain ⟨n, found, here, eq⟩ := writes held here
        obtain ⟨same, rfl⟩ := Prod.mk.inj (eq.symm.trans done)
        obtain rfl := Option.some.inj same
        exact replaces_graft found here input
  · intro address position
    cases address with
    | slot => cases position
    | root | body => rfl

section
open Catalog

def counting : List (Node Block) :=
  [.control (.builtin (.control .whileLoop))
    [.node (.block (.operation .less)
      [.node (.reference (.builtin .reference) "x"), .literal (.integer 3)])]
    [[.block .assign [.literal (.text "x"), .node (.block (.operation .add)
      [.node (.reference (.builtin .reference) "x"), .literal (.integer 1)])]]]]

/-- The bound of the loop is replaced, which the step in its body does not see. -/
theorem write_lawful_counting :
    ∃ roots', (slot ⟨0, [.slot 0]⟩ 1).write counting (.literal (.integer 5)) =
        (some (.literal (.integer 3)), roots') ∧
      (slot ⟨0, [.slot 0]⟩ 1).read? roots' = some (.literal (.integer 5)) ∧
      (slot ⟨0, [.slot 0]⟩ 1).write roots' (.literal (.integer 3)) =
        (some (.literal (.integer 5)), counting) ∧
      (⟨0, [.body 0 0, .slot 1]⟩ : NodePath).resolve? roots' =
        (⟨0, [.body 0 0, .slot 1]⟩ : NodePath).resolve? counting ∧
      (root 0).write counting (.literal (.integer 5)) = (none, counting) := by
  obtain ⟨-, replaces, -, fails, -⟩ :=
    write_lawful counting ⟨0, [.slot 0]⟩ 1 (.literal (.integer 5))
  have replaced := replaces (.literal (.integer 3)) _ rfl
  refine ⟨_, rfl, replaced.read, replaced.undone, replaced.elsewhere _ ?_ ?_, fails _ rfl⟩
  · simp [NodePath.Leads]
  · simp [NodePath.Leads, NodePath.next]

end

end BlockScript.Address
