import BlockScript.Proofs.Node.Slots

/-!
# Positions as places

A position belongs to a list of nodes: the roots, or a statement list anywhere in the program.  An
insertion or a deletion replaces that list (`editList?_eq`), and a replaced list is seen by no path
but those that end at its owner or above it, and those that cross it; where every position of the
old list is found again at a position of the new one, a crossing path leads to the same node as soon
as its step through the list is moved accordingly (`resolve?_relocate`).  For an insertion the
later positions move up by as many as were inserted, for a deletion they move down by one; either is
undone by the other.
-/

namespace BlockScript.Address

variable {κ β : Type} {roots : List (Node κ)} {list list' : List (Node κ)} {address : Address}

/-! ## The list of a position -/

def list? (roots : List (Node κ)) : Address → Option (List (Node κ))
  | slot _ _ => none
  | root _ => some roots
  | body path i _ => (path.resolve? roots).bind (·.bodies[i]?)

def place : Address → Nat
  | slot _ i => i
  | root position => position
  | body _ _ position => position

def withPlace (place : Nat) : Address → Address
  | slot path _ => slot path place
  | root _ => root place
  | body path i _ => body path i place

def setList (list roots : List (Node κ)) : Address → List (Node κ)
  | slot _ _ => roots
  | root _ => list
  | body path i _ =>
    match path.resolve? roots with
    | some n => path.graft (n.setBody i list) roots
    | none => roots

theorem list?_body_eq_some {path : NodePath} {i position : Nat} :
    (body path i position).list? roots = some list ↔
      ∃ n, path.resolve? roots = some n ∧ n.bodies[i]? = some list :=
  Option.bind_eq_some_iff

theorem setList_body {path : NodePath} {i position : Nat} {n : Node κ}
    (found : path.resolve? roots = some n) (list : List (Node κ)) :
    (body path i position).setList list roots = path.graft (n.setBody i list) roots := by
  rw [setList, found]

theorem list?_withPlace (place : Nat) :
    (address.withPlace place).list? roots = address.list? roots := by
  cases address <;> rfl

theorem read?_of_list? (here : address.list? roots = some list) :
    address.read? roots = list[address.place]?.map .node := by
  cases address with
  | slot => cases here
  | root position =>
      obtain rfl := Option.some.inj here
      exact Option.map_eq_bind.symm
  | body path i position =>
      obtain ⟨n, found, here⟩ := list?_body_eq_some.1 here
      simp only [read?, found, here, Option.bind_eq_bind, Option.bind_some, place]
      exact Option.map_eq_bind.symm

theorem list?_setList (here : address.list? roots = some list) (list' : List (Node κ)) :
    address.list? (address.setList list' roots) = some list' := by
  cases address with
  | slot => cases here
  | root => rfl
  | body path i position =>
      obtain ⟨n, found, here⟩ := list?_body_eq_some.1 here
      obtain ⟨bound, -⟩ := List.getElem?_eq_some_iff.1 here
      rw [setList_body found, list?_body_eq_some]
      refine ⟨_, NodePath.resolve?_graft found _, ?_⟩
      rw [Node.bodies_setBody, List.getElem?_set_self bound]

theorem setList_setList (here : address.list? roots = some list) (list' list'' : List (Node κ)) :
    address.setList list'' (address.setList list' roots) = address.setList list'' roots := by
  cases address with
  | slot => cases here
  | root => rfl
  | body path i position =>
      obtain ⟨n, found, -⟩ := list?_body_eq_some.1 here
      rw [setList_body found, setList_body (NodePath.resolve?_graft found _), setList_body found,
        Node.setBody_setBody, NodePath.graft_graft found]

theorem setList_self (here : address.list? roots = some list) :
    address.setList list roots = roots := by
  cases address with
  | slot => cases here
  | root => exact (Option.some.inj here).symm
  | body path i position =>
      obtain ⟨n, found, here⟩ := list?_body_eq_some.1 here
      rw [setList_body found, Node.setBody_self here, NodePath.graft_self found]

theorem editList?_eq (f : Nat → List (Node κ) → Option (β × List (Node κ))) :
    address.editList? f roots = (address.list? roots).bind fun list =>
      (f address.place list).map fun r => (r.1, address.setList r.2 roots) := by
  cases address with
  | slot => rfl
  | root position =>
      simp only [editList?, list?, setList, place, Option.bind_some]
      cases f position roots <;> rfl
  | body path i position =>
      simp only [editList?, NodePath.edit?_eq, list?, setList, place]
      cases found : path.resolve? roots with
      | none => rfl
      | some n =>
          simp only [Option.bind_some, Node.editBody?, Node.focusBody?_eq, Option.bind_eq_bind]
          cases n.bodies[i]? with
          | none => rfl
          | some list =>
              rw [Option.map_some, Option.bind_some, Option.bind_some]
              cases f position list <;> rfl

/-! ## Paths across the list -/

def Encloses (other : NodePath) : Address → Prop
  | slot _ _ | root _ => False
  | body path _ _ => other.Leads path

def crossing? (other : NodePath) : Address → Option Nat
  | slot _ _ => none
  | root _ => some other.root
  | body path i _ =>
    if path.root = other.root ∧ path.steps <+: other.steps then
      match other.steps[path.steps.length]? with
      | some (.body j position) => if j = i then some position else none
      | _ => none
    else none

/-- Moves the step of a path through the list. -/
def relocate (move : Nat → Nat) (other : NodePath) : Address → NodePath
  | slot _ _ => other
  | root _ => { other with root := move other.root }
  | address@(body path i _) =>
    match address.crossing? other with
    | some position =>
      { other with steps := other.steps.set path.steps.length (.body i (move position)) }
    | none => other

section
variable {path other : NodePath} {i p position : Nat} {rest : List Step}

theorem crossing?_body (steps : other.steps = path.steps ++ .body i position :: rest)
    (root : other.root = path.root) : (body path i p).crossing? other = some position := by
  have here : other.steps[path.steps.length]? = some (.body i position) := by
    rw [steps, List.getElem?_append_right (Nat.le_refl _), Nat.sub_self, List.getElem?_cons_zero]
  rw [crossing?, if_pos ⟨root.symm, _, steps.symm⟩, here]
  exact if_pos rfl

theorem exists_of_crossing?_body (crosses : (body path i p).crossing? other = some position) :
    other.root = path.root ∧ ∃ rest, other.steps = path.steps ++ .body i position :: rest := by
  rw [crossing?] at crosses
  split at crosses
  · next leads =>
      obtain ⟨root, rest, steps⟩ := leads
      rw [← steps, List.getElem?_append_right (Nat.le_refl _), Nat.sub_self] at crosses
      rcases rest with _ | ⟨_ | ⟨j, q⟩, rest⟩
      · cases crosses
      · cases crosses
      · simp only [List.getElem?_cons_zero, Option.ite_none_right_eq_some,
          Option.some.injEq] at crosses
        obtain ⟨rfl, rfl⟩ := crosses
        exact ⟨root.symm, rest, steps.symm⟩
  · cases crosses

theorem relocate_body (steps : other.steps = path.steps ++ .body i position :: rest)
    (root : other.root = path.root) (move : Nat → Nat) : (body path i p).relocate move other =
      ⟨other.root, path.steps ++ .body i (move position) :: rest⟩ := by
  rw [relocate, crossing?_body steps root]
  simp only [steps, List.set_append_right _ _ (Nat.le_refl _), Nat.sub_self, List.set_cons_zero]

end

theorem resolve?_relocate (here : address.list? roots = some list) {move : Nat → Nat}
    {other : NodePath} (beside : ¬ address.Encloses other)
    (kept : ∀ position, address.crossing? other = some position →
      list'[move position]? = list[position]?) :
    (address.relocate move other).resolve? (address.setList list' roots) =
      other.resolve? roots := by
  cases address with
  | slot => cases here
  | root position =>
      obtain rfl := Option.some.inj here
      simp only [NodePath.resolve?, relocate, setList, kept _ rfl]
  | body path i p =>
      obtain ⟨n, found, here⟩ := list?_body_eq_some.1 here
      obtain ⟨bound, -⟩ := List.getElem?_eq_some_iff.1 here
      rw [setList_body found]
      cases crosses : (body path i p).crossing? other with
      | some position =>
          obtain ⟨root, rest, steps⟩ := exists_of_crossing?_body crosses
          have same : (n.setBody i list').child? (.body i (move position)) =
              n.child? (.body i position) := by
            simp only [Node.child?, Node.bodies_setBody, List.getElem?_set_self bound, here,
              Option.bind_eq_bind, Option.bind_some]
            exact kept position crosses
          have moved : NodePath.resolve? ⟨other.root, path.steps ++ .body i (move position) :: rest⟩
              (path.graft (n.setBody i list') roots) =
                (n.setBody i list').follow? (.body i (move position) :: rest) :=
            NodePath.resolve?_graft_of_leads found _ root rfl
          rw [relocate_body steps root, moved, NodePath.resolve?_of_leads found root steps,
            Node.follow?, Node.follow?, same]
      | none =>
          simp only [relocate, crosses]
          refine NodePath.resolve?_graft_of_child? found beside fun root step rest steps => ?_
          cases step with
          | slot j => simp only [Node.child?, Node.inputs_setBody]
          | body j position =>
              have differs : i ≠ j := by
                rintro rfl
                cases crosses.symm.trans (crossing?_body steps root)
              simp only [Node.child?, Node.bodies_setBody, List.getElem?_set_ne differs]

/-! ## Insertion and deletion -/

variable {nodes : List (Node κ)}

theorem splice?_of_le {position : Nat} (le : position ≤ list.length) : splice? position nodes list =
    some ((), list.take position ++ nodes ++ list.drop position) := if_pos le

theorem splice?_of_not_le {position : Nat} (gt : ¬ position ≤ list.length) :
    splice? position nodes list = none := if_neg gt

theorem insert_of_list? (here : address.list? roots = some list) (le : address.place ≤ list.length)
    (nodes : List (Node κ)) : address.insert roots nodes = (true, address.setList
      (list.take address.place ++ nodes ++ list.drop address.place) roots) := by
  simp [insert, editList?_eq, here, splice?_of_le le, settle]

theorem insert_cases (roots nodes : List (Node κ)) (address : Address) :
    (∃ list, address.list? roots = some list ∧ address.place ≤ list.length ∧
      address.insert roots nodes = (true, address.setList
        (list.take address.place ++ nodes ++ list.drop address.place) roots)) ∨
    (¬ ∃ list, address.list? roots = some list ∧ address.place ≤ list.length) ∧
      address.insert roots nodes = (false, roots) := by
  by_cases fits : ∃ list, address.list? roots = some list ∧ address.place ≤ list.length
  · obtain ⟨list, here, le⟩ := fits
    exact .inl ⟨list, here, le, insert_of_list? here le nodes⟩
  · refine .inr ⟨fits, ?_⟩
    rw [insert, editList?_eq]
    cases here : address.list? roots with
    | none => rfl
    | some list => simp [splice?_of_not_le fun le => fits ⟨list, here, le⟩, settle]

theorem delete_of_list? (here : address.list? roots = some list) {n : Node κ}
    (inside : list[address.place]? = some n) : address.delete roots =
      (some n, address.setList (list.eraseIdx address.place) roots) := by
  simp [delete, editList?_eq, here, extract?, inside, settle]

theorem delete_cases (roots : List (Node κ)) (address : Address) :
    (∃ list n, address.list? roots = some list ∧ list[address.place]? = some n ∧
      address.delete roots = (some n, address.setList (list.eraseIdx address.place) roots)) ∨
    (¬ ∃ list, address.list? roots = some list ∧ address.place < list.length) ∧
      address.delete roots = (none, roots) := by
  by_cases fits : ∃ list, address.list? roots = some list ∧ address.place < list.length
  · obtain ⟨list, here, bound⟩ := fits
    have inside := List.getElem?_eq_getElem bound
    exact .inl ⟨list, _, here, inside, delete_of_list? here inside⟩
  · refine .inr ⟨fits, ?_⟩
    rw [delete, editList?_eq]
    cases here : address.list? roots with
    | none => rfl
    | some list =>
        have outside : list[address.place]? = none :=
          List.getElem?_eq_none (Nat.le_of_not_lt fun bound => fits ⟨list, here, bound⟩)
        simp [extract?, outside, settle]

def deleteMany (address : Address) : Nat → List (Node κ) → List (Option (Node κ)) × List (Node κ)
  | 0, roots => ([], roots)
  | count + 1, roots =>
    let (first, roots) := address.delete roots
    let (others, roots) := address.deleteMany count roots
    (first :: others, roots)

theorem deleteMany_setList (here : address.list? roots = some list) {before after : List (Node κ)}
    (length : before.length = address.place) (nodes : List (Node κ)) :
    address.deleteMany nodes.length (address.setList (before ++ nodes ++ after) roots) =
      (nodes.map some, address.setList (before ++ after) roots) := by
  induction nodes with
  | nil => simp [deleteMany]
  | cons n rest ih =>
      have there := list?_setList here (before ++ n :: rest ++ after)
      have first : (before ++ n :: rest ++ after)[address.place]? = some n := by
        rw [List.append_assoc, ← length, List.getElem?_append_right (Nat.le_refl _), Nat.sub_self]
        rfl
      have others : (before ++ n :: rest ++ after).eraseIdx address.place =
          before ++ rest ++ after := by
        rw [List.append_assoc, List.append_assoc, ← length,
          List.eraseIdx_append_of_length_le (Nat.le_refl _), Nat.sub_self]
        rfl
      simp only [List.length_cons, deleteMany, delete_of_list? there first, others,
        setList_setList here, ih, List.map_cons]

structure Inserted (address : Address) (nodes roots roots' : List (Node κ)) : Prop where
  held : ∀ i < nodes.length,
    (address.withPlace (address.place + i)).read? roots' = nodes[i]?.map .node
  /-- Paths to other places than the owner of the list and the nodes above it lead where they led,
  with their step through the list moved up if it is not before the inserted nodes. -/
  elsewhere : ∀ other : NodePath, ¬ address.Encloses other →
    (address.relocate (fun position =>
      if address.place ≤ position then position + nodes.length else position) other).resolve?
        roots' = other.resolve? roots
  undone : address.deleteMany nodes.length roots' = (nodes.map some, roots)

structure Deleted (address : Address) (n : Node κ) (roots roots' : List (Node κ)) : Prop where
  read : address.read? roots = some (.node n)
  /-- Paths to other places than the node, the owner of the list and the nodes above it lead where
  they led, with their step through the list moved down if it is behind the node. -/
  elsewhere : ∀ other : NodePath, ¬ address.Encloses other →
    address.crossing? other ≠ some address.place →
    (address.relocate (fun position =>
      if address.place < position then position - 1 else position) other).resolve? roots' =
        other.resolve? roots
  undone : address.insert roots' [n] = (true, roots)

theorem inserted_setList (here : address.list? roots = some list) (le : address.place ≤ list.length)
    (nodes : List (Node κ)) : Inserted address nodes roots (address.setList
      (list.take address.place ++ nodes ++ list.drop address.place) roots) where
  held i bound := by
    have length : (list.take address.place).length = address.place := by
      rw [List.length_take, Nat.min_eq_left le]
    have there := list?_withPlace (address.place + i) ▸ list?_setList here
      (list.take address.place ++ nodes ++ list.drop address.place)
    have place : (address.withPlace (address.place + i)).place = address.place + i := by
      cases address <;> rfl
    rw [read?_of_list? there, place, List.append_assoc, List.getElem?_append_right (by omega),
      length, Nat.add_sub_cancel_left, List.getElem?_append_left bound]
  elsewhere other beside := by
    refine resolve?_relocate here beside fun position _ => ?_
    grind
  undone := by
    have length : (list.take address.place).length = address.place := by
      rw [List.length_take, Nat.min_eq_left le]
    rw [deleteMany_setList here length, List.take_append_drop, setList_self here]

theorem deleted_setList (here : address.list? roots = some list) {n : Node κ}
    (inside : list[address.place]? = some n) :
    Deleted address n roots (address.setList (list.eraseIdx address.place) roots) where
  read := by rw [read?_of_list? here, inside, Option.map_some]
  elsewhere other beside outside := by
    refine resolve?_relocate here beside fun position crosses => ?_
    have differs : position ≠ address.place := fun eq => outside (eq ▸ crosses)
    grind
  undone := by
    obtain ⟨bound, rfl⟩ := List.getElem?_eq_some_iff.1 inside
    have le : address.place ≤ (list.eraseIdx address.place).length := by
      rw [List.length_eraseIdx_of_lt bound]
      omega
    have restored : (list.eraseIdx address.place).take address.place ++ [list[address.place]] ++
        (list.eraseIdx address.place).drop address.place = list := by
      have length : (list.take address.place).length = address.place := by
        rw [List.length_take, Nat.min_eq_left (Nat.le_of_lt bound)]
      rw [List.eraseIdx_eq_take_drop_succ, List.take_left' length, List.drop_left' length,
        List.append_assoc, List.singleton_append, List.getElem_cons_drop, List.take_append_drop]
    rw [insert_of_list? (list?_setList here _) le, restored, setList_setList here,
      setList_self here]

/-- An insertion succeeds exactly at a position of a list or at its end, and a deletion exactly
where there is a node, which it gives.  Either moves all other nodes as `Inserted` and `Deleted`
say, and is undone by the other; what cannot be done changes nothing, and a slot is no position. -/
theorem insert_delete_relocate (roots nodes : List (Node κ)) (address : Address) :
    ((address.insert roots nodes).1 = true ↔
      ∃ list, address.list? roots = some list ∧ address.place ≤ list.length) ∧
    (∀ roots', address.insert roots nodes = (true, roots') →
      Inserted address nodes roots roots') ∧
    ((address.delete roots).1.isSome = true ↔
      ∃ list, address.list? roots = some list ∧ address.place < list.length) ∧
    (∀ n roots', address.delete roots = (some n, roots') → Deleted address n roots roots') ∧
    (∀ roots', address.insert roots nodes = (false, roots') → roots' = roots) ∧
    (∀ roots', address.delete roots = (none, roots') → roots' = roots) ∧
    (address.isPosition = false →
      address.insert roots nodes = (false, roots) ∧ address.delete roots = (none, roots)) := by
  have inserts := insert_cases roots nodes address
  have deletes := delete_cases roots address
  refine ⟨?_, ?_, ?_, ?_, ?_, ?_, ?_⟩
  · rcases inserts with ⟨list, here, le, done⟩ | ⟨refused, done⟩
    · simpa [done] using ⟨list, here, le⟩
    · simpa [done] using refused
  · intro roots' done
    rcases inserts with ⟨list, here, le, done'⟩ | ⟨-, done'⟩
    · obtain ⟨-, rfl⟩ := Prod.mk.inj (done'.symm.trans done)
      exact inserted_setList here le nodes
    · cases (Prod.mk.inj (done'.symm.trans done)).1
  · rcases deletes with ⟨list, n, here, inside, done⟩ | ⟨refused, done⟩
    · obtain ⟨bound, -⟩ := List.getElem?_eq_some_iff.1 inside
      simpa [done] using ⟨list, here, bound⟩
    · simpa [done] using refused
  · intro n roots' done
    rcases deletes with ⟨list, m, here, inside, done'⟩ | ⟨-, done'⟩
    · obtain ⟨same, rfl⟩ := Prod.mk.inj (done'.symm.trans done)
      obtain rfl := Option.some.inj same
      exact deleted_setList here inside
    · cases (Prod.mk.inj (done'.symm.trans done)).1
  · intro roots' fails
    rcases inserts with ⟨_, -, -, done⟩ | ⟨-, done⟩
    · cases (Prod.mk.inj (done.symm.trans fails)).1
    · exact (Prod.mk.inj (done.symm.trans fails)).2.symm
  · intro roots' fails
    rcases deletes with ⟨_, _, -, -, done⟩ | ⟨-, done⟩
    · cases (Prod.mk.inj (done.symm.trans fails)).1
    · exact (Prod.mk.inj (done.symm.trans fails)).2.symm
  · intro slot
    cases address with
    | slot => exact ⟨rfl, rfl⟩
    | root | body => cases slot

section
open Catalog

/-- Two nodes go in before the step of a loop. The step moves up by two, the condition stays, two
deletions bring the loop back, and a loop that was taken out can be put back. -/
theorem insert_delete_relocate_counting :
    ∃ roots', (body ⟨0, []⟩ 0 0).insert counting
        [.block (.signal .stop) [], .block (.signal .beep) []] = (true, roots') ∧
      (body ⟨0, []⟩ 0 1).read? roots' = some (.node (.block (.signal .beep) [])) ∧
      (⟨0, [.body 0 2, .slot 1]⟩ : NodePath).resolve? roots' =
        (⟨0, [.body 0 0, .slot 1]⟩ : NodePath).resolve? counting ∧
      (⟨0, [.slot 0]⟩ : NodePath).resolve? roots' = (⟨0, [.slot 0]⟩ : NodePath).resolve? counting ∧
      (body ⟨0, []⟩ 0 0).deleteMany 2 roots' =
        ([some (.block (.signal .stop) []), some (.block (.signal .beep) [])], counting) ∧
      (root 0).insert ((root 0).delete counting).2 counting = (true, counting) ∧
      (body ⟨0, []⟩ 0 2).insert counting counting = (false, counting) := by
  obtain ⟨-, inserted, -⟩ := insert_delete_relocate counting
    [.block (.signal .stop) [], .block (.signal .beep) []] (body ⟨0, []⟩ 0 0)
  obtain ⟨-, -, -, deleted, -⟩ := insert_delete_relocate counting [] (root 0)
  have put := inserted _ rfl
  refine ⟨_, rfl, put.held 1 (by decide), put.elsewhere ⟨0, [.body 0 0, .slot 1]⟩ ?_,
    put.elsewhere ⟨0, [.slot 0]⟩ ?_, put.undone, (deleted _ _ rfl).undone, rfl⟩
  · simp [Encloses, NodePath.Leads]
  · simp [Encloses, NodePath.Leads]

end

end BlockScript.Address
