import BlockScript.Node.Address
import Mathlib.Data.List.Basic

/-!
# Replacing a part of a tree

What the walk of an edit focuses on is what reading finds there (`focusInput?_eq`, `focusBody?_eq`,
`focusChild?_eq`).  So an edit at a path finds the node that the path leads to, changes it, and puts
the changed node in its place: `edit?_eq` says so, with `graft` for the last part.  A grafted node
is what its path leads to afterwards (`follow?_graft_append`), every path that does not lead through
it leads where it led before (`follow?_graft_of_not_prefix`), and grafting the node that was there
undoes it (`graft_graft`, `graft_self`).
-/

namespace BlockScript

variable {κ β : Type}

theorem set_of_getElem? {α : Type} {list : List α} {i : Nat} {a : α} (here : list[i]? = some a) :
    list.set i a = list := by
  obtain ⟨bound, rfl⟩ := List.getElem?_eq_some_iff.1 here
  exact List.set_getElem_self bound

namespace Node

/-! ## Slots and statement lists -/

section
variable (n : Node κ)

@[simp] theorem inputs_setInput (slot : Nat) (input : Input κ) :
    (n.setInput slot input).inputs = n.inputs.set slot input := by
  cases n <;> simp [setInput, inputs]

@[simp] theorem bodies_setInput (slot : Nat) (input : Input κ) :
    (n.setInput slot input).bodies = n.bodies := by
  cases n <;> rfl

@[simp] theorem inputs_setBody (i : Nat) (body : List (Node κ)) :
    (n.setBody i body).inputs = n.inputs := by
  cases n <;> rfl

@[simp] theorem bodies_setBody (i : Nat) (body : List (Node κ)) :
    (n.setBody i body).bodies = n.bodies.set i body := by
  cases n <;> simp [setBody, bodies]

@[simp] theorem setInput_setInput (slot : Nat) (input input' : Input κ) :
    (n.setInput slot input).setInput slot input' = n.setInput slot input' := by
  cases n <;> simp [setInput]

@[simp] theorem setBody_setBody (i : Nat) (body body' : List (Node κ)) :
    (n.setBody i body).setBody i body' = n.setBody i body' := by
  cases n <;> simp [setBody]

variable {n}

theorem setInput_self {slot : Nat} {input : Input κ} (here : n.inputs[slot]? = some input) :
    n.setInput slot input = n := by
  cases n with
  | block k list => exact congrArg (block k) (set_of_getElem? here)
  | control k list bodies => exact congrArg (control k · bodies) (set_of_getElem? here)
  | reference | declaration | shadow => rfl

theorem setBody_self {i : Nat} {body : List (Node κ)} (here : n.bodies[i]? = some body) :
    n.setBody i body = n := by
  cases n with
  | control k inputs lists => exact congrArg (control k inputs) (set_of_getElem? here)
  | block | reference | declaration | shadow => rfl

variable (n)

theorem focusInput?_eq (slot : Nat) :
    n.focusInput? slot =
      n.inputs[slot]?.map fun input => (input, fun other => n.setInput slot other) := by
  cases n with
  | block k list => cases here : list[slot]? <;> simp [focusInput?, inputs, setInput, here]
  | control k list bodies => cases here : list[slot]? <;> simp [focusInput?, inputs, setInput, here]
  | reference | declaration | shadow => rfl

theorem focusBody?_eq (i : Nat) :
    n.focusBody? i = n.bodies[i]?.map fun body => (body, fun other => n.setBody i other) := by
  cases n with
  | control k list lists => cases here : lists[i]? <;> simp [focusBody?, bodies, setBody, here]
  | block | reference | declaration | shadow => rfl

end

/-! ## One step -/

def setChild (n : Node κ) (child : Node κ) : Step → Node κ
  | .slot slot => n.setInput slot (.node child)
  | .body body position => n.setBody body ((n.bodies.getD body []).set position child)

theorem focusChild?_eq (n : Node κ) (step : Step) :
    n.focusChild? step = (n.child? step).map fun child => (child, fun m => n.setChild m step) := by
  cases step with
  | slot slot =>
      rw [focusChild?, child?, focusInput?_eq]
      cases n.inputs[slot]? with
      | none => rfl
      | some input => cases input <;> rfl
  | body i position =>
      simp only [focusChild?, child?, focusBody?_eq, setChild, List.getD_eq_getElem?_getD]
      cases n.bodies[i]? with
      | none => rfl
      | some list =>
          simp only [Option.map_some, Option.bind_eq_bind, Option.bind_some, Option.getD_some]
          cases list[position]? <;> rfl

section
variable {n m : Node κ} {step : Step}

theorem child?_slot {slot : Nat} : n.child? (.slot slot) = some m ↔
    n.inputs[slot]? = some (.node m) := by
  rw [child?, Option.bind_eq_bind, Option.bind_eq_some_iff]
  constructor
  · rintro ⟨_ | n, here, node⟩
    · cases node
    · obtain rfl := Option.some.inj node
      exact here
  · exact fun here => ⟨_, here, rfl⟩

theorem child?_body {i position : Nat} : n.child? (.body i position) = some m ↔
    ∃ body, n.bodies[i]? = some body ∧ body[position]? = some m :=
  Option.bind_eq_some_iff

theorem child?_setChild (found : n.child? step = some m) (m' : Node κ) :
    (n.setChild m' step).child? step = some m' := by
  cases step with
  | slot slot =>
      obtain ⟨bound, -⟩ := List.getElem?_eq_some_iff.1 (child?_slot.1 found)
      rw [child?_slot, setChild, inputs_setInput, List.getElem?_set_self bound]
  | body i position =>
      obtain ⟨body, here, inside⟩ := child?_body.1 found
      obtain ⟨row, eq⟩ := List.getElem?_eq_some_iff.1 here
      obtain ⟨bound, -⟩ := List.getElem?_eq_some_iff.1 inside
      refine child?_body.2 ⟨body.set position m', ?_, List.getElem?_set_self bound⟩
      simp [setChild, row, eq]

theorem child?_setChild_of_ne (found : n.child? step = some m) (m' : Node κ) {other : Step}
    (ne : other ≠ step) : (n.setChild m' step).child? other = n.child? other := by
  cases step with
  | slot slot =>
      cases other with
      | slot j =>
          have differs : slot ≠ j := fun same => ne (same ▸ rfl)
          simp only [child?, setChild, inputs_setInput, List.getElem?_set_ne differs]
      | body j position => simp only [child?, setChild, bodies_setInput]
  | body i position =>
      obtain ⟨body, here, -⟩ := child?_body.1 found
      cases other with
      | slot j => simp only [child?, setChild, inputs_setBody]
      | body j position' =>
          simp only [child?, setChild, bodies_setBody]
          by_cases same : i = j
          · subst same
            have differs : position ≠ position' := fun same => ne (same ▸ rfl)
            obtain ⟨row, -⟩ := List.getElem?_eq_some_iff.1 here
            simp [row, List.getElem?_set_ne differs]
          · rw [List.getElem?_set_ne same]

theorem setChild_setChild (found : n.child? step = some m) (m' m'' : Node κ) :
    (n.setChild m' step).setChild m'' step = n.setChild m'' step := by
  cases step with
  | slot slot => simp only [setChild, setInput_setInput]
  | body i position =>
      obtain ⟨body, here, -⟩ := child?_body.1 found
      obtain ⟨row, -⟩ := List.getElem?_eq_some_iff.1 here
      simp [setChild, row]

theorem setChild_self (found : n.child? step = some m) : n.setChild m step = n := by
  cases step with
  | slot slot => exact setInput_self (child?_slot.1 found)
  | body i position =>
      obtain ⟨body, here, inside⟩ := child?_body.1 found
      rw [setChild, List.getD_eq_getElem?_getD, here, Option.getD_some,
        set_of_getElem? inside]
      exact setBody_self here

end

/-! ## Any number of steps -/

def graft : Node κ → Node κ → List Step → Node κ
  | _, m, [] => m
  | n, m, step :: rest =>
    match n.child? step with
    | some child => n.setChild (graft child m rest) step
    | none => n

variable {n m : Node κ} {steps : List Step}

theorem follow?_cons {step : Step} : n.follow? (step :: steps) = some m ↔
    ∃ child, n.child? step = some child ∧ child.follow? steps = some m :=
  Option.bind_eq_some_iff

theorem follow?_append (n : Node κ) (steps rest : List Step) :
    n.follow? (steps ++ rest) = (n.follow? steps).bind (·.follow? rest) := by
  induction steps generalizing n with
  | nil => rfl
  | cons step steps ih =>
      rw [List.cons_append, follow?, follow?]
      cases n.child? step with
      | none => rfl
      | some child => exact ih child

theorem graft_cons {step : Step} {child : Node κ} (found : n.child? step = some child)
    (m : Node κ) : n.graft m (step :: steps) = n.setChild (child.graft m steps) step := by
  rw [graft, found]

theorem edit?_eq (f : Node κ → Option (β × Node κ)) (n : Node κ) : n.edit? f steps =
    (n.follow? steps).bind fun m => (f m).map fun r => (r.1, n.graft r.2 steps) := by
  induction steps generalizing n with
  | nil =>
      rw [edit?, follow?, Option.bind_some]
      cases f n <;> rfl
  | cons step rest ih =>
      rw [edit?, follow?, focusChild?_eq]
      cases found : n.child? step with
      | none => rfl
      | some child =>
          simp only [Option.map_some, Option.bind_eq_bind, Option.bind_some, ih child,
            graft_cons found]
          cases child.follow? rest with
          | none => rfl
          | some m =>
              rw [Option.bind_some, Option.bind_some]
              cases f m <;> rfl

theorem follow?_graft_append (found : n.follow? steps = some m) (m' : Node κ) (rest : List Step) :
    (n.graft m' steps).follow? (steps ++ rest) = m'.follow? rest := by
  induction steps generalizing n with
  | nil => rfl
  | cons step steps ih =>
      obtain ⟨child, here, below⟩ := follow?_cons.1 found
      rw [graft_cons here, List.cons_append, follow?, child?_setChild here]
      exact ih below

theorem follow?_graft (found : n.follow? steps = some m) (m' : Node κ) :
    (n.graft m' steps).follow? steps = some m' := by
  simpa [follow?] using follow?_graft_append found m' []

theorem follow?_graft_of_not_prefix (found : n.follow? steps = some m) (m' : Node κ)
    {other : List Step} (above : ¬ other <+: steps) (through : ¬ steps <+: other) :
    (n.graft m' steps).follow? other = n.follow? other := by
  induction steps generalizing n other with
  | nil => exact absurd List.nil_prefix through
  | cons step steps ih =>
      rcases other with _ | ⟨turn, others⟩
      · exact absurd List.nil_prefix above
      obtain ⟨child, here, below⟩ := follow?_cons.1 found
      rw [graft_cons here, follow?, follow?]
      by_cases same : turn = step
      · subst same
        rw [List.cons_prefix_cons] at above through
        rw [child?_setChild here, here]
        exact ih below (fun h => above ⟨rfl, h⟩) fun h => through ⟨rfl, h⟩
      · rw [child?_setChild_of_ne here _ same]

theorem graft_graft (found : n.follow? steps = some m) (m' m'' : Node κ) :
    (n.graft m' steps).graft m'' steps = n.graft m'' steps := by
  induction steps generalizing n with
  | nil => rfl
  | cons step steps ih =>
      obtain ⟨child, here, below⟩ := follow?_cons.1 found
      rw [graft_cons here, graft_cons (child?_setChild here _), graft_cons here, ih below,
        setChild_setChild here]

theorem graft_self (found : n.follow? steps = some m) : n.graft m steps = n := by
  induction steps generalizing n with
  | nil => exact (Option.some.inj found).symm
  | cons step steps ih =>
      obtain ⟨child, here, below⟩ := follow?_cons.1 found
      rw [graft_cons here, ih below, setChild_self here]

end Node

/-! ## Paths -/

namespace NodePath

def next (path : NodePath) (step : Step) : NodePath := { path with steps := path.steps ++ [step] }

/-- The other path goes through the node at the end of the path, or ends there. -/
def Leads (path other : NodePath) : Prop := path.root = other.root ∧ path.steps <+: other.steps

def graft (path : NodePath) (m : Node κ) (roots : List (Node κ)) : List (Node κ) :=
  match roots[path.root]? with
  | some root => roots.set path.root (root.graft m path.steps)
  | none => roots

variable {path : NodePath} {roots : List (Node κ)} {m : Node κ}

theorem resolve?_eq_some : path.resolve? roots = some m ↔
    ∃ root, roots[path.root]? = some root ∧ root.follow? path.steps = some m :=
  Option.bind_eq_some_iff

theorem resolve?_next (step : Step) :
    (path.next step).resolve? roots = (path.resolve? roots).bind (·.child? step) := by
  simp only [resolve?, next, Option.bind_eq_bind, Node.follow?_append]
  cases roots[path.root]? with
  | none => rfl
  | some root =>
      simp only [Option.bind_some, Node.follow?, Option.bind_eq_bind]
      cases root.follow? path.steps with
      | none => rfl
      | some n => exact Option.bind_fun_some (n.child? step)

theorem graft_of_getElem? {root : Node κ} (here : roots[path.root]? = some root) (m : Node κ) :
    path.graft m roots = roots.set path.root (root.graft m path.steps) := by
  rw [graft, here]

theorem edit?_eq (f : Node κ → Option (β × Node κ)) : path.edit? f roots =
    (path.resolve? roots).bind fun m => (f m).map fun r => (r.1, path.graft r.2 roots) := by
  rw [edit?, resolve?]
  cases here : roots[path.root]? with
  | none => rfl
  | some root =>
      simp only [Option.bind_eq_bind, Option.bind_some, Node.edit?_eq, graft_of_getElem? here]
      cases root.follow? path.steps with
      | none => rfl
      | some n =>
          rw [Option.bind_some, Option.bind_some]
          cases f n <;> rfl

theorem getElem?_graft {root : Node κ} (here : roots[path.root]? = some root) (m : Node κ)
    (i : Nat) : (path.graft m roots)[i]? =
      if i = path.root then some (root.graft m path.steps) else roots[i]? := by
  obtain ⟨bound, -⟩ := List.getElem?_eq_some_iff.1 here
  rw [graft_of_getElem? here, List.getElem?_set]
  by_cases same : path.root = i
  · simp [← same, bound]
  · rw [if_neg same, if_neg (Ne.symm same)]

theorem resolve?_graft (found : path.resolve? roots = some m) (m' : Node κ) :
    path.resolve? (path.graft m' roots) = some m' := by
  obtain ⟨root, here, below⟩ := resolve?_eq_some.1 found
  exact resolve?_eq_some.2
    ⟨_, (getElem?_graft here m' _).trans (if_pos rfl), Node.follow?_graft below m'⟩

theorem resolve?_graft_of_leads (found : path.resolve? roots = some m) (m' : Node κ)
    {other : NodePath} {rest : List Step} (root : other.root = path.root)
    (steps : other.steps = path.steps ++ rest) :
    other.resolve? (path.graft m' roots) = m'.follow? rest := by
  obtain ⟨_, here, below⟩ := resolve?_eq_some.1 found
  rw [resolve?, root, getElem?_graft here, if_pos rfl, steps]
  exact Node.follow?_graft_append below m' rest

theorem resolve?_of_leads (found : path.resolve? roots = some m) {other : NodePath}
    {rest : List Step} (root : other.root = path.root) (steps : other.steps = path.steps ++ rest) :
    other.resolve? roots = m.follow? rest := by
  obtain ⟨_, here, below⟩ := resolve?_eq_some.1 found
  simp only [resolve?, root, here, steps, Node.follow?_append, below, Option.bind_eq_bind,
    Option.bind_some]

theorem resolve?_graft_of_not_leads (found : path.resolve? roots = some m) (m' : Node κ)
    {other : NodePath} (above : ¬ other.Leads path) (through : ¬ path.Leads other) :
    other.resolve? (path.graft m' roots) = other.resolve? roots := by
  obtain ⟨root, here, below⟩ := resolve?_eq_some.1 found
  rw [resolve?, resolve?, getElem?_graft here]
  by_cases same : other.root = path.root
  · rw [if_pos same, same, here]
    exact Node.follow?_graft_of_not_prefix below m' (fun h => above ⟨same, h⟩)
      fun h => through ⟨same.symm, h⟩
  · rw [if_neg same]

/-- A path that does not end at the grafted node or above it leads where it led, if the step by
which it goes on from the node finds the same child there. -/
theorem resolve?_graft_of_child? (found : path.resolve? roots = some m) {m' : Node κ}
    {other : NodePath} (above : ¬ other.Leads path)
    (same : other.root = path.root → ∀ step rest, other.steps = path.steps ++ step :: rest →
      m'.child? step = m.child? step) :
    other.resolve? (path.graft m' roots) = other.resolve? roots := by
  by_cases below : path.Leads other
  · obtain ⟨root, rest, steps⟩ := below
    rw [resolve?_graft_of_leads found _ root.symm steps.symm,
      resolve?_of_leads found root.symm steps.symm]
    cases rest with
    | nil => exact absurd ⟨root.symm, by simp [← steps]⟩ above
    | cons step rest => rw [Node.follow?, Node.follow?, same root.symm step rest steps.symm]
  · exact resolve?_graft_of_not_leads found m' above below

theorem graft_graft (found : path.resolve? roots = some m) (m' m'' : Node κ) :
    path.graft m'' (path.graft m' roots) = path.graft m'' roots := by
  obtain ⟨root, here, below⟩ := resolve?_eq_some.1 found
  have here' := (getElem?_graft here m' path.root).trans (if_pos rfl)
  rw [graft_of_getElem? here', graft_of_getElem? here, graft_of_getElem? here, List.set_set,
    Node.graft_graft below]

theorem graft_self (found : path.resolve? roots = some m) : path.graft m roots = roots := by
  obtain ⟨root, here, below⟩ := resolve?_eq_some.1 found
  rw [graft_of_getElem? here, Node.graft_self below, set_of_getElem? here]

end NodePath

end BlockScript
