import BlockScript.Node.Basic

/-!
# The nodes of a tree

`children` lists the nodes directly under a node: those in its slots and statement lists, and for a
preview the copy that it shows and the node that it covers.  `Node.induction` is induction along
`children`, and `Every` is a property of all nodes of a tree; `wellFormed_iff_every` reads
well-formedness as such a property.
-/

namespace BlockScript

variable {κ : Type}

namespace Node

def children : Node κ → List (Node κ)
  | block _ inputs => inputs.filterMap Input.asNode?
  | control _ inputs bodies => inputs.filterMap Input.asNode? ++ bodies.flatten
  | reference _ _ => []
  | declaration _ => []
  | shadow _ shadowed covered => shadowed.toList ++ (covered.bind Input.asNode?).toList

theorem sizeOf_lt_of_mem_inputs {m : Node κ} {inputs : List (Input κ)}
    (member : m ∈ inputs.filterMap Input.asNode?) : sizeOf m < sizeOf inputs := by
  obtain ⟨input, mem, eq⟩ := List.mem_filterMap.1 member
  have below := List.sizeOf_lt_of_mem mem
  cases input with
  | literal value => simp [Input.asNode?] at eq
  | node n =>
      simp only [Input.asNode?, Option.some.injEq] at eq
      subst eq
      simp only [Input.node.sizeOf_spec] at below
      omega

theorem sizeOf_lt_of_mem_bodies {m : Node κ} {bodies : List (List (Node κ))}
    (member : m ∈ bodies.flatten) : sizeOf m < sizeOf bodies := by
  obtain ⟨body, mem, inside⟩ := List.mem_flatten.1 member
  have outer := List.sizeOf_lt_of_mem mem
  have inner := List.sizeOf_lt_of_mem inside
  omega

theorem sizeOf_lt_of_mem_children {m n : Node κ} (member : m ∈ n.children) :
    sizeOf m < sizeOf n := by
  cases n with
  | block k inputs =>
      have := sizeOf_lt_of_mem_inputs member
      simp only [block.sizeOf_spec]
      omega
  | control k inputs bodies =>
      simp only [control.sizeOf_spec]
      rcases List.mem_append.1 member with member | member
      · have := sizeOf_lt_of_mem_inputs member
        omega
      · have := sizeOf_lt_of_mem_bodies member
        omega
  | reference k name => simp [children] at member
  | declaration k => simp [children] at member
  | shadow k shadowed covered =>
      simp only [shadow.sizeOf_spec]
      rcases List.mem_append.1 member with member | member
      · obtain rfl := Option.mem_toList.1 member
        simp only [Option.some.sizeOf_spec]
        omega
      · rcases covered with _ | _ | n
        · simp at member
        · simp [Input.asNode?] at member
        · simp only [Option.bind_some, Input.asNode?, Option.toList_some,
            List.mem_singleton] at member
          subst member
          simp only [Option.some.sizeOf_spec, Input.node.sizeOf_spec]
          omega

theorem induction {motive : Node κ → Prop}
    (step : ∀ n, (∀ m ∈ n.children, motive m) → motive n) (n : Node κ) : motive n :=
  step n fun m _ => induction step m
termination_by sizeOf n
decreasing_by exact sizeOf_lt_of_mem_children ‹_›

inductive Every (p : Node κ → Prop) : Node κ → Prop where
  | intro {n : Node κ} (here : p n) (below : ∀ m ∈ n.children, Every p m) : Every p n

end Node

def Input.Every (p : Node κ → Prop) : Input κ → Prop
  | literal _ => True
  | node n => n.Every p

namespace Node

variable {p q : Node κ → Prop}

theorem every_iff {n : Node κ} : n.Every p ↔ p n ∧ ∀ m ∈ n.children, m.Every p :=
  ⟨fun | .intro here below => ⟨here, below⟩, fun h => .intro h.1 h.2⟩

theorem Every.and {n : Node κ} (hp : n.Every p) (hq : n.Every q) :
    n.Every fun m => p m ∧ q m := by
  induction hp with
  | intro here _ ih =>
      obtain ⟨here', below⟩ := every_iff.1 hq
      exact .intro ⟨here, here'⟩ fun m mem => ih m mem (below m mem)

theorem Every.sub {n : Node κ} (h : n.Every p) (step : ∀ m, m.Every p → q m) : n.Every q := by
  induction h with
  | intro here below ih => exact .intro (step _ (.intro here below)) ih

theorem every_of_forall (h : ∀ n, p n) (n : Node κ) : n.Every p := by
  induction n using Node.induction with
  | step n ih => exact .intro (h n) ih

theorem forall_mem_inputs {inputs : List (Input κ)} :
    (∀ m ∈ inputs.filterMap Input.asNode?, m.Every p) ↔ ∀ input ∈ inputs, input.Every p := by
  simp only [List.mem_filterMap]
  constructor
  · intro h input mem
    cases input with
    | literal value => trivial
    | node n => exact h n ⟨_, mem, rfl⟩
  · rintro h m ⟨input, mem, eq⟩
    cases input with
    | literal value => simp [Input.asNode?] at eq
    | node n =>
        obtain rfl := Option.some.inj eq
        exact h _ mem

@[simp] theorem every_block {k : κ} {inputs : List (Input κ)} :
    (block k inputs).Every p ↔ p (block k inputs) ∧ ∀ input ∈ inputs, input.Every p := by
  rw [every_iff, children, forall_mem_inputs]

@[simp] theorem every_control {k : κ} {inputs : List (Input κ)} {bodies : List (List (Node κ))} :
    (control k inputs bodies).Every p ↔ p (control k inputs bodies) ∧
      (∀ input ∈ inputs, input.Every p) ∧ ∀ body ∈ bodies, ∀ n ∈ body, n.Every p := by
  rw [every_iff, children, List.forall_mem_append, forall_mem_inputs]
  simp only [List.mem_flatten]
  exact and_congr_right fun _ => and_congr_right fun _ =>
    ⟨fun h body mem n inside => h n ⟨body, mem, inside⟩,
      fun h n ⟨body, mem, inside⟩ => h body mem n inside⟩

@[simp] theorem every_reference {k : κ} {name : String} :
    (reference k name).Every p ↔ p (reference k name) := by
  rw [every_iff, children]
  simp

@[simp] theorem every_declaration {k : κ} : (declaration k).Every p ↔ p (declaration k) := by
  rw [every_iff, children]
  simp

@[simp] theorem every_shadow {k : κ} {shadowed : Option (Node κ)} {covered : Option (Input κ)} :
    (shadow k shadowed covered).Every p ↔ p (shadow k shadowed covered) ∧
      (∀ n, shadowed = some n → n.Every p) ∧ ∀ input, covered = some input → input.Every p := by
  rw [every_iff, children, List.forall_mem_append]
  refine and_congr_right fun _ => and_congr (by simp) ?_
  rcases covered with _ | _ | n <;> simp [Input.asNode?, Input.Every]

end Node

@[simp] theorem Input.every_literal {p : Node κ → Prop} {value : Value} :
    (Input.literal value).Every p := trivial

@[simp] theorem Input.every_node {p : Node κ → Prop} {n : Node κ} :
    (Input.node n).Every p ↔ n.Every p := Iff.rfl

/-! ## Well-formedness -/

namespace Node

section
variable [Vocabulary κ]

theorem fits_block {k : κ} {inputs : List (Input κ)} (fits : (block k inputs).fits = true) :
    ((describe k).category = .statement ∨ (describe k).category = .expression) ∧
      inputs.length = (describe k).slots.length := by
  simp only [Node.fits, Node.kind] at fits
  split at fits
  all_goals simp_all

theorem category_of_fits_block {k : κ} {inputs : List (Input κ)}
    (fits : (block k inputs).fits = true) : (describe k).category ≠ .reference := by
  obtain ⟨category, -⟩ := fits_block fits
  rcases category with h | h
  · simp [h]
  · simp [h]

theorem fits_control {k : κ} {inputs : List (Input κ)} {bodies : List (List (Node κ))}
    (fits : (control k inputs bodies).fits = true) :
    ∃ flow, (describe k).category = .control flow ∧
      inputs.length = (describe k).slots.length ∧ bodies.length = flow.bodyCount := by
  simp only [Node.fits, Node.kind] at fits
  split at fits
  all_goals simp_all

theorem inputsWellFormed_iff {inputs : List (Input κ)} :
    inputsWellFormed inputs = true ↔ ∀ input ∈ inputs, inputWellFormed input = true := by
  induction inputs with
  | nil => simp [inputsWellFormed]
  | cons input rest ih => simp [inputsWellFormed, ih]

theorem listWellFormed_iff {nodes : List (Node κ)} :
    listWellFormed nodes = true ↔ ∀ n ∈ nodes, wellFormed n = true := by
  induction nodes with
  | nil => simp [listWellFormed]
  | cons n rest ih => simp [listWellFormed, ih]

theorem bodiesWellFormed_iff {bodies : List (List (Node κ))} :
    bodiesWellFormed bodies = true ↔ ∀ body ∈ bodies, ∀ n ∈ body, wellFormed n = true := by
  induction bodies with
  | nil => simp [bodiesWellFormed]
  | cons body rest ih => simp [bodiesWellFormed, listWellFormed_iff, ih]

theorem wellFormed_iff_every (n : Node κ) :
    n.wellFormed = true ↔ n.Every fun m => m.fits = true := by
  induction n using Node.induction with
  | step n ih =>
      have inputs (input : Input κ) (under : ∀ m, input = .node m → m ∈ n.children) :
          inputWellFormed input = true ↔ input.Every fun m => m.fits = true := by
        cases input with
        | literal value => simp [inputWellFormed]
        | node m => simpa [inputWellFormed] using ih m (under m rfl)
      cases n with
      | block k list =>
          rw [wellFormed, Bool.and_eq_true, inputsWellFormed_iff, every_block]
          exact and_congr_right fun _ => forall₂_congr fun input mem =>
            inputs input fun m eq => List.mem_filterMap.2 ⟨_, eq ▸ mem, rfl⟩
      | control k list bodies =>
          rw [wellFormed, Bool.and_eq_true, Bool.and_eq_true, inputsWellFormed_iff,
            bodiesWellFormed_iff, every_control, and_assoc]
          refine and_congr_right fun _ => and_congr ?_ ?_
          · exact forall₂_congr fun input mem => inputs input fun m eq =>
              List.mem_append_left _ (List.mem_filterMap.2 ⟨_, eq ▸ mem, rfl⟩)
          · exact forall₂_congr fun body mem => forall₂_congr fun m inside =>
              ih m (List.mem_append_right _ (List.mem_flatten.2 ⟨body, mem, inside⟩))
      | reference k name => rw [wellFormed, every_reference]
      | declaration k => rw [wellFormed, every_declaration]
      | shadow k shadowed covered =>
          rw [wellFormed, Bool.and_eq_true, Bool.and_eq_true, every_shadow, and_assoc]
          refine and_congr_right fun _ => and_congr ?_ ?_
          · cases shadowed with
            | none => simp [shadowedWellFormed]
            | some m => simpa [shadowedWellFormed] using ih m (by simp [children])
          · cases covered with
            | none => simp [coveredWellFormed]
            | some input =>
                simpa [coveredWellFormed] using
                  inputs input fun m eq => by simp [children, eq, Input.asNode?]

theorem listWellFormed_iff_every {nodes : List (Node κ)} :
    listWellFormed nodes = true ↔ ∀ n ∈ nodes, n.Every fun m => m.fits = true := by
  simp only [listWellFormed_iff, wellFormed_iff_every]

end

end Node

end BlockScript
