import BlockScript.Proofs.Document.Adoption
import BlockScript.Proofs.Evaluation.Horizons

/-!
# What a program does after saving and loading

Evaluation and documents read previews separately: evaluation looks through a preview whenever it
comes to one, and a document leaves previews out.  The two agree on programs that are `Lasting`:
there a preview in a slot covers an input, and a preview in a list covers no node.  What stripping
leaves of such a program has a document (`Lasting.kept`) and runs like the program itself
(`Lasting.alike`); `execute_reloaded` puts this together, for every state and whatever the blocks do.
-/

namespace BlockScript

variable {κ : Type} [Vocabulary κ]

/-! ## Lasting programs -/

mutual

/-- A node of which a document keeps all that its evaluation comes to. -/
inductive Node.Lasting (registry : Registry κ) : Node κ → Prop where
  | block {k : κ} {inputs : List (Input κ)} (registered : registry.Registered k)
      (slots : ∀ input ∈ inputs, Input.Lasting registry input) :
      Node.Lasting registry (.block k inputs)
  | control {k : κ} {inputs : List (Input κ)} {bodies : List (List (Node κ))}
      (registered : registry.Registered k)
      (slots : ∀ input ∈ inputs, Input.Lasting registry input)
      (lists : ∀ body ∈ bodies, ∀ n ∈ body, Node.LastingItem registry n) :
      Node.Lasting registry (.control k inputs bodies)
  | reference (k : κ) (name : String) : Node.Lasting registry (.reference k name)

/-- In a slot previews cover something, and there are no markers, covered ones included. -/
inductive Input.Lasting (registry : Registry κ) : Input κ → Prop where
  | literal {value : Value} (finite : value.finite = true) :
      Input.Lasting registry (.literal value)
  | node {n : Node κ} (lasting : Node.Lasting registry n) : Input.Lasting registry (.node n)
  | shadow (k : κ) (shadowed : Option (Node κ)) {covered : Input κ}
      (lasting : Input.Lasting registry covered) :
      Input.Lasting registry (.node (.shadow k shadowed (some covered)))

/-- In a list there may be markers as well, and previews that cover no node. -/
inductive Node.LastingItem (registry : Registry κ) : Node κ → Prop where
  | node {n : Node κ} (lasting : Node.Lasting registry n) : Node.LastingItem registry n
  | declaration (k : κ) : Node.LastingItem registry (.declaration k)
  | shadow (k : κ) (shadowed : Option (Node κ)) {covered : Option (Input κ)}
      (plain : ∀ n, covered ≠ some (.node n)) :
      Node.LastingItem registry (.shadow k shadowed covered)

end

section
variable {registry : Registry κ} {own : κ}

theorem Node.Lasting.isPersistent {n : Node κ} (lasting : n.Lasting registry) :
    Document.isPersistent n = true := by
  cases lasting <;> rfl

theorem Node.Lasting.isShadow {n : Node κ} (lasting : n.Lasting registry) : n.isShadow = false :=
  Document.isShadow_of_isPersistent lasting.isPersistent

mutual

theorem Node.Lasting.adopt {n : Node κ} : n.Lasting registry → (n.adopt own).Lasting registry
  | .block registered slots => by
      rw [Node.adopt, Node.adoptInputs_eq_map]
      exact .block registered (List.forall_mem_map.2 fun input mem => (slots input mem).adopt)
  | .control registered slots lists => by
      rw [Node.adopt, Node.adoptInputs_eq_map, Node.adoptBodies_eq_map]
      refine .control registered (List.forall_mem_map.2 fun input mem => (slots input mem).adopt) ?_
      exact List.forall_mem_map.2 fun body mem => List.forall_mem_map.2 fun n inside =>
        (lists body mem n inside).adopt
  | .reference _ name => .reference own name

theorem Input.Lasting.adopt {input : Input κ} :
    input.Lasting registry → (Node.adoptInput own input).Lasting registry
  | .literal finite => .literal finite
  | .node lasting => .node lasting.adopt
  | .shadow k _ lasting => .shadow k none lasting.adopt

theorem Node.LastingItem.adopt {n : Node κ} :
    n.LastingItem registry → (n.adopt own).LastingItem registry
  | .node lasting => .node lasting.adopt
  | .declaration k => .declaration k
  | .shadow k _ plain => .shadow k none fun _ eq => (Node.exists_of_adoptCovered eq).elim plain

end

/-! ## Stripped programs that last -/

theorem Node.forall_mem_stripInputs {p : Input κ → Prop} {inputs : List (Input κ)}
    (each : ∀ input ∈ inputs, ∀ slot, p (stripInput slot input)) (slots : List SlotKind) :
    ∀ input ∈ stripInputs slots inputs, p input := by
  induction inputs generalizing slots with
  | nil => simp [stripInputs]
  | cons input rest ih =>
      obtain ⟨first, others⟩ := List.forall_mem_cons.1 each
      rw [stripInputs]
      exact List.forall_mem_cons.2 ⟨first _, ih others _⟩

theorem Node.forall_mem_stripList {p : Node κ → Prop} {nodes : List (Node κ)}
    (each : ∀ n ∈ nodes, Document.isPersistent n = true → p n.strip) :
    ∀ n ∈ stripList nodes, p n := by
  induction nodes with
  | nil => simp [stripList]
  | cons n rest ih =>
      obtain ⟨first, others⟩ := List.forall_mem_cons.1 each
      rw [stripList_cons]
      split
      · next persistent => exact List.forall_mem_cons.2 ⟨first persistent, ih others⟩
      · exact ih others

theorem Node.forall_mem_stripBodies {p : Node κ → Prop} {bodies : List (List (Node κ))}
    (each : ∀ body ∈ bodies, ∀ n ∈ body, Document.isPersistent n = true → p n.strip) :
    ∀ body ∈ stripBodies bodies, ∀ n ∈ body, p n := by
  induction bodies with
  | nil => simp [stripBodies]
  | cons body rest ih =>
      obtain ⟨first, others⟩ := List.forall_mem_cons.1 each
      rw [stripBodies]
      exact List.forall_mem_cons.2 ⟨forall_mem_stripList first, ih others⟩

def Node.Kept (registry : Registry κ) (n : Node κ) : Prop :=
  n.Every (Node.Writable registry) ∧ n.Every Node.LiteralsFinite

def Input.Kept (registry : Registry κ) (input : Input κ) : Prop :=
  input.Writable registry ∧ input.Finite

theorem Node.kept_block {k : κ} {inputs : List (Input κ)} (registered : registry.Registered k)
    (slots : ∀ input ∈ inputs, input.Kept registry) : (block k inputs).Kept registry := by
  obtain ⟨unmarked, writable⟩ := Input.forall_writable.1 fun input mem => (slots input mem).1
  obtain ⟨finite, literals⟩ := Input.forall_finite.1 fun input mem => (slots input mem).2
  exact ⟨every_block.2 ⟨⟨registered, unmarked⟩, writable⟩, every_block.2 ⟨finite, literals⟩⟩

theorem Node.kept_control {k : κ} {inputs : List (Input κ)} {bodies : List (List (Node κ))}
    (registered : registry.Registered k) (slots : ∀ input ∈ inputs, input.Kept registry)
    (lists : ∀ body ∈ bodies, ∀ n ∈ body, n.Kept registry) :
    (control k inputs bodies).Kept registry := by
  obtain ⟨unmarked, writable⟩ := Input.forall_writable.1 fun input mem => (slots input mem).1
  obtain ⟨finite, literals⟩ := Input.forall_finite.1 fun input mem => (slots input mem).2
  exact ⟨every_control.2 ⟨⟨registered, unmarked⟩, writable, fun body mem n inside =>
      (lists body mem n inside).1⟩,
    every_control.2 ⟨finite, literals, fun body mem n inside => (lists body mem n inside).2⟩⟩

mutual

theorem Node.Lasting.kept {n : Node κ} : n.Lasting registry → n.strip.Kept registry
  | .block registered slots => by
      rw [Node.strip]
      exact Node.kept_block registered <|
        Node.forall_mem_stripInputs (fun input mem slot => (slots input mem).kept slot) _
  | .control registered slots lists => by
      rw [Node.strip]
      refine Node.kept_control registered
        (Node.forall_mem_stripInputs (fun input mem slot => (slots input mem).kept slot) _) ?_
      exact Node.forall_mem_stripBodies fun body mem n inside => (lists body mem n inside).kept
  | .reference k name => by
      simp [Node.strip, Node.Kept, Node.Writable, Registry.Knows, Node.SlotsUnmarked,
        Node.LiteralsFinite, Node.inputs]

theorem Input.Lasting.kept {input : Input κ} :
    input.Lasting registry → ∀ slot, (Node.stripInput slot input).Kept registry
  | .literal finite => fun slot => by
      simpa [Node.stripInput, Input.Kept, Input.Writable, Input.Finite] using finite
  | .node lasting => fun slot => by
      have kept := lasting.kept
      rw [Node.stripInput_node slot lasting.isShadow]
      refine ⟨⟨fun k eq => ?_, kept.1⟩, kept.2⟩
      cases lasting <;> simp [Node.strip] at eq
  | .shadow k _ lasting => fun slot => by
      rw [Node.stripInput]
      exact lasting.kept slot

theorem Node.LastingItem.kept {n : Node κ} :
    n.LastingItem registry → Document.isPersistent n = true → n.strip.Kept registry
  | .node lasting => fun _ => lasting.kept
  | .declaration _ => nofun
  | .shadow _ _ _ => nofun

end

end

/-! ## Evaluation of stripped programs -/

section
open Evaluation

variable {registry : Registry κ} {S : Type} {horizon : Nat}
  {answer : (action : Action) → S → Option (action.Answer × S)}

namespace Node

theorem forall₂_stripInputs {r : Input κ → Input κ → Prop} {inputs : List (Input κ)}
    (each : ∀ input ∈ inputs, ∀ slot, r input (stripInput slot input)) (slots : List SlotKind) :
    List.Forall₂ r inputs (stripInputs slots inputs) := by
  induction inputs generalizing slots with
  | nil => simp [stripInputs]
  | cons input rest ih =>
      obtain ⟨first, others⟩ := List.forall_mem_cons.1 each
      rw [stripInputs]
      exact .cons (first _) (ih others _)

def ItemAlike (answer : (action : Action) → S → Option (action.Answer × S)) (horizon : Nat)
    (n : Node κ) : Prop :=
  if Document.isPersistent n then Alike answer (evaluate horizon n) (evaluate horizon n.strip)
  else ∃ output, evaluate horizon n = .done output

theorem alike_stripList (polls : PollsOnlyLook answer) {nodes : List (Node κ)}
    (each : ∀ n ∈ nodes, n.ItemAlike answer horizon) :
    Alike answer (evaluateList horizon nodes) (evaluateList horizon (stripList nodes)) := by
  induction nodes with
  | nil =>
      rw [stripList]
      exact .refl _
  | cons n rest ih =>
      obtain ⟨first, others⟩ := List.forall_mem_cons.1 each
      rw [stripList_cons]
      rw [ItemAlike] at first
      split at first
      · next persistent =>
        rw [if_pos persistent]
        exact Alike.congruence.list_cons first (ih others)
      · next dropped =>
        obtain ⟨output, idle⟩ := first
        rw [if_neg dropped]
        exact (alike_skip polls idle rest).trans (ih others)

theorem alike_stripBodies (polls : PollsOnlyLook answer) {bodies : List (List (Node κ))}
    (each : ∀ body ∈ bodies, ∀ n ∈ body, n.ItemAlike answer horizon) :
    List.Forall₂ (fun body body' =>
        Alike answer (evaluateList horizon body) (evaluateList horizon body'))
      bodies (stripBodies bodies) := by
  induction bodies with
  | nil => simp [stripBodies]
  | cons body rest ih =>
      obtain ⟨first, others⟩ := List.forall_mem_cons.1 each
      rw [stripBodies]
      exact .cons (alike_stripList polls first) (ih others)

theorem evaluateInput_shadow (slot : SlotKind) (k : κ) (shadowed : Option (Node κ))
    (covered : Input κ) :
    evaluateInput horizon slot (.node (.shadow k shadowed (some covered))) =
      evaluateInput horizon slot covered := by
  cases covered with
  | literal value => simp [evaluateInput, evaluate, evaluateCovered, Value.convertOutput, Task.bind]
  | node n => simp only [evaluateInput, evaluate, evaluateCovered]

theorem exists_evaluate_shadow (k : κ) (shadowed : Option (Node κ)) {covered : Option (Input κ)}
    (plain : ∀ n, covered ≠ some (.node n)) :
    ∃ output, evaluate horizon (.shadow k shadowed covered) = .done output := by
  rcases covered with _ | value | n
  · exact ⟨none, by simp [evaluate, evaluateCovered]⟩
  · exact ⟨some value, by simp [evaluate, evaluateCovered]⟩
  · exact absurd rfl (plain n)

end Node

open Node

mutual

theorem Node.Lasting.alike (polls : PollsOnlyLook answer) {n : Node κ} :
    n.Lasting registry → Alike answer (evaluate horizon n) (evaluate horizon n.strip)
  | .block registered slots => by
      rw [Node.strip]
      exact Alike.congruence.block (fun _ => .refl _) (Alike.congruence.inputs (forall₂_stripInputs
        (fun input mem slot => (slots input mem).alike polls slot) _) _)
  | .control registered slots lists => by
      rw [Node.strip]
      exact Alike.congruence.control (fun condition body => condition.loop body horizon)
        (Alike.congruence.inputs (forall₂_stripInputs
          (fun input mem slot => (slots input mem).alike polls slot) _) _)
        (alike_stripBodies polls fun body mem n inside => (lists body mem n inside).alike polls)
  | .reference k name => by
      rw [Node.strip]
      exact .refl _

theorem Input.Lasting.alike (polls : PollsOnlyLook answer) {input : Input κ} :
    input.Lasting registry → ∀ (place : Option SlotKind) (slot : SlotKind),
      Alike answer (evaluateInput horizon slot input)
        (evaluateInput horizon slot (stripInput place input))
  | .literal finite => fun place slot => by
      rw [stripInput]
      exact .refl _
  | .node lasting => fun place slot => by
      rw [stripInput_node place lasting.isShadow]
      exact Alike.congruence.input (lasting.alike polls) slot
  | .shadow k shadowed lasting => fun place slot => by
      rw [stripInput, evaluateInput_shadow]
      exact lasting.alike polls place slot

theorem Node.LastingItem.alike (polls : PollsOnlyLook answer) {n : Node κ} :
    n.LastingItem registry → n.ItemAlike answer horizon
  | .node lasting => by
      rw [ItemAlike, if_pos lasting.isPersistent]
      exact lasting.alike polls
  | .declaration k => ⟨none, by simp [evaluate]⟩
  | .shadow k shadowed plain => exists_evaluate_shadow k shadowed plain

end

/-! ## Programs -/

namespace Document

variable [DecidableEq κ]

theorem exists_reloaded (nodes : List (Node κ)) (wellFormed : Node.listWellFormed nodes = true)
    (lasting : ∀ n ∈ nodes, n.LastingItem registry) : ∃ d, toDocument registry nodes = .ok d ∧
      ofDocument registry d =
        .ok (stripList (adoptList (registry.builtin .reference) nodes)) := by
  -- the adopted program has the same document, and only references of the kind that is read
  have fits := listWellFormed_iff_every.1 wellFormed
  have kept : ∀ n ∈ stripList (adoptList (registry.builtin .reference) nodes),
      n.Kept registry := by
    apply forall_mem_stripList
    rw [adoptList_eq_map]
    exact List.forall_mem_map.2 fun n mem => (lasting n mem).adopt.kept
  have loadable : ∀ n ∈ adoptList (registry.builtin .reference) nodes,
      n.Every (Loadable registry) := by
    rw [adoptList_eq_map]
    exact List.forall_mem_map.2 fun n mem => every_adopt registry n (fits n mem)
  obtain ⟨items, written⟩ := (exists_writeList registry _ fun n mem =>
    (loadable n mem).sub fun m h => (every_iff.1 h).1.1).2 fun n mem => (kept n mem).1
  have read := (reads_writeList registry _ loadable written).ok fun n mem => (kept n mem).2
  rw [writeList_adopt] at written
  exact ⟨_, toDocument_eq_ok.2 ⟨items, written, rfl⟩, read⟩

/-- A program that lasts can be saved and loaded, and does afterwards what it did before: it comes
to the same end, or to none, and leaves the same variables, stop signal and surroundings. -/
theorem execute_reloaded (registry : Registry κ) (nodes : List (Node κ))
    (wellFormed : Node.listWellFormed nodes = true)
    (lasting : ∀ n ∈ nodes, n.LastingItem registry) :
    ∃ d reloaded, toDocument registry nodes = .ok d ∧ ofDocument registry d = .ok reloaded ∧
      (∀ horizon (m : Machine), m.run (actions (execute horizon reloaded)) =
        m.run (actions (execute horizon nodes))) ∧
      ∀ {S : Type} (answer : (action : Action) → S → Option (action.Answer × S)),
        PollsOnlyLook answer → ∀ s,
          (∀ horizon, Task.run answer (actions (execute horizon reloaded)) s =
            Task.run answer (actions (execute horizon nodes)) s) ∧
          (Endless answer reloaded s ↔ Endless answer nodes s) := by
  obtain ⟨d, written, read⟩ := exists_reloaded nodes wellFormed lasting
  have same {S : Type} {answer : (action : Action) → S → Option (action.Answer × S)}
      (polls : PollsOnlyLook answer) (horizon : Nat) (s : S) :
      Task.run answer (actions (execute horizon
          (stripList (adoptList (registry.builtin .reference) nodes)))) s =
        Task.run answer (actions (execute horizon nodes)) s := by
    have items : ∀ n ∈ adoptList (registry.builtin .reference) nodes,
        n.ItemAlike answer horizon := by
      rw [adoptList_eq_map]
      exact List.forall_mem_map.2 fun n mem => (lasting n mem).adopt.alike polls
    have stripped := alike_stripList polls items
    rw [evaluateList_adopt] at stripped
    exact (Alike.congruence.execute stripped s).symm
  refine ⟨d, _, written, read, same Machine.pollsOnlyLook, fun answer polls s => ?_⟩
  refine ⟨fun horizon => same polls horizon s, forall_congr' fun horizon => ?_⟩
  rw [same polls]

section
open Catalog

/-- A loop in the middle of dragging: its condition and the value of its assignment are covered, and
its body shows where a reference would go. -/
def dragged : List (Node Block) :=
  [.declaration (.builtin .declaration),
    .control (.builtin (.control .whileLoop))
      [.node (.shadow (.builtin .shadow) none (some (.node (.reference (.builtin .reference) "x"))))]
      [[.block .assign [.literal (.text "x"),
          .node (.shadow (.builtin .shadow) none (some (.literal (.boolean false))))],
        .shadow (.builtin .shadow) (some (.reference (.builtin .reference) "z")) none]]]

theorem execute_reloaded_dragged :
    Node.listWellFormed dragged = true ∧ (∀ n ∈ dragged, n.LastingItem Catalog.registry) ∧
    ∃ d reloaded, toDocument Catalog.registry dragged = .ok d ∧
      ofDocument Catalog.registry d = .ok reloaded ∧
      ∃ m', (Machine.bare (.ofList [("x", .boolean true)])).run (actions (execute 2 reloaded)) =
          (.done .completed, m') ∧
        m'.store.get? "x" = some (.boolean false) := by
  have wellFormed : Node.listWellFormed dragged = true := by decide +kernel
  have lasting : ∀ n ∈ dragged, n.LastingItem Catalog.registry := by
    have loops : Catalog.registry.Registered (.builtin (.control .whileLoop)) :=
      ⟨Catalog.control, by simp [Catalog.registry], by decide⟩
    have assigns : Catalog.registry.Registered .assign :=
      ⟨Catalog.storing, by simp [Catalog.registry], by decide⟩
    refine List.forall_mem_cons.2 ⟨.declaration _, List.forall_mem_singleton.2 (.node ?_)⟩
    refine .control loops (List.forall_mem_singleton.2 (.shadow _ _ (.node (.reference _ _)))) ?_
    refine List.forall_mem_singleton.2 (List.forall_mem_cons.2 ⟨.node (.block assigns ?_), ?_⟩)
    · exact List.forall_mem_cons.2 ⟨.literal rfl,
        List.forall_mem_singleton.2 (.shadow _ _ (.literal rfl))⟩
    · exact List.forall_mem_singleton.2 (.shadow _ _ (by rintro _ ⟨⟩))
  obtain ⟨d, reloaded, written, read, same, -⟩ :=
    execute_reloaded Catalog.registry dragged wellFormed lasting
  refine ⟨wellFormed, lasting, d, reloaded, written, read, ?_⟩
  rw [same]
  exact ⟨_, rfl, rfl⟩

end

end Document

end

end BlockScript
