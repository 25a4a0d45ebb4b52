import BlockScript.Proofs.Document.RoundTrip
import BlockScript.Proofs.Json.Nesting

/-!
# How deep a program nests

Writing has no limit of depth, but reading has.  A block costs two containers, a control block
three, and a statement list one more; `Node.nesting` adds them up, and `legible_writeList` says that
this is how deep the document nests.  So a program without reals is read back from its text exactly
up to the limit (`ofText_toText`), and beyond it the text that was written is refused.
-/

namespace BlockScript

variable {κ : Type}

namespace Node

mutual

def nesting : Node κ → Nat
  | block _ inputs => inputsNesting inputs + 2
  | control _ inputs bodies => max (bodiesNesting bodies) (inputsNesting inputs + 1) + 2
  | reference _ _ => 1
  | declaration _ | shadow _ _ _ => 0

def inputNesting : Input κ → Nat
  | .literal value => value.nesting
  | .node n => nesting n

def inputsNesting : List (Input κ) → Nat
  | [] => 0
  | input :: rest => max (inputNesting input) (inputsNesting rest)

def listNesting : List (Node κ) → Nat
  | [] => 0
  | n :: rest => max (nesting n) (listNesting rest)

def bodiesNesting : List (List (Node κ)) → Nat
  | [] => 0
  | body :: rest => max (listNesting body + 1) (bodiesNesting rest)

end

def RealFree (n : Node κ) : Prop := ∀ value, Input.literal value ∈ n.inputs → value.realFree = true

theorem RealFree.literalsFinite {n : Node κ} (free : n.RealFree) : n.LiteralsFinite :=
  fun value mem => value.finite_of_realFree (free value mem)

end Node

namespace Document

variable [Vocabulary κ]

structure Plain (n : Node κ) : Prop where
  fits : n.fits = true
  persistent : isPersistent n = true
  realFree : n.RealFree

variable [DecidableEq κ]

theorem names_writeBodies {registry : Registry κ} {names : List String}
    {bodies : List (List (Node κ))} {lists : List (String × Json)}
    (written : writeBodies registry names bodies = .ok lists) : lists.map (·.1) <+: names := by
  induction bodies generalizing names lists with
  | nil =>
      obtain rfl := pure_eq_ok.1 written
      exact List.nil_prefix
  | cons body rest ih =>
      cases names with
      | nil =>
          obtain rfl := pure_eq_ok.1 written
          exact List.nil_prefix
      | cons name names =>
          obtain ⟨items, others, -, later, rfl⟩ := writeBodies_cons.1 written
          exact List.cons_prefix_cons.2 ⟨rfl, ih later⟩

theorem ascending_writeBodies {registry : Registry κ} {bodies : List (List (Node κ))}
    {lists : List (String × Json)} (written : writeBodies registry bodyFields bodies = .ok lists) :
    Ascending lists ∧ ∀ entry ∈ lists, entry.1 < inputField := by
  have names := names_writeBodies written
  have ordered : bodyFields.Pairwise (· < ·) := by decide
  have before : ∀ name ∈ bodyFields, name < inputField := by decide
  refine ⟨List.pairwise_map.1 (ordered.sublist names.sublist), fun entry mem => ?_⟩
  exact before _ (names.subset (List.mem_map_of_mem mem))

theorem legible_control {inputs lists : Nat} {items : List Json} {fields : List (String × Json)}
    (ascending : Ascending fields) (before : ∀ entry ∈ fields, entry.1 < inputField)
    (slots : Json.LegibleAll inputs items) (bodies : Json.LegibleAll lists (fields.map (·.2))) :
    (Json.object (setEntry inputField (.array items) fields)).Legible
      (max lists (inputs + 1) + 1) := by
  refine Json.LegibleAll.object ascending.setEntry ?_
  rw [setEntry_of_forall_lt before, List.map_append]
  exact bodies.append (.single slots.array)

mutual

theorem legible_writeNode (registry : Registry κ) (n : Node κ) (plain : n.Every Plain) {d : Json}
    (written : writeNode registry n = .ok d) : d.Legible n.nesting := by
  cases n with
  | block k inputs =>
      obtain ⟨here, below⟩ := Node.every_block.1 plain
      obtain ⟨text, items, -, list, rfl⟩ := writeNode_block.1 written
      have slots := legible_writeInputs registry _ inputs here.realFree below list
      rw [Node.nesting]
      exact slots.array.field text
  | control k inputs bodies =>
      obtain ⟨here, below, inside⟩ := Node.every_control.1 plain
      obtain ⟨items, lists, text, list, listed, -, rfl⟩ := writeNode_control.1 written
      obtain ⟨ascending, before⟩ := ascending_writeBodies listed
      have slots := legible_writeInputs registry _ inputs here.realFree below list
      have nested := legible_writeBodies registry bodyFields bodies
        (length_le_bodyFields here.fits) inside listed
      rw [Node.nesting]
      exact (legible_control ascending before slots nested).field text
  | reference k name =>
      rw [writeNode, pure_eq_ok] at written
      obtain rfl := written
      rw [Node.nesting]
      exact (Json.legible_string name).field _
  | declaration k => simp [writeNode] at written
  | shadow k shadowed covered => simp [writeNode] at written

theorem legible_writeInput (registry : Registry κ) (slot : Option SlotKind) (input : Input κ)
    (literal : ∀ value, input = .literal value → value.realFree = true)
    (plain : input.Every Plain) {d : Json} (written : writeInput registry slot input = .ok d) :
    d.Legible (Node.inputNesting input) := by
  cases input with
  | literal value =>
      rw [writeInput, pure_eq_ok] at written
      obtain rfl := written
      rw [Node.inputNesting]
      exact Json.legible_toJson (literal value rfl)
  | node n =>
      have persistent := (Node.every_iff.1 plain).1.persistent
      rw [writeInput_node registry slot (isShadow_of_isPersistent persistent)] at written
      rw [Node.inputNesting]
      exact legible_writeNode registry n plain written

theorem legible_writeInputs (registry : Registry κ) (slots : List SlotKind)
    (inputs : List (Input κ))
    (literals : ∀ value, Input.literal value ∈ inputs → value.realFree = true)
    (plain : ∀ input ∈ inputs, input.Every Plain) {items : List Json}
    (written : writeInputs registry slots inputs = .ok items) :
    Json.LegibleAll (Node.inputsNesting inputs) items := by
  cases inputs with
  | nil =>
      obtain rfl := pure_eq_ok.1 written
      rw [Node.inputsNesting]
      exact .nil
  | cons input rest =>
      obtain ⟨item, others, first, later, rfl⟩ := writeInputs_cons.1 written
      obtain ⟨here, below⟩ := List.forall_mem_cons.1 plain
      have literal : ∀ value, input = .literal value → value.realFree = true := fun value eq =>
        literals value (eq ▸ List.mem_cons_self)
      have head := legible_writeInput registry slots.head? input literal here first
      have tail := legible_writeInputs registry slots.tail rest
        (fun value mem => literals value (List.mem_cons_of_mem _ mem)) below later
      rw [Node.inputsNesting]
      exact .cons head tail

theorem legible_writeList (registry : Registry κ) (nodes : List (Node κ))
    (plain : ∀ n ∈ nodes, n.Every Plain) {items : List Json}
    (written : writeList registry nodes = .ok items) :
    Json.LegibleAll (Node.listNesting nodes) items := by
  cases nodes with
  | nil =>
      obtain rfl := pure_eq_ok.1 written
      rw [Node.listNesting]
      exact .nil
  | cons n rest =>
      obtain ⟨here, below⟩ := List.forall_mem_cons.1 plain
      have persistent := (Node.every_iff.1 here).1.persistent
      obtain ⟨item, others, first, later, rfl⟩ := (writeList_cons persistent).1 written
      have head := legible_writeNode registry n here first
      rw [Node.listNesting]
      exact .cons head (legible_writeList registry rest below later)

theorem legible_writeBodies (registry : Registry κ) (names : List String)
    (bodies : List (List (Node κ))) (named : bodies.length ≤ names.length)
    (plain : ∀ body ∈ bodies, ∀ n ∈ body, n.Every Plain) {lists : List (String × Json)}
    (written : writeBodies registry names bodies = .ok lists) :
    Json.LegibleAll (Node.bodiesNesting bodies) (lists.map (·.2)) := by
  cases bodies with
  | nil =>
      obtain rfl := pure_eq_ok.1 written
      rw [Node.bodiesNesting]
      exact .nil
  | cons body rest =>
      cases names with
      | nil => simp at named
      | cons name names =>
          obtain ⟨items, others, first, later, rfl⟩ := writeBodies_cons.1 written
          obtain ⟨here, below⟩ := List.forall_mem_cons.1 plain
          have enough : rest.length ≤ names.length := Nat.le_of_succ_le_succ named
          have head := (legible_writeList registry body here first).array
          rw [Node.bodiesNesting]
          exact .cons head (legible_writeBodies registry names rest enough below later)

end

theorem toText_eq_ok {registry : Registry κ} {nodes : List (Node κ)} {text : String} :
    toText registry nodes = .ok text ↔
      ∃ items, writeList registry nodes = .ok items ∧ text = (Json.array items).compact := by
  simp only [toText, toDocument_eq_ok, bind_eq_ok, pure_eq_ok]
  constructor
  · rintro ⟨_, ⟨items, written, rfl⟩, rfl⟩
    exact ⟨items, written, rfl⟩
  · rintro ⟨items, written, rfl⟩
    exact ⟨_, ⟨items, written, rfl⟩, rfl⟩

/-- A program without previews, markers and reals is read back from its text if the text nests no
deeper than reading allows, and if it nests deeper, nothing is read at all. -/
theorem ofText_toText (registry : Registry κ) (nodes : List (Node κ))
    (wellFormed : Node.listWellFormed nodes = true)
    (own : ∀ n ∈ nodes, n.Every registry.OwnsReference)
    (persistent : ∀ n ∈ nodes, n.Every fun m => isPersistent m = true)
    (free : ∀ n ∈ nodes, n.Every Node.RealFree) {text : String}
    (written : toText registry nodes = .ok text) :
    ofText registry text =
      if Node.listNesting nodes + 1 ≤ Json.depthLimit then .ok nodes
      else .error (.malformed .invalidJson) := by
  have fits := Node.listWellFormed_iff_every.1 wellFormed
  have plain : ∀ n ∈ nodes, n.Every Plain := fun n mem =>
    (((fits n mem).and (persistent n mem)).and (free n mem)).sub fun m every =>
      have ⟨⟨suits, kept⟩, real⟩ := (Node.every_iff.1 every).1
      ⟨suits, kept, real⟩
  obtain ⟨items, list, rfl⟩ := toText_eq_ok.1 written
  have document := (legible_writeList registry nodes plain list).array
  rw [ofText, document.parse?_compact]
  by_cases shallow : Node.listNesting nodes + 1 ≤ Json.depthLimit
  · have loadable : ∀ n ∈ nodes, n.Every (Loadable registry) := fun n mem =>
      (fits n mem).and (own n mem)
    have stripped : Node.stripList nodes = nodes := Node.stripList_of_forall fun n mem =>
      ⟨(Node.every_iff.1 (persistent n mem)).1, Node.strip_of_persistent (persistent n mem)⟩
    have finite : ∀ n ∈ Node.stripList nodes, n.Every Node.LiteralsFinite := by
      rw [stripped]
      exact fun n mem => (free n mem).sub fun m every => (Node.every_iff.1 every).1.literalsFinite
    have read := (reads_writeList registry nodes loadable list).ok finite
    rw [stripped] at read
    rw [if_pos shallow, if_pos shallow]
    exact read
  · rw [if_neg shallow, if_neg shallow]
    rfl

section
open Catalog

def negations : Nat → Node Block
  | 0 => .reference (.builtin .reference) "x"
  | n + 1 => .block (.operation .negate) [.node (negations n)]

theorem nesting_negations (n : Nat) : (negations n).nesting = 2 * n + 1 := by
  induction n with
  | zero => rw [negations, Node.nesting]
  | succ n ih => simp [negations, Node.nesting, Node.inputsNesting, Node.inputNesting, ih]; omega

theorem wellFormed_negations (n : Nat) : (negations n).wellFormed = true := by
  induction n with
  | zero => rfl
  | succ n ih =>
      have fits : (negations (n + 1)).fits = true := rfl
      rw [negations] at fits ⊢
      simp [Node.wellFormed, Node.inputsWellFormed, Node.inputWellFormed, fits, ih]

theorem every_negations (n : Nat) :
    (negations n).Every registry.OwnsReference ∧
      ((negations n).Every fun m => isPersistent m = true) ∧ (negations n).Every Node.RealFree := by
  induction n with
  | zero =>
      simp [negations, Registry.OwnsReference, registry, isPersistent, Node.RealFree, Node.inputs]
  | succ n ih =>
      obtain ⟨own, persistent, free⟩ := ih
      have here : (negations (n + 1)).RealFree := by simp [negations, Node.RealFree, Node.inputs]
      rw [negations] at here ⊢
      simp only [Node.every_block, List.forall_mem_singleton, Input.every_node]
      exact ⟨⟨trivial, own⟩, ⟨rfl, persistent⟩, here, free⟩

theorem exists_writeNode_negations (n : Nat) : ∃ d, writeNode registry (negations n) = .ok d := by
  induction n with
  | zero => exact ⟨_, rfl⟩
  | succ n ih =>
      obtain ⟨d, written⟩ := ih
      have code : registry.codeOf? (.operation .negate) = some "0.11" := by decide +kernel
      refine ⟨_, writeNode_block.2 ⟨_, [d], code, ?_, rfl⟩⟩
      refine writeInputs_cons.2 ⟨d, [], ?_, rfl, rfl⟩
      rw [writeInput_node registry _ ?_, written]
      cases n <;> rfl

theorem exists_toText_negations (n : Nat) : ∃ text, toText registry [negations n] = .ok text := by
  obtain ⟨d, written⟩ := exists_writeNode_negations n
  have persistent := (Node.every_iff.1 (every_negations n).2.1).1
  exact ⟨_, toText_eq_ok.2 ⟨_, (writeList_cons persistent).2 ⟨d, [], written, rfl, rfl⟩, rfl⟩⟩

/-- Sixty-two negations are read back, sixty-three are written but not read. -/
theorem ofText_toText_negations :
    Node.listWellFormed [negations 62] = true ∧ Node.listWellFormed [negations 63] = true ∧
    ∃ text deep, toText registry [negations 62] = .ok text ∧
      toText registry [negations 63] = .ok deep ∧
      ofText registry text = .ok [negations 62] ∧
      ofText registry deep = .error (.malformed .invalidJson) := by
  have listed (n : Nat) : Node.listWellFormed [negations n] = true := by
    simp [Node.listWellFormed, wellFormed_negations n]
  have nests (n : Nat) : Node.listNesting [negations n] = 2 * n + 1 := by
    simp [Node.listNesting, nesting_negations n]
  have own (n : Nat) := List.forall_mem_singleton.2 (every_negations n).1
  have persistent (n : Nat) := List.forall_mem_singleton.2 (every_negations n).2.1
  have free (n : Nat) := List.forall_mem_singleton.2 (every_negations n).2.2
  obtain ⟨text, written⟩ := exists_toText_negations 62
  obtain ⟨deep, overwritten⟩ := exists_toText_negations 63
  have read := ofText_toText registry _ (listed 62) (own 62) (persistent 62) (free 62) written
  have unread := ofText_toText registry _ (listed 63) (own 63) (persistent 63) (free 63) overwritten
  rw [nests, if_pos (by decide)] at read
  rw [nests, if_neg (by decide)] at unread
  exact ⟨listed 62, listed 63, text, deep, written, overwritten, read, unread⟩

end

end Document

end BlockScript
