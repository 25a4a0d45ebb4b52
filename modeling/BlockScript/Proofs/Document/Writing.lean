import BlockScript.Proofs.Document.Codes
import BlockScript.Proofs.Document.Literals
import BlockScript.Proofs.Document.Stripping

/-!
# Programs that have a document

Writing fails on a block or control node whose kind is in no group, and on a declaration marker in
a slot; previews never stand in the way.  So a list of nodes has a document exactly when the nodes
that stripping leaves are `Writable` throughout (`exists_writeList`).  The other lemmas open the
writing functions, one for each form of a node or a list.
-/

namespace BlockScript

variable {κ : Type} [Vocabulary κ]

def Node.SlotsUnmarked (n : Node κ) : Prop := ∀ k, Input.node (.declaration k) ∉ n.inputs

def Registry.Knows (registry : Registry κ) : Node κ → Prop
  | .block k _ => registry.Registered k
  | .control k _ _ => registry.Registered k
  | _ => True

def Node.Writable (registry : Registry κ) (n : Node κ) : Prop :=
  registry.Knows n ∧ n.SlotsUnmarked

def Input.Writable (registry : Registry κ) (input : Input κ) : Prop :=
  (∀ k, input ≠ .node (.declaration k)) ∧ input.Every (Node.Writable registry)

theorem Input.forall_writable {registry : Registry κ} {inputs : List (Input κ)} :
    (∀ input ∈ inputs, input.Writable registry) ↔
      (∀ k, Input.node (.declaration k) ∉ inputs) ∧
        ∀ input ∈ inputs, input.Every (Node.Writable registry) := by
  constructor
  · intro h
    exact ⟨fun k mem => (h _ mem).1 k rfl, fun input mem => (h input mem).2⟩
  · rintro ⟨unmarked, every⟩ input mem
    exact ⟨fun k eq => unmarked k (eq ▸ mem), every input mem⟩

namespace Document

theorem exists_both {α β γ : Type} {p : α → Prop} {q : β → Prop} {f : α → β → γ} :
    (∃ c a b, p a ∧ q b ∧ c = f a b) ↔ (∃ a, p a) ∧ ∃ b, q b := by
  constructor
  · rintro ⟨_, a, b, ha, hb, -⟩
    exact ⟨⟨a, ha⟩, b, hb⟩
  · rintro ⟨⟨a, ha⟩, b, hb⟩
    exact ⟨_, a, b, ha, hb, rfl⟩

theorem exists_both₃ {α β γ δ : Type} {p : α → Prop} {q : β → Prop} {r : γ → Prop}
    {f : α → β → γ → δ} :
    (∃ d a b c, p a ∧ q b ∧ r c ∧ d = f a b c) ↔ (∃ a, p a) ∧ (∃ b, q b) ∧ ∃ c, r c := by
  constructor
  · rintro ⟨_, a, b, c, ha, hb, hc, -⟩
    exact ⟨⟨a, ha⟩, ⟨b, hb⟩, c, hc⟩
  · rintro ⟨⟨a, ha⟩, ⟨b, hb⟩, c, hc⟩
    exact ⟨_, a, b, c, ha, hb, hc, rfl⟩

/-! ## Writing -/

theorem length_le_bodyFields {k : κ} {inputs : List (Input κ)} {bodies : List (List (Node κ))}
    (fits : (Node.control k inputs bodies).fits = true) : bodies.length ≤ bodyFields.length := by
  obtain ⟨flow, -, -, count⟩ := Node.fits_control fits
  rw [count]
  cases flow <;> decide

theorem ne_inputField {name : String} (body : name ∈ bodyFields) : name ≠ inputField := by
  rintro rfl
  exact absurd body (by decide)

section
variable [DecidableEq κ]

theorem code_eq_ok {registry : Registry κ} {k : κ} {text : String} :
    code registry k = .ok text ↔ registry.codeOf? k = some text := by
  unfold code
  cases registry.codeOf? k <;> simp

theorem writeNode_block {registry : Registry κ} {k : κ} {inputs : List (Input κ)} {d : Json} :
    writeNode registry (.block k inputs) = .ok d ↔ ∃ text items, registry.codeOf? k = some text ∧
      writeInputs registry (describe k).slots inputs = .ok items ∧
      d = .object [(text, .array items)] := by
  rw [writeNode, both_eq_ok]
  simp only [code_eq_ok]

theorem writeNode_control {registry : Registry κ} {k : κ} {inputs : List (Input κ)}
    {bodies : List (List (Node κ))} {d : Json} :
    writeNode registry (.control k inputs bodies) = .ok d ↔ ∃ items lists text,
      writeInputs registry (describe k).slots inputs = .ok items ∧
      writeBodies registry bodyFields bodies = .ok lists ∧
      registry.codeOf? k = some text ∧
      d = .object [(text, .object (setEntry inputField (.array items) lists))] := by
  simp only [writeNode, bind_eq_ok, pure_eq_ok, code_eq_ok]
  constructor
  · rintro ⟨items, written, lists, listed, text, found, rfl⟩
    exact ⟨items, lists, text, written, listed, found, rfl⟩
  · rintro ⟨items, lists, text, written, listed, found, rfl⟩
    exact ⟨items, written, lists, listed, text, found, rfl⟩

theorem writeInput_node {n : Node κ} (registry : Registry κ) (slot : Option SlotKind)
    (plain : n.isShadow = false) : writeInput registry slot (.node n) = writeNode registry n := by
  cases n with
  | shadow k shadowed covered => simp [Node.isShadow] at plain
  | _ => rw [writeInput] <;> simp

theorem writeInputs_cons {registry : Registry κ} {slots : List SlotKind} {input : Input κ}
    {rest : List (Input κ)} {items : List Json} :
    writeInputs registry slots (input :: rest) = .ok items ↔ ∃ item others,
      writeInput registry slots.head? input = .ok item ∧
      writeInputs registry slots.tail rest = .ok others ∧ items = item :: others := by
  rw [writeInputs, both_eq_ok]

theorem writeList_cons {registry : Registry κ} {n : Node κ} {rest : List (Node κ)}
    {items : List Json} (persistent : isPersistent n = true) :
    writeList registry (n :: rest) = .ok items ↔ ∃ item others,
      writeNode registry n = .ok item ∧ writeList registry rest = .ok others ∧
      items = item :: others := by
  rw [writeList, if_pos persistent, both_eq_ok]

theorem writeBodies_cons {registry : Registry κ} {field : String} {fields : List String}
    {body : List (Node κ)} {rest : List (List (Node κ))} {lists : List (String × Json)} :
    writeBodies registry (field :: fields) (body :: rest) = .ok lists ↔ ∃ items others,
      writeList registry body = .ok items ∧ writeBodies registry fields rest = .ok others ∧
      lists = (field, .array items) :: others := by
  rw [writeBodies, both_eq_ok]

/-! ## Success -/

theorem exists_writeInput_node {registry : Registry κ} {n : Node κ} (slot : Option SlotKind)
    (persistent : isPersistent n = true)
    (written : (∃ d, writeNode registry n = .ok d) ↔ n.strip.Every (Node.Writable registry)) :
    (∃ d, writeInput registry slot (.node n) = .ok d) ↔
      (Node.stripInput slot (.node n)).Writable registry := by
  have plain := isShadow_of_isPersistent persistent
  have unmarked : ∀ k, Input.node n.strip ≠ .node (.declaration k) := by
    intro k eq
    cases n with
    | declaration l => simp [isPersistent] at persistent
    | _ => simp [Node.strip] at eq
  rw [writeInput_node registry slot plain, Node.stripInput_node slot plain, written]
  exact ⟨fun every => ⟨unmarked, every⟩, fun h => h.2⟩

mutual

theorem exists_writeNode (registry : Registry κ) (n : Node κ)
    (persistent : isPersistent n = true) (wellFormed : n.Every fun m => m.fits = true) :
    (∃ d, writeNode registry n = .ok d) ↔ n.strip.Every (Node.Writable registry) := by
  cases n with
  | block k inputs =>
      obtain ⟨fits, below⟩ := Node.every_block.1 wellFormed
      have plain := Node.category_of_fits_block fits
      simp only [writeNode_block, exists_both]
      rw [Registry.codeOf?_isSome_iff plain,
        exists_writeInputs registry (describe k).slots inputs below, Input.forall_writable,
        Node.strip, Node.every_block]
      exact and_assoc.symm
  | control k inputs bodies =>
      obtain ⟨fits, below, inside⟩ := Node.every_control.1 wellFormed
      obtain ⟨flow, category, -, -⟩ := Node.fits_control fits
      have plain : (describe k).category ≠ .reference := by simp [category]
      have named := length_le_bodyFields fits
      simp only [writeNode_control, exists_both₃]
      rw [Registry.codeOf?_isSome_iff plain,
        exists_writeInputs registry (describe k).slots inputs below, Input.forall_writable,
        exists_writeBodies registry bodyFields bodies named inside, Node.strip, Node.every_control]
      constructor
      · rintro ⟨⟨unmarked, every⟩, lists, registered⟩
        exact ⟨⟨registered, unmarked⟩, every, lists⟩
      · rintro ⟨⟨registered, unmarked⟩, every, lists⟩
        exact ⟨⟨unmarked, every⟩, lists, registered⟩
  | reference k name =>
      have written : ∃ d, writeNode registry (.reference k name) = .ok d := ⟨_, rfl⟩
      simp [written, Node.strip, Node.Writable, Registry.Knows, Node.SlotsUnmarked, Node.inputs]
  | declaration k => simp [isPersistent] at persistent
  | shadow k shadowed covered => simp [isPersistent] at persistent

theorem exists_writeInput (registry : Registry κ) (slot : Option SlotKind) (input : Input κ)
    (wellFormed : input.Every fun m => m.fits = true) :
    (∃ d, writeInput registry slot input = .ok d) ↔
      (Node.stripInput slot input).Writable registry := by
  match input with
  | .literal value =>
      have written : ∃ d, writeInput registry slot (.literal value) = .ok d := ⟨_, rfl⟩
      simp [written, Node.stripInput, Input.Writable]
  | .node (.shadow k shadowed (some covered)) =>
      rw [writeInput, Node.stripInput]
      obtain ⟨-, -, below⟩ := Node.every_shadow.1 wellFormed
      exact exists_writeInput registry slot covered (below covered rfl)
  | .node (.shadow k shadowed none) =>
      have written : ∃ d, writeInput registry slot (.node (.shadow k shadowed none)) = .ok d :=
        ⟨_, rfl⟩
      simp [written, Node.stripInput, Input.Writable]
  | .node (.declaration k) =>
      have refused : ¬ ∃ d, writeInput registry slot (.node (.declaration k)) = .ok d := by
        rintro ⟨d, written⟩
        simp [writeInput, writeNode] at written
      refine iff_of_false refused fun h => h.1 k ?_
      rw [Node.stripInput_node slot rfl, Node.strip]
  | .node (.block k inputs) =>
      exact exists_writeInput_node slot rfl
        (exists_writeNode registry (.block k inputs) rfl wellFormed)
  | .node (.control k inputs bodies) =>
      exact exists_writeInput_node slot rfl
        (exists_writeNode registry (.control k inputs bodies) rfl wellFormed)
  | .node (.reference k name) =>
      exact exists_writeInput_node slot rfl
        (exists_writeNode registry (.reference k name) rfl wellFormed)

theorem exists_writeInputs (registry : Registry κ) (slots : List SlotKind)
    (inputs : List (Input κ)) (wellFormed : ∀ input ∈ inputs, input.Every fun m => m.fits = true) :
    (∃ items, writeInputs registry slots inputs = .ok items) ↔
      ∀ input ∈ Node.stripInputs slots inputs, input.Writable registry := by
  cases inputs with
  | nil =>
      have written : ∃ items, writeInputs registry slots [] = .ok items := ⟨[], rfl⟩
      simp [written, Node.stripInputs]
  | cons input rest =>
      obtain ⟨here, later⟩ := List.forall_mem_cons.1 wellFormed
      simp only [writeInputs_cons, exists_both]
      rw [Node.stripInputs, List.forall_mem_cons, exists_writeInput registry slots.head? input here,
        exists_writeInputs registry slots.tail rest later]

theorem exists_writeList (registry : Registry κ) (nodes : List (Node κ))
    (wellFormed : ∀ n ∈ nodes, n.Every fun m => m.fits = true) :
    (∃ items, writeList registry nodes = .ok items) ↔
      ∀ n ∈ Node.stripList nodes, n.Every (Node.Writable registry) := by
  cases nodes with
  | nil =>
      have written : ∃ items, writeList registry [] = .ok items := ⟨[], rfl⟩
      simp [written, Node.stripList]
  | cons n rest =>
      obtain ⟨here, later⟩ := List.forall_mem_cons.1 wellFormed
      have tail := exists_writeList registry rest later
      by_cases persistent : isPersistent n = true
      · simp only [writeList_cons persistent, exists_both]
        rw [Node.stripList_cons, if_pos persistent, List.forall_mem_cons, tail,
          exists_writeNode registry n persistent here]
      · rw [writeList, if_neg persistent, Node.stripList_cons, if_neg persistent, tail]

theorem exists_writeBodies (registry : Registry κ) (fields : List String)
    (bodies : List (List (Node κ))) (named : bodies.length ≤ fields.length)
    (wellFormed : ∀ body ∈ bodies, ∀ n ∈ body, n.Every fun m => m.fits = true) :
    (∃ lists, writeBodies registry fields bodies = .ok lists) ↔
      ∀ body ∈ Node.stripBodies bodies, ∀ n ∈ body, n.Every (Node.Writable registry) := by
  cases bodies with
  | nil =>
      have written : ∃ lists, writeBodies registry fields [] = .ok lists := ⟨[], rfl⟩
      simp [written, Node.stripBodies]
  | cons body rest =>
      obtain ⟨here, later⟩ := List.forall_mem_cons.1 wellFormed
      cases fields with
      | nil => simp at named
      | cons field fields =>
          have enough : rest.length ≤ fields.length := Nat.le_of_succ_le_succ named
          simp only [writeBodies_cons, exists_both]
          rw [Node.stripBodies, List.forall_mem_cons, exists_writeList registry body here,
            exists_writeBodies registry fields rest enough later]

end

end

end Document

end BlockScript
