import BlockScript.Catalog.Standard
import BlockScript.Proofs.Document.Literals
import BlockScript.Proofs.Document.Reading
import BlockScript.Proofs.Document.RoundTrip

/-!
# The grammar of documents

`ListDocument` is the language of documents, given by rules and not by the reader: a list holds node
documents, a node document is a code and a payload of the form that the category of its kind asks
for, and an input is a node document or a literal.

* `Judges` compares a result of the reader with the grammar, and the lemmas under it follow the
  reader through a sequence of steps.
* `nested` lists the documents that stand where nodes may stand directly under a payload;
  `judges_readNode` goes down along it.
* `ofDocument_accepts_grammar`: the reader accepts exactly the grammar, loads only sound programs,
  and rejects for a reason that can be pointed at in the document.
-/

namespace BlockScript.Document

variable {κ : Type} [Vocabulary κ]

/-! ## The language -/

mutual

inductive NodeDocument (registry : Registry κ) : Json → Prop where
  | node {code : String} {payload : Json} {k : κ} (resolves : registry.resolve? code = some k)
      (holds : PayloadDocument registry k payload) :
      NodeDocument registry (.object [(code, payload)])

inductive PayloadDocument (registry : Registry κ) : κ → Json → Prop where
  | reference {k : κ} {name : String} (category : (describe k).category = .reference) :
      PayloadDocument registry k (.string name)
  | control {k : κ} {flow : Flow} {fields : List (String × Json)} {inputs : Json}
      {lists : String → Json} (category : (describe k).category = .control flow)
      (input : findEntry inputField fields = some inputs)
      (inputsHold : InputsDocument registry (describe k).slots.length inputs)
      (body : ∀ name ∈ bodyFields.take flow.bodyCount, findEntry name fields = some (lists name))
      (bodiesHold : ∀ name ∈ bodyFields.take flow.bodyCount, ListDocument registry (lists name)) :
      PayloadDocument registry k (.object fields)
  | block {k : κ} {inputs : Json}
      (category : (describe k).category = .statement ∨ (describe k).category = .expression)
      (inputsHold : InputsDocument registry (describe k).slots.length inputs) :
      PayloadDocument registry k inputs

inductive InputsDocument (registry : Registry κ) : Nat → Json → Prop where
  | array {items : List Json} (each : ∀ item ∈ items, InputDocument registry item) :
      InputsDocument registry items.length (.array items)

inductive InputDocument (registry : Registry κ) : Json → Prop where
  | node {fields : List (String × Json)} (node : NodeDocument registry (.object fields)) :
      InputDocument registry (.object fields)
  | literal {item : Json} (literal : item.IsLiteral) : InputDocument registry item

inductive ListDocument (registry : Registry κ) : Json → Prop where
  | array {items : List Json} (each : ∀ item ∈ items, NodeDocument registry item) :
      ListDocument registry (.array items)

end

section
variable {registry : Registry κ}

theorem nodeDocument_iff {code : String} {payload : Json} :
    NodeDocument registry (.object [(code, payload)]) ↔
      ∃ k, registry.resolve? code = some k ∧ PayloadDocument registry k payload :=
  ⟨fun | .node resolves holds => ⟨_, resolves, holds⟩,
    fun ⟨_, resolves, holds⟩ => .node resolves holds⟩

theorem payloadDocument_reference {k : κ} {payload : Json}
    (category : (describe k).category = .reference) :
    PayloadDocument registry k payload ↔ ∃ name, payload = .string name := by
  constructor
  · rintro (_ | ⟨other⟩ | ⟨other⟩)
    · exact ⟨_, rfl⟩
    · simp [category] at other
    · simp [category] at other
  · rintro ⟨name, rfl⟩
    exact .reference category

theorem payloadDocument_block {k : κ} {payload : Json}
    (category : (describe k).category = .statement ∨ (describe k).category = .expression) :
    PayloadDocument registry k payload ↔
      InputsDocument registry (describe k).slots.length payload := by
  constructor
  · rintro (⟨other⟩ | ⟨other⟩ | ⟨-, holds⟩)
    · simp [other] at category
    · simp [other] at category
    · exact holds
  · exact .block category

theorem payloadDocument_control {k : κ} {flow : Flow} {payload : Json}
    (category : (describe k).category = .control flow) :
    PayloadDocument registry k payload ↔ ∃ fields, payload = .object fields ∧
      (∃ inputs, findEntry inputField fields = some inputs ∧
        InputsDocument registry (describe k).slots.length inputs) ∧
      ∀ name ∈ bodyFields.take flow.bodyCount,
        ∃ list, findEntry name fields = some list ∧ ListDocument registry list := by
  constructor
  · rintro (⟨other⟩ | ⟨same, input, inputsHold, body, bodiesHold⟩ | ⟨other⟩)
    · simp [category] at other
    · obtain rfl := Category.control.inj (category.symm.trans same)
      exact ⟨_, rfl, ⟨_, input, inputsHold⟩,
        fun name mem => ⟨_, body name mem, bodiesHold name mem⟩⟩
    · simp [category] at other
  · rintro ⟨fields, rfl, ⟨inputs, input, inputsHold⟩, bodies⟩
    have listed : ∀ name ∈ bodyFields.take flow.bodyCount,
        findEntry name fields = some ((findEntry name fields).getD .null) := by
      intro name mem
      obtain ⟨list, found, -⟩ := bodies name mem
      rw [found, Option.getD_some]
    refine .control category input inputsHold listed ?_
    intro name mem
    obtain ⟨list, found, holds⟩ := bodies name mem
    rwa [found, Option.getD_some]

theorem not_payloadDocument {k : κ} {payload : Json}
    (category : (describe k).category = .declaration ∨ (describe k).category = .shadow) :
    ¬ PayloadDocument registry k payload := by
  rintro (⟨other⟩ | ⟨other⟩ | ⟨other | other⟩)
  all_goals simp [other] at category

theorem inputsDocument_iff {count : Nat} {items : List Json} :
    InputsDocument registry count (.array items) ↔
      items.length = count ∧ ∀ item ∈ items, InputDocument registry item :=
  ⟨fun | .array each => ⟨rfl, each⟩, fun ⟨length, each⟩ => length ▸ .array each⟩

theorem not_inputsDocument {count : Nat} {document : Json}
    (plain : ∀ items, document ≠ .array items) : ¬ InputsDocument registry count document := by
  rintro ⟨-⟩
  exact plain _ rfl

theorem inputDocument_object {fields : List (String × Json)} :
    InputDocument registry (.object fields) ↔ NodeDocument registry (.object fields) :=
  ⟨fun | .node node => node, .node⟩

theorem inputDocument_literal {item : Json} (plain : ∀ fields, item ≠ .object fields) :
    InputDocument registry item ↔ item.IsLiteral := by
  constructor
  · rintro (_ | literal)
    · exact absurd rfl (plain _)
    · assumption
  · exact .literal

theorem listDocument_iff {items : List Json} :
    ListDocument registry (.array items) ↔ ∀ item ∈ items, NodeDocument registry item :=
  ⟨fun | .array each => each, .array⟩

end

/-! ## Places of nodes -/

def elements : Json → List Json
  | .array items => items
  | _ => []

def nested (k : κ) (payload : Json) : List Json :=
  match (describe k).category, payload with
  | .control flow, .object fields =>
    (inputField :: bodyFields.take flow.bodyCount).flatMap fun name =>
      ((findEntry name fields).map elements).getD []
  | .statement, payload | .expression, payload => elements payload
  | _, _ => []

theorem sizeOf_lt_of_mem_elements {item document : Json} (member : item ∈ elements document) :
    sizeOf item < sizeOf document := by
  cases document with
  | array items =>
      have below : sizeOf item < sizeOf items := List.sizeOf_lt_of_mem member
      simp only [Json.array.sizeOf_spec]
      omega
  | null | bool | number | string | object => simp [elements] at member

theorem sizeOf_lt_of_findEntry {name : String} {fields : List (String × Json)} {value : Json}
    (found : findEntry name fields = some value) : sizeOf value < sizeOf fields := by
  induction fields with
  | nil => simp [findEntry] at found
  | cons field rest ih =>
      obtain ⟨key, other⟩ := field
      rw [findEntry] at found
      split at found
      · obtain rfl := Option.some.inj found
        simp only [List.cons.sizeOf_spec, Prod.mk.sizeOf_spec]
        omega
      · have below := ih found
        simp only [List.cons.sizeOf_spec]
        omega

theorem mem_nested_control {k : κ} {flow : Flow} {fields : List (String × Json)} {item : Json}
    (category : (describe k).category = .control flow) :
    item ∈ nested k (.object fields) ↔ ∃ name ∈ inputField :: bodyFields.take flow.bodyCount,
      ∃ value, findEntry name fields = some value ∧ item ∈ elements value := by
  simp only [nested, category, List.mem_flatMap]
  refine exists_congr fun name => and_congr_right fun _ => ?_
  cases findEntry name fields <;> simp

theorem nested_block {k : κ} {payload : Json}
    (category : (describe k).category = .statement ∨ (describe k).category = .expression) :
    nested k payload = elements payload := by
  rcases category with h | h
  · simp only [nested, h]
  · simp only [nested, h]

theorem sizeOf_lt_of_mem_nested {k : κ} {payload item : Json} (member : item ∈ nested k payload) :
    sizeOf item < sizeOf payload := by
  cases category : (describe k).category with
  | statement => exact sizeOf_lt_of_mem_elements (nested_block (.inl category) ▸ member)
  | expression => exact sizeOf_lt_of_mem_elements (nested_block (.inr category) ▸ member)
  | control flow =>
      cases payload with
      | object fields =>
          obtain ⟨name, -, value, found, inside⟩ := (mem_nested_control category).1 member
          have outer := sizeOf_lt_of_findEntry found
          have inner := sizeOf_lt_of_mem_elements inside
          simp only [Json.object.sizeOf_spec]
          omega
      | null | bool | number | string | array => simp [nested, category] at member
  | reference | declaration | shadow => simp [nested, category] at member

inductive NodeKey (registry : Registry κ) : Json → String → Prop where
  | here (code : String) (payload : Json) : NodeKey registry (.object [(code, payload)]) code
  | inside {code : String} {payload : Json} {k : κ} {item : Json} {key : String}
      (resolves : registry.resolve? code = some k) (member : item ∈ nested k payload)
      (stands : NodeKey registry item key) : NodeKey registry (.object [(code, payload)]) key

/-! ## Results -/

/-- A node that can be read: it suits its kind, which has a code, and it is no declaration, no
preview and holds no infinite literal. -/
structure Loaded (registry : Registry κ) (n : Node κ) : Prop where
  fits : n.fits = true
  persistent : isPersistent n = true
  finite : n.LiteralsFinite
  resolvable : ∃ code, registry.resolve? code = some n.kind

/-- A reason to reject: a code that names nothing, or a form that is not the grammar's.  That a node
does not suit its kind is none, for counts are settled before. -/
def Rejects (registry : Registry κ) (keys : String → Prop) : DocumentError → Prop
  | .unknownCode code => keys code ∧ registry.resolve? code = none
  | .malformed cause => ∀ payload, cause ≠ .misfit payload
  | .unregistered _ => False

structure Judges {α : Type} (registry : Registry κ) (keys : String → Prop) (result : Result α)
    (condition : Prop) (post : α → Prop) : Prop where
  accepts : (∃ a, result = .ok a) ↔ condition
  sound : ∀ a, result = .ok a → post a
  rejects : ∀ e, result = .error e → Rejects registry keys e

namespace Judges

variable {registry : Registry κ} {keys keys' : String → Prop} {α β : Type} {x : Result α}
  {a : α} {p q : Prop} {post : α → Prop} {post' : β → Prop}

theorem ok (here : post a) : Judges registry keys (.ok a) True post where
  accepts := ⟨fun _ => trivial, fun _ => ⟨a, rfl⟩⟩
  sound _ eq := Except.ok.inj eq ▸ here
  rejects _ eq := by cases eq

theorem error {e : DocumentError} (here : Rejects registry keys e) (never : ¬ p) :
    Judges registry keys (.error e : Result α) p post where
  accepts := iff_of_false (by simp) never
  sound _ eq := by cases eq
  rejects _ eq := Except.error.inj eq ▸ here

theorem congr (judges : Judges registry keys x p post) (same : p ↔ q) :
    Judges registry keys x q post :=
  ⟨judges.accepts.trans same, judges.sound, judges.rejects⟩

theorem widen (judges : Judges registry keys x p post) (more : ∀ key, keys key → keys' key) :
    Judges registry keys' x p post where
  accepts := judges.accepts
  sound := judges.sound
  rejects e eq := by
    have reason := judges.rejects e eq
    cases e with
    | unknownCode code => exact ⟨more code reason.1, reason.2⟩
    | unregistered summary => exact reason
    | malformed cause => exact reason

theorem bind {f : α → Result β} (judges : Judges registry keys x p post)
    (next : ∀ a, post a → Judges registry keys (f a) q post') :
    Judges registry keys (x >>= f) (p ∧ q) post' := by
  cases x with
  | error e =>
      have never : ¬ p := fun h => by
        obtain ⟨a, eq⟩ := judges.accepts.2 h
        cases eq
      exact error (judges.rejects e rfl) fun h => never h.1
  | ok a =>
      have accepted : p := judges.accepts.1 ⟨a, rfl⟩
      exact (next a (judges.sound a rfl)).congr ⟨fun h => ⟨accepted, h⟩, fun h => h.2⟩

theorem map {f : α → β} (judges : Judges registry keys x p post)
    (each : ∀ a, post a → post' (f a)) : Judges registry keys (x.map f) p post' :=
  (judges.bind (f := fun a => .ok (f a)) (q := True) fun a here => ok (each a here)).congr
    (by rw [and_true])

theorem cons {xs : Result (List α)} (head : Judges registry keys x p post)
    (tail : Judges registry keys xs q fun as => ∀ a ∈ as, post a) :
    Judges registry keys (do let a ← x; let as ← xs; return a :: as) (p ∧ q)
      fun as => ∀ a ∈ as, post a := by
  refine head.bind fun a here => ?_
  refine (tail.bind (q := True) fun as there => ?_).congr (by rw [and_true])
  exact ok (List.forall_mem_cons.2 ⟨here, there⟩)

end Judges

/-! ## The reader -/

section
variable {registry : Registry κ} {keys : String → Prop}

theorem judges_malformed {α : Type} {p : Prop} {post : α → Prop} {cause : Malformation}
    (counted : ∀ payload, cause ≠ .misfit payload) (never : ¬ p) :
    Judges registry keys (malformed cause : Result α) p post :=
  .error counted never

theorem judges_fitting (k : Kind) (items : List Json) :
    Judges registry keys (fitting k items) (items.length = k.slots.length)
      fun _ => items.length = k.slots.length := by
  unfold fitting
  split
  · next length =>
    refine Judges.congr (.ok length) ?_
    exact iff_of_true trivial length
  · next length => exact judges_malformed (by simp) length

theorem judges_checked {n : Node κ} (payload : Json) (loaded : n.Every (Loaded registry)) :
    Judges registry keys (checked payload n) True fun m => m.Every (Loaded registry) := by
  obtain ⟨here, -⟩ := Node.every_iff.1 loaded
  rw [checked_eq_ok.2 ⟨here.fits, rfl⟩]
  exact .ok loaded

theorem judges_required {α : Type} {name : String} (payload : Json) {fields : List (String × Json)}
    {read : Json → Result α} {p : Json → Prop} {post : α → Prop}
    (each : ∀ value, findEntry name fields = some value →
      Judges registry keys (read value) (p value) post) :
    Judges registry keys (required name payload ((findEntry name fields).map read))
      (∃ value, findEntry name fields = some value ∧ p value) post := by
  cases found : findEntry name fields with
  | none => exact judges_malformed (by simp) (by simp)
  | some value => exact (each value found).congr (by simp)

theorem judges_readLiteral {item : Json} (plain : ∀ fields, item ≠ .object fields) :
    Judges registry keys (readLiteral item : Result (Input κ)) (InputDocument registry item)
      fun input => input.Every (Loaded registry) ∧ input.Finite := by
  rw [inputDocument_literal plain, ← Value.exists_ofJson_iff item, readLiteral]
  cases read : Value.ofJson item with
  | error e => exact judges_malformed (by simp) (by simp)
  | ok value =>
      obtain ⟨-, finite⟩ := Value.toJson_of_ofJson item read
      exact (Judges.ok ⟨trivial, finite⟩).congr (by simp)

theorem length_readItems {items : List Json} {inputs : List (Input κ)}
    (read : readItems registry items = .ok inputs) : inputs.length = items.length := by
  induction items generalizing inputs with
  | nil =>
      obtain rfl := pure_eq_ok.1 read
      rfl
  | cons item rest ih =>
      rw [readItems_cons, both_eq_ok] at read
      obtain ⟨input, others, -, later, rfl⟩ := read
      exact congrArg Nat.succ (ih later)

section
variable {k : κ} {code : String} (resolves : registry.resolve? code = some k)
include resolves

theorem loaded_reference {name : String} (category : (describe k).category = .reference) :
    (Node.reference k name).Every (Loaded registry) := by
  refine Node.every_reference.2 ⟨?_, rfl, ?_, code, resolves⟩
  · simp only [Node.fits, Node.kind, category]
  · intro value mem
    simp [Node.inputs] at mem

theorem loaded_block {inputs : List (Input κ)}
    (category : (describe k).category = .statement ∨ (describe k).category = .expression)
    (count : inputs.length = (describe k).slots.length)
    (loaded : ∀ input ∈ inputs, input.Every (Loaded registry) ∧ input.Finite) :
    (Node.block k inputs).Every (Loaded registry) := by
  refine Node.every_block.2 ⟨⟨?_, rfl, ?_, code, resolves⟩, fun input mem => (loaded input mem).1⟩
  · rcases category with category | category
    · simp [Node.fits, Node.kind, category, count]
    · simp [Node.fits, Node.kind, category, count]
  · exact (Input.forall_finite.1 fun input mem => (loaded input mem).2).1

theorem loaded_control {flow : Flow} {inputs : List (Input κ)} {bodies : List (List (Node κ))}
    (category : (describe k).category = .control flow)
    (count : inputs.length = (describe k).slots.length)
    (loaded : ∀ input ∈ inputs, input.Every (Loaded registry) ∧ input.Finite)
    (lists : bodies.length = (bodyFields.take flow.bodyCount).length)
    (nodes : ∀ body ∈ bodies, ∀ n ∈ body, n.Every (Loaded registry)) :
    (Node.control k inputs bodies).Every (Loaded registry) := by
  have bodyCount : bodies.length = flow.bodyCount := by
    rw [lists]
    cases flow <;> rfl
  refine Node.every_control.2
    ⟨⟨?_, rfl, ?_, code, resolves⟩, fun input mem => (loaded input mem).1, nodes⟩
  · simp [Node.fits, Node.kind, category, count, bodyCount]
  · exact (Input.forall_finite.1 fun input mem => (loaded input mem).2).1

end

variable (registry) in
abbrev JudgesNode (keys : String → Prop) (document : Json) : Prop :=
  Judges registry keys (readNode registry document) (NodeDocument registry document)
    fun n => n.Every (Loaded registry)

theorem judges_readItem {item : Json} (node : JudgesNode registry keys item) :
    Judges registry keys (readItem registry item) (InputDocument registry item)
      fun input => input.Every (Loaded registry) ∧ input.Finite := by
  cases item with
  | object fields =>
      rw [inputDocument_object, readItem_object]
      exact node.map fun n loaded =>
        ⟨loaded, loaded.sub fun m every => (Node.every_iff.1 every).1.finite⟩
  | null | bool | number | string | array =>
      rw [readItem]
      · exact judges_readLiteral (by simp)
      all_goals simp

theorem judges_readItems (items : List Json)
    (nodes : ∀ item ∈ items, JudgesNode registry keys item) :
    Judges registry keys (readItems registry items) (∀ item ∈ items, InputDocument registry item)
      fun inputs => ∀ input ∈ inputs, input.Every (Loaded registry) ∧ input.Finite := by
  induction items with
  | nil => exact (Judges.ok (by simp)).congr (by simp)
  | cons item rest ih =>
      obtain ⟨first, others⟩ := List.forall_mem_cons.1 nodes
      rw [readItems_cons, List.forall_mem_cons]
      exact (judges_readItem first).cons (ih others)

theorem judges_readNodes (items : List Json)
    (nodes : ∀ item ∈ items, JudgesNode registry keys item) :
    Judges registry keys (readNodes registry items) (∀ item ∈ items, NodeDocument registry item)
      fun ns => ∀ n ∈ ns, n.Every (Loaded registry) := by
  induction items with
  | nil => exact (Judges.ok (by simp)).congr (by simp)
  | cons item rest ih =>
      obtain ⟨first, others⟩ := List.forall_mem_cons.1 nodes
      rw [readNodes, List.forall_mem_cons]
      exact first.cons (ih others)

theorem judges_readList {document : Json}
    (nodes : ∀ item ∈ elements document, JudgesNode registry keys item) :
    Judges registry keys (readList registry document) (ListDocument registry document)
      fun ns => ∀ n ∈ ns, n.Every (Loaded registry) := by
  cases document with
  | array items => exact (judges_readNodes items nodes).congr listDocument_iff.symm
  | null | bool | number | string | object => exact judges_malformed (by simp) nofun

theorem judges_readInputs {k : Kind} {document : Json}
    (nodes : ∀ item ∈ elements document, JudgesNode registry keys item) :
    Judges registry keys (readInputs registry k document)
      (InputsDocument registry k.slots.length document)
      fun inputs => inputs.length = k.slots.length ∧
        ∀ input ∈ inputs, input.Every (Loaded registry) ∧ input.Finite := by
  cases document with
  | array items =>
      rw [inputsDocument_iff]
      refine (judges_fitting k items).bind fun _ count => ?_
      have read := judges_readItems items nodes
      refine ⟨read.accepts, fun inputs eq => ⟨?_, read.sound inputs eq⟩, read.rejects⟩
      rw [← count]
      exact length_readItems eq
  | null | bool | number | string | object =>
      exact judges_malformed (by simp) (not_inputsDocument (by simp))

theorem judges_readBodies (payload : Json) {fields : List (String × Json)} (names : List String)
    (nodes : ∀ name ∈ names, ∀ value, findEntry name fields = some value →
      ∀ item ∈ elements value, JudgesNode registry keys item) :
    Judges registry keys (names.mapM fun name =>
        required name payload ((findEntry name fields).map (readList registry)))
      (∀ name ∈ names, ∃ list, findEntry name fields = some list ∧ ListDocument registry list)
      fun bodies => bodies.length = names.length ∧
        ∀ body ∈ bodies, ∀ n ∈ body, n.Every (Loaded registry) := by
  induction names with
  | nil => exact (Judges.ok (by simp)).congr (by simp)
  | cons name rest ih =>
      obtain ⟨here, later⟩ := List.forall_mem_cons.1 nodes
      rw [List.mapM_cons, List.forall_mem_cons]
      refine (judges_required payload fun value found => judges_readList (here value found)).bind ?_
      intro body first
      refine ((ih later).bind (q := True) fun bodies others => ?_).congr (by rw [and_true])
      exact .ok ⟨congrArg Nat.succ others.1, List.forall_mem_cons.2 ⟨first, others.2⟩⟩

theorem judges_readPayload {k : κ} {code : String} {payload : Json}
    (resolves : registry.resolve? code = some k)
    (nodes : ∀ item ∈ nested k payload, JudgesNode registry keys item) :
    Judges registry keys (readPayload registry k code payload) (PayloadDocument registry k payload)
      fun n => n.Every (Loaded registry) := by
  have block (category : (describe k).category = .statement ∨ (describe k).category = .expression) :
      Judges registry keys (readPayload registry k code payload)
        (PayloadDocument registry k payload) fun n => n.Every (Loaded registry) := by
    rw [nested_block category] at nodes
    rw [readPayload_block code payload category, payloadDocument_block category]
    refine ((judges_readInputs nodes).bind (q := True) fun inputs read => ?_).congr
      (by rw [and_true])
    exact judges_checked payload (loaded_block resolves category read.1 read.2)
  cases category : (describe k).category with
  | statement => exact block (.inl category)
  | expression => exact block (.inr category)
  | control flow =>
      cases payload with
      | object fields =>
          have places : ∀ name ∈ inputField :: bodyFields.take flow.bodyCount, ∀ value,
              findEntry name fields = some value →
              ∀ item ∈ elements value, JudgesNode registry keys item := by
            intro name listed value found item inside
            exact nodes item ((mem_nested_control category).2 ⟨name, listed, value, found, inside⟩)
          obtain ⟨input, bodies⟩ := List.forall_mem_cons.1 places
          rw [readPayload_control code fields category, payloadDocument_control category]
          have judged := (judges_required (.object fields) fun value found =>
            judges_readInputs (k := describe k) (input value found)).bind fun inputs read =>
              (judges_readBodies (.object fields) _ bodies).bind fun lists listed =>
                judges_checked (.object fields)
                  (loaded_control resolves category read.1 read.2 listed.1 listed.2)
          exact judged.congr (by simp)
      | null | bool | number | string | array =>
          simp only [readPayload, category]
          exact judges_malformed (by simp) (by simp [payloadDocument_control category])
  | reference =>
      rw [payloadDocument_reference category]
      cases payload with
      | string name =>
          rw [readPayload_reference code name category]
          exact (Judges.ok (loaded_reference resolves category)).congr (by simp)
      | null | bool | number | array | object =>
          simp only [readPayload, category]
          exact judges_malformed (by simp) (by simp)
  | declaration =>
      unfold readPayload
      simp only [category]
      exact judges_malformed (by simp) (not_payloadDocument (.inl category))
  | shadow =>
      unfold readPayload
      simp only [category]
      exact judges_malformed (by simp) (not_payloadDocument (.inr category))

theorem judges_readNode (registry : Registry κ) (document : Json) :
    JudgesNode registry (NodeKey registry document) document := by
  rcases document with _ | _ | _ | _ | _ | (_ | ⟨⟨code, payload⟩, _ | _⟩)
  case object.cons.nil =>
    rw [JudgesNode, nodeDocument_iff]
    cases resolves : registry.resolve? code with
    | none =>
        rw [readNode, resolves]
        exact .error ⟨.here code payload, resolves⟩ (by simp)
    | some k =>
        rw [readNode_object payload resolves]
        have nodes : ∀ item ∈ nested k payload,
            JudgesNode registry (NodeKey registry (.object [(code, payload)])) item := by
          intro item member
          have smaller := sizeOf_lt_of_mem_nested member
          exact (judges_readNode registry item).widen fun key stands =>
            .inside resolves member stands
        exact (judges_readPayload resolves nodes).congr (by simp)
  all_goals exact judges_malformed (by simp) (by rintro ⟨⟩)
termination_by sizeOf document
decreasing_by
  simp only [Json.object.sizeOf_spec, List.cons.sizeOf_spec, Prod.mk.sizeOf_spec]
  omega

end

/-- Reading a document succeeds exactly on the grammar.  What it loads is well-formed, holds no
declaration and no preview, only finite literals and only kinds that have a code.  It rejects a
document for the form, or for a code at the place of a node that names nothing. -/
theorem ofDocument_accepts_grammar (registry : Registry κ) (document : Json) :
    ((∃ nodes, ofDocument registry document = .ok nodes) ↔ ListDocument registry document) ∧
    (∀ nodes, ofDocument registry document = .ok nodes →
      Node.listWellFormed nodes = true ∧ ∀ n ∈ nodes, n.Every (Loaded registry)) ∧
    ∀ e, ofDocument registry document = .error e →
      (∃ code, e = .unknownCode code ∧ registry.resolve? code = none ∧
        ∃ item ∈ elements document, NodeKey registry item code) ∨
      ∃ cause, e = .malformed cause ∧ ∀ payload, cause ≠ .misfit payload := by
  have nodes : ∀ item ∈ elements document, JudgesNode registry
      (fun key => ∃ item ∈ elements document, NodeKey registry item key) item := by
    intro item member
    exact (judges_readNode registry item).widen fun key stands => ⟨item, member, stands⟩
  have judges := judges_readList nodes
  refine ⟨judges.accepts, ?_, ?_⟩
  · intro nodes read
    have loaded := judges.sound nodes read
    refine ⟨Node.listWellFormed_iff_every.2 fun n mem => ?_, loaded⟩
    exact (loaded n mem).sub fun m every => (Node.every_iff.1 every).1.fits
  · intro e rejected
    have reason := judges.rejects e rejected
    cases e with
    | unknownCode code => exact .inl ⟨code, rfl, reason.2, reason.1⟩
    | unregistered summary => exact absurd reason id
    | malformed cause => exact .inr ⟨cause, rfl, reason⟩

section
open Catalog

def comparison (code : String) : Json :=
  .array [.object [("1.2", .object [
    ("body1", .array []),
    ("input", .array [.object [("0.6", .array [.number (.natural 1),
      .object [(code, .array [])]])]])])]]

theorem ofDocument_accepts_grammar_comparison :
    (∃ nodes, ofDocument registry (comparison "2.0") = .ok nodes ∧
      Node.listWellFormed nodes = true ∧ ListDocument registry (comparison "2.0")) ∧
    ofDocument registry (comparison "2.99") = .error (.unknownCode "2.99") ∧
    ¬ ListDocument registry (comparison "2.99") ∧
    ∃ item ∈ elements (comparison "2.99"), NodeKey registry item "2.99" := by
  have rejected : ofDocument registry (comparison "2.99") = .error (.unknownCode "2.99") := by rfl
  obtain ⟨nodes, read⟩ : ∃ nodes, ofDocument registry (comparison "2.0") = .ok nodes := ⟨_, by rfl⟩
  obtain ⟨accepts, sound, -⟩ := ofDocument_accepts_grammar registry (comparison "2.0")
  obtain ⟨accepts', -, rejects⟩ := ofDocument_accepts_grammar registry (comparison "2.99")
  refine ⟨⟨nodes, read, (sound nodes read).1, accepts.1 ⟨nodes, read⟩⟩, rejected, ?_, ?_⟩
  · intro grammatical
    obtain ⟨nodes, read⟩ := accepts'.2 grammatical
    cases rejected.symm.trans read
  · rcases rejects _ rejected with ⟨code, eq, -, stands⟩ | ⟨cause, eq, -⟩
    · cases eq
      exact stands
    · cases eq

end

end BlockScript.Document
