import BlockScript.Catalog.Standard
import BlockScript.Proofs.Document.Literals
import BlockScript.Proofs.Document.Reading
import BlockScript.Proofs.Document.Writing

/-!
# Saving and loading

What is read from the document of a program is the stripped program, as long as its literals are
finite; an infinite literal is written as null, and reading stops there.  `Reads` says this of a
result, and one lemma for each writing function builds it up along the tree.
`ofDocument_toDocument` adds which programs have a document.
-/

namespace BlockScript

variable {κ : Type}

def Node.LiteralsFinite (n : Node κ) : Prop :=
  ∀ value, Input.literal value ∈ n.inputs → value.finite = true

def Input.Finite : Input κ → Prop
  | literal value => value.finite = true
  | node n => n.Every Node.LiteralsFinite

theorem Input.forall_finite {inputs : List (Input κ)} :
    (∀ input ∈ inputs, input.Finite) ↔
      (∀ value, Input.literal value ∈ inputs → value.finite = true) ∧
        ∀ input ∈ inputs, input.Every Node.LiteralsFinite := by
  constructor
  · intro h
    refine ⟨fun value mem => h _ mem, fun input mem => ?_⟩
    cases input with
    | literal value => trivial
    | node n => exact h _ mem
  · rintro ⟨literals, nodes⟩ input mem
    cases input with
    | literal value => exact literals value mem
    | node n => exact nodes _ mem

variable [Vocabulary κ]

def Registry.OwnsReference (registry : Registry κ) : Node κ → Prop
  | .reference k _ => k = registry.builtin .reference
  | _ => True

namespace Document

structure Reads {α : Type} (result : Result α) (finite : Prop) (a : α) : Prop where
  ok : finite → result = .ok a
  null : ¬ finite → result = malformed (.literal (.invalidLiteral "null"))

namespace Reads

variable {α β : Type} {x : Result α} {a : α} {b : β} {p q : Prop}

theorem done : Reads (.ok a) True a := ⟨fun _ => rfl, fun h => absurd trivial h⟩

theorem congr (reads : Reads x p a) (same : p ↔ q) : Reads x q a :=
  ⟨fun h => reads.ok (same.2 h), fun h => reads.null fun h' => h (same.1 h')⟩

theorem bind {f : α → Result β} (reads : Reads x p a) (next : Reads (f a) q b) :
    Reads (x >>= f) (p ∧ q) b where
  ok h := by
    rw [reads.ok h.1]
    exact next.ok h.2
  null h := by
    by_cases hp : p
    · rw [reads.ok hp]
      exact next.null fun hq => h ⟨hp, hq⟩
    · rw [reads.null hp]
      rfl

theorem map (f : α → β) (reads : Reads x p a) : Reads (x.map f) p (f a) where
  ok h := by
    rw [reads.ok h]
    rfl
  null h := by
    rw [reads.null h]
    rfl

theorem cons {xs : Result (List α)} {as : List α} (head : Reads x p a) (tail : Reads xs q as) :
    Reads (do let a ← x; let as ← xs; return a :: as) (p ∧ q) (a :: as) := by
  have whole : Reads (do let as ← xs; return a :: as) (q ∧ True) (a :: as) :=
    tail.bind (f := fun as => pure (a :: as)) Reads.done
  exact head.bind (whole.congr (by rw [and_true]))

end Reads

/-! ## Reading what was written -/

theorem readItem_toJson (registry : Registry κ) (value : Value) :
    readItem registry value.toJson = readLiteral value.toJson := by
  cases value with
  | real x =>
      rw [Value.toJson]
      split <;> rfl
  | integer | boolean | text | list => rfl

theorem reads_literal (registry : Registry κ) (value : Value) :
    Reads (readItem registry value.toJson) (value.finite = true) (.literal value) := by
  rw [readItem_toJson, readLiteral, Value.ofJson_toJson]
  constructor
  · intro finite
    rw [if_pos finite]
  · intro infinite
    rw [if_neg infinite]

theorem reads_inputs {registry : Registry κ} {k : Kind} {items : List Json}
    {inputs : List (Input κ)} {finite : Prop} (length : items.length = k.slots.length)
    (reads : Reads (readItems registry items) finite inputs) :
    Reads (readInputs registry k (.array items)) finite inputs := by
  rw [readInputs, fitting_of_length length]
  exact reads

section
variable [DecidableEq κ]

theorem length_writeInputs {registry : Registry κ} {slots : List SlotKind}
    {inputs : List (Input κ)} {items : List Json}
    (written : writeInputs registry slots inputs = .ok items) : items.length = inputs.length := by
  induction inputs generalizing slots items with
  | nil =>
      obtain rfl := pure_eq_ok.1 written
      rfl
  | cons input rest ih =>
      obtain ⟨item, others, -, later, rfl⟩ := writeInputs_cons.1 written
      rw [List.length_cons, List.length_cons, ih later]

theorem exists_fields {registry : Registry κ} {n : Node κ} {d : Json}
    (written : writeNode registry n = .ok d) : ∃ fields, d = .object fields := by
  cases n with
  | block k inputs =>
      obtain ⟨text, items, -, -, rfl⟩ := writeNode_block.1 written
      exact ⟨_, rfl⟩
  | control k inputs bodies =>
      obtain ⟨items, lists, text, -, -, -, rfl⟩ := writeNode_control.1 written
      exact ⟨_, rfl⟩
  | reference k name =>
      rw [writeNode, pure_eq_ok] at written
      exact ⟨_, written.symm⟩
  | declaration k => simp [writeNode] at written
  | shadow k shadowed covered => simp [writeNode] at written

def Loadable (registry : Registry κ) (n : Node κ) : Prop := n.fits = true ∧ registry.OwnsReference n

theorem reads_writeInput_node {registry : Registry κ} {n : Node κ} {slot : Option SlotKind}
    {d : Json} (plain : n.isShadow = false) (written : writeInput registry slot (.node n) = .ok d)
    (reads : writeNode registry n = .ok d →
      Reads (readNode registry d) (n.strip.Every Node.LiteralsFinite) n.strip) :
    Reads (readItem registry d) (Node.stripInput slot (.node n)).Finite
      (Node.stripInput slot (.node n)) := by
  rw [writeInput_node registry slot plain] at written
  rw [Node.stripInput_node slot plain]
  obtain ⟨fields, rfl⟩ := exists_fields written
  rw [readItem_object]
  exact (reads written).map Input.node

mutual

theorem reads_writeNode (registry : Registry κ) (n : Node κ)
    (loadable : n.Every (Loadable registry)) {d : Json} (written : writeNode registry n = .ok d) :
    Reads (readNode registry d) (n.strip.Every Node.LiteralsFinite) n.strip := by
  cases n with
  | block k inputs =>
      obtain ⟨⟨fits, -⟩, below⟩ := Node.every_block.1 loadable
      obtain ⟨category, slots⟩ := Node.fits_block fits
      have plain := Node.category_of_fits_block fits
      obtain ⟨text, items, found, list, rfl⟩ := writeNode_block.1 written
      have resolves := Registry.resolve?_of_codeOf? (fun h => absurd h plain) found
      have length : items.length = (describe k).slots.length := (length_writeInputs list).trans slots
      have reads := reads_inputs length (reads_writeInputs registry _ inputs below list)
      have suits := Node.fits_strip (.block k inputs)
      rw [Node.strip] at suits ⊢
      rw [readNode_object _ resolves, readPayload_block text _ category, Node.every_block]
      have done : checked (.array items) _ = .ok _ := checked_eq_ok.2 ⟨suits.trans fits, rfl⟩
      refine (reads.bind (done ▸ Reads.done)).congr ?_
      rw [and_true, Input.forall_finite]
      rfl
  | control k inputs bodies =>
      obtain ⟨⟨fits, -⟩, below, inside⟩ := Node.every_control.1 loadable
      obtain ⟨flow, category, slots, count⟩ := Node.fits_control fits
      have plain : (describe k).category ≠ .reference := by simp [category]
      obtain ⟨items, lists, text, list, listed, found, rfl⟩ := writeNode_control.1 written
      have resolves := Registry.resolve?_of_codeOf? (fun h => absurd h plain) found
      have length : items.length = (describe k).slots.length := (length_writeInputs list).trans slots
      have reads := reads_inputs length (reads_writeInputs registry _ inputs below list)
      have input : findEntry inputField (setEntry inputField (.array items) lists) =
          some (.array items) := by
        rw [Table.findEntry_setEntry, if_pos rfl]
      have others : ∀ name ∈ bodyFields,
          findEntry name (setEntry inputField (.array items) lists) = findEntry name lists := by
        intro name mem
        rw [Table.findEntry_setEntry, if_neg (ne_inputField mem)]
      have nested := reads_writeBodies registry bodyFields bodies (by decide)
        (length_le_bodyFields fits) inside listed
        (.object (setEntry inputField (.array items) lists)) others
      have suits := Node.fits_strip (.control k inputs bodies)
      rw [Node.strip] at suits ⊢
      have done : checked (.object (setEntry inputField (.array items) lists)) _ = .ok _ :=
        checked_eq_ok.2 ⟨suits.trans fits, rfl⟩
      rw [readNode_object _ resolves, readPayload_control text _ category, input, ← count,
        Node.every_control]
      refine (reads.bind (nested.bind (done ▸ Reads.done))).congr ?_
      rw [and_true, Input.forall_finite, and_assoc]
      rfl
  | reference k name =>
      obtain ⟨fits, rfl⟩ := Node.every_reference.1 loadable
      rw [writeNode, pure_eq_ok] at written
      obtain rfl := written
      rw [readNode_object _ registry.resolve?_referenceCode,
        readPayload_reference _ _ registry.category_builtin_reference, Node.strip]
      refine Reads.done.congr ?_
      simp [Node.LiteralsFinite, Node.inputs]
  | declaration k => simp [writeNode] at written
  | shadow k shadowed covered => simp [writeNode] at written

theorem reads_writeInput (registry : Registry κ) (slot : Option SlotKind) (input : Input κ)
    (loadable : input.Every (Loadable registry)) {d : Json}
    (written : writeInput registry slot input = .ok d) :
    Reads (readItem registry d) (Node.stripInput slot input).Finite (Node.stripInput slot input) := by
  match input with
  | .literal value =>
      rw [writeInput, pure_eq_ok] at written
      obtain rfl := written
      exact reads_literal registry value
  | .node (.shadow k shadowed (some covered)) =>
      rw [writeInput] at written
      rw [Node.stripInput]
      obtain ⟨-, -, below⟩ := Node.every_shadow.1 loadable
      exact reads_writeInput registry slot covered (below covered rfl) written
  | .node (.shadow k shadowed none) =>
      rw [writeInput, pure_eq_ok] at written
      obtain rfl := written
      rw [Node.stripInput]
      exact reads_literal registry _
  | .node (.declaration k) => simp [writeInput, writeNode] at written
  | .node (.block k inputs) =>
      exact reads_writeInput_node rfl written
        (reads_writeNode registry (.block k inputs) loadable)
  | .node (.control k inputs bodies) =>
      exact reads_writeInput_node rfl written
        (reads_writeNode registry (.control k inputs bodies) loadable)
  | .node (.reference k name) =>
      exact reads_writeInput_node rfl written
        (reads_writeNode registry (.reference k name) loadable)

theorem reads_writeInputs (registry : Registry κ) (slots : List SlotKind)
    (inputs : List (Input κ)) (loadable : ∀ input ∈ inputs, input.Every (Loadable registry))
    {items : List Json} (written : writeInputs registry slots inputs = .ok items) :
    Reads (readItems registry items) (∀ input ∈ Node.stripInputs slots inputs, input.Finite)
      (Node.stripInputs slots inputs) := by
  cases inputs with
  | nil =>
      obtain rfl := pure_eq_ok.1 written
      exact Reads.done.congr (by simp [Node.stripInputs])
  | cons input rest =>
      obtain ⟨item, others, first, later, rfl⟩ := writeInputs_cons.1 written
      obtain ⟨here, below⟩ := List.forall_mem_cons.1 loadable
      have head := reads_writeInput registry slots.head? input here first
      have tail := reads_writeInputs registry slots.tail rest below later
      rw [readItems_cons, Node.stripInputs, List.forall_mem_cons]
      exact head.cons tail

theorem reads_writeList (registry : Registry κ) (nodes : List (Node κ))
    (loadable : ∀ n ∈ nodes, n.Every (Loadable registry)) {items : List Json}
    (written : writeList registry nodes = .ok items) :
    Reads (readNodes registry items) (∀ n ∈ Node.stripList nodes, n.Every Node.LiteralsFinite)
      (Node.stripList nodes) := by
  cases nodes with
  | nil =>
      obtain rfl := pure_eq_ok.1 written
      exact Reads.done.congr (by simp [Node.stripList])
  | cons n rest =>
      obtain ⟨here, below⟩ := List.forall_mem_cons.1 loadable
      by_cases persistent : isPersistent n = true
      · obtain ⟨item, others, first, later, rfl⟩ := (writeList_cons persistent).1 written
        have head := reads_writeNode registry n here first
        have tail := reads_writeList registry rest below later
        rw [readNodes, Node.stripList_cons, if_pos persistent, List.forall_mem_cons]
        exact head.cons tail
      · rw [writeList, if_neg persistent] at written
        rw [Node.stripList_cons, if_neg persistent]
        exact reads_writeList registry rest below written

theorem reads_writeBodies (registry : Registry κ) (names : List String)
    (bodies : List (List (Node κ))) (distinct : names.Nodup) (named : bodies.length ≤ names.length)
    (loadable : ∀ body ∈ bodies, ∀ n ∈ body, n.Every (Loadable registry))
    {lists fields : List (String × Json)} (written : writeBodies registry names bodies = .ok lists)
    (payload : Json) (found : ∀ name ∈ names, findEntry name fields = findEntry name lists) :
    Reads ((names.take bodies.length).mapM fun name =>
        required name payload ((findEntry name fields).map (readList registry)))
      (∀ body ∈ Node.stripBodies bodies, ∀ n ∈ body, n.Every Node.LiteralsFinite)
      (Node.stripBodies bodies) := by
  cases bodies with
  | nil =>
      rw [List.length_nil, List.take_zero, List.mapM_nil, Node.stripBodies]
      exact Reads.done.congr (by simp)
  | cons body rest =>
      cases names with
      | nil => simp at named
      | cons name names =>
          obtain ⟨items, others, first, later, rfl⟩ := writeBodies_cons.1 written
          obtain ⟨here, below⟩ := List.forall_mem_cons.1 loadable
          obtain ⟨fresh, distinct⟩ := List.nodup_cons.1 distinct
          have enough : rest.length ≤ names.length := Nat.le_of_succ_le_succ named
          have shown : findEntry name fields = some (.array items) := by
            rw [found name List.mem_cons_self, findEntry, if_pos rfl]
          have hidden : ∀ other ∈ names, findEntry other fields = findEntry other others := by
            intro other mem
            have ne : other ≠ name := by
              rintro rfl
              exact fresh mem
            rw [found other (List.mem_cons_of_mem _ mem), findEntry, if_neg ne]
          have head := reads_writeList registry body here first
          have tail := reads_writeBodies registry names rest distinct enough below later payload
            hidden
          rw [List.length_cons, List.take_succ_cons, List.mapM_cons, shown, Node.stripBodies,
            List.forall_mem_cons]
          exact head.cons tail

end

/-! ## Programs -/

theorem toDocument_eq_ok {registry : Registry κ} {nodes : List (Node κ)} {d : Json} :
    toDocument registry nodes = .ok d ↔
      ∃ items, writeList registry nodes = .ok items ∧ d = .array items := by
  simp only [toDocument, bind_eq_ok, pure_eq_ok, eq_comm (a := d)]

/-- A program has a document exactly when stripping leaves only blocks of registered kinds and no
declaration marker in a slot, and the document then gives back the stripped program, unless one of
its literals is not finite. -/
theorem ofDocument_toDocument (registry : Registry κ) (nodes : List (Node κ))
    (wellFormed : Node.listWellFormed nodes = true)
    (own : ∀ n ∈ nodes, n.Every registry.OwnsReference) :
    ((∃ d, toDocument registry nodes = .ok d) ↔
      ∀ n ∈ Node.stripList nodes, n.Every fun m => registry.Knows m ∧ m.SlotsUnmarked) ∧
    ∀ d, toDocument registry nodes = .ok d →
      ((∀ n ∈ Node.stripList nodes, n.Every Node.LiteralsFinite) →
        ofDocument registry d = .ok (Node.stripList nodes)) ∧
      ((¬ ∀ n ∈ Node.stripList nodes, n.Every Node.LiteralsFinite) →
        ∃ cause, ofDocument registry d = .error (.malformed cause)) := by
  have fits := Node.listWellFormed_iff_every.1 wellFormed
  constructor
  · have saved := exists_writeList registry nodes fits
    simp only [toDocument_eq_ok]
    refine Iff.trans ?_ saved
    constructor
    · rintro ⟨d, items, written, -⟩
      exact ⟨items, written⟩
    · rintro ⟨items, written⟩
      exact ⟨_, items, written, rfl⟩
  · intro d written
    obtain ⟨items, list, rfl⟩ := toDocument_eq_ok.1 written
    have loadable : ∀ n ∈ nodes, n.Every (Loadable registry) := fun n mem =>
      (fits n mem).and (own n mem)
    have reads := reads_writeList registry nodes loadable list
    exact ⟨reads.ok, fun infinite => ⟨_, reads.null infinite⟩⟩

end

section
open Catalog

def previewed : List (Node Block) :=
  [.declaration (.builtin .declaration),
    .control (.builtin (.control .ifElse))
      [.node (.shadow (.builtin .shadow) none (some (.node (.shadow (.builtin .shadow) none
        (some (.node (.reference (.builtin .reference) "y")))))))]
      [[.block .assign [.literal (.text "x"), .node (.shadow (.builtin .shadow) none none)]],
        [.shadow (.builtin .shadow) (some (.reference (.builtin .reference) "z")) none]]]

theorem ofDocument_toDocument_previewed :
    Node.listWellFormed previewed = true ∧
    (∀ n ∈ previewed, n.Every registry.OwnsReference) ∧
    Node.stripList previewed =
      [.control (.builtin (.control .ifElse)) [.node (.reference (.builtin .reference) "y")]
        [[.block .assign [.literal (.text "x"), .literal (.text "")]], []]] ∧
    ∃ d, toDocument registry previewed = .ok d ∧
      ofDocument registry d = .ok (Node.stripList previewed) := by
  have wellFormed : Node.listWellFormed previewed = true := by decide +kernel
  have own : ∀ n ∈ previewed, n.Every registry.OwnsReference := by
    simp [previewed, Registry.OwnsReference, registry]
  have stripped : Node.stripList previewed =
      [.control (.builtin (.control .ifElse)) [.node (.reference (.builtin .reference) "y")]
        [[.block .assign [.literal (.text "x"), .literal (.text "")]], []]] := rfl
  have finite : ∀ n ∈ Node.stripList previewed, n.Every Node.LiteralsFinite := by
    simp [stripped, Node.LiteralsFinite, Node.inputs, Value.finite]
  have laws := ofDocument_toDocument registry previewed wellFormed own
  obtain ⟨d, written⟩ : ∃ d, toDocument registry previewed = .ok d := ⟨_, by rfl⟩
  exact ⟨wellFormed, own, stripped, d, written, (laws.2 d written).1 finite⟩

end

end Document

end BlockScript
