import BlockScript.Proofs.Document.RoundTrip

/-!
# The normal form of a document

Many documents describe one program: codes have several spellings, control blocks may carry fields
that nobody reads, and naturals beyond the machine integers are read as reals.  `normalize` settles
these three and leaves everything else alone.  A program that was read is written as the normal form
of its document, and the normal form reads as the same program (`toDocument_ofDocument`).
-/

namespace BlockScript

namespace Document

variable {κ : Type} [Vocabulary κ] [DecidableEq κ]

def normalizeCode (registry : Registry κ) (code : String) : String :=
  ((registry.resolve? code).bind registry.codeOf?).getD code

def controlFields (flow : Flow) : List String := bodyFields.take flow.bodyCount ++ [inputField]

def selectFields (names : List String) (fields : List (String × Json)) : List (String × Json) :=
  names.filterMap fun name => (findEntry name fields).map fun value => (name, value)

mutual

def normalizeNode (registry : Registry κ) : Json → Json
  | .object [(code, payload)] =>
    match registry.resolve? code with
    | some k => .object [(normalizeCode registry code, normalizePayload registry k payload)]
    | none => .object [(code, payload)]
  | document => document

def normalizePayload (registry : Registry κ) (k : κ) (payload : Json) : Json :=
  match (describe k).category with
  | .control flow =>
    match payload with
    | .object fields => .object (selectFields (controlFields flow) (normalizeFields registry fields))
    | _ => payload
  | .statement | .expression =>
    match payload with
    | .array items => .array (normalizeItems registry items)
    | _ => payload
  | _ => payload

def normalizeFields (registry : Registry κ) : List (String × Json) → List (String × Json)
  | [] => []
  | (name, value) :: rest =>
    (name, if name = inputField then normalizeInputs registry value
      else normalizeList registry value) :: normalizeFields registry rest

def normalizeInputs (registry : Registry κ) : Json → Json
  | .array items => .array (normalizeItems registry items)
  | document => document

def normalizeItems (registry : Registry κ) : List Json → List Json
  | [] => []
  | item :: rest =>
    (match item with
      | .object _ => normalizeNode registry item
      | _ => item.normalizeLiteral) :: normalizeItems registry rest

def normalizeList (registry : Registry κ) : Json → Json
  | .array items => .array (normalizeNodes registry items)
  | document => document

def normalizeNodes (registry : Registry κ) : List Json → List Json
  | [] => []
  | item :: rest => normalizeNode registry item :: normalizeNodes registry rest

end

def normalize (registry : Registry κ) (document : Json) : Json := normalizeList registry document

/-! ## Fields -/

theorem selectFields_cons {name : String} {names : List String} {fields : List (String × Json)}
    {value : Json} (found : findEntry name fields = some value) :
    selectFields (name :: names) fields = (name, value) :: selectFields names fields := by
  simp [selectFields, found]

theorem selectFields_cons_none {name : String} {names : List String}
    {fields : List (String × Json)} (absent : findEntry name fields = none) :
    selectFields (name :: names) fields = selectFields names fields := by
  simp [selectFields, absent]

theorem selectFields_append (names others : List String) (fields : List (String × Json)) :
    selectFields (names ++ others) fields =
      selectFields names fields ++ selectFields others fields :=
  List.filterMap_append

theorem findEntry_selectFields (name : String) (names : List String)
    (fields : List (String × Json)) :
    findEntry name (selectFields names fields) =
      if name ∈ names then findEntry name fields else none := by
  induction names with
  | nil => rfl
  | cons first rest ih =>
      cases found : findEntry first fields with
      | none =>
          rw [selectFields_cons_none found, ih]
          by_cases this : name = first
          · simp [this, found]
          · simp [this]
      | some value =>
          rw [selectFields_cons found, findEntry, ih]
          by_cases this : name = first
          · simp [this, found]
          · simp [this]

theorem findEntry_filter_mem (name : String) (names : List String)
    (fields : List (String × Json)) :
    findEntry name (fields.filter fun field => field.1 ∈ names) =
      if name ∈ names then findEntry name fields else none := by
  induction fields with
  | nil => simp [findEntry]
  | cons first rest ih =>
      by_cases kept : first.1 ∈ names
      · by_cases this : name = first.1
        · simp [findEntry, kept, this]
        · simpa [findEntry, kept, this] using ih
      · by_cases this : name = first.1
        · simpa [findEntry, kept, this] using ih
        · simpa [findEntry, kept, this] using ih

theorem ascending_selectFields {names : List String} (ordered : names.Pairwise (· < ·))
    (fields : List (String × Json)) : Ascending (selectFields names fields) := by
  induction names with
  | nil => exact List.Pairwise.nil
  | cons first rest ih =>
      obtain ⟨below, ordered⟩ := List.pairwise_cons.1 ordered
      cases found : findEntry first fields with
      | none =>
          rw [selectFields_cons_none found]
          exact ih ordered
      | some value =>
          rw [selectFields_cons found]
          refine List.pairwise_cons.2 ⟨?_, ih ordered⟩
          intro entry mem
          obtain ⟨name, listed, taken⟩ := List.mem_filterMap.1 mem
          obtain ⟨other, -, rfl⟩ := Option.map_eq_some_iff.1 taken
          exact below name listed

theorem selectFields_eq_filter {names : List String} (ordered : names.Pairwise (· < ·))
    {fields : List (String × Json)} (ascending : Ascending fields) :
    selectFields names fields = fields.filter fun field => field.1 ∈ names := by
  refine Table.eq_of_findEntry_eq (ascending_selectFields ordered fields) (ascending.filter _) ?_
  intro name
  rw [findEntry_selectFields, findEntry_filter_mem]

theorem map_fst_normalizeFields (registry : Registry κ) (fields : List (String × Json)) :
    (normalizeFields registry fields).map (·.1) = fields.map (·.1) := by
  induction fields with
  | nil => rw [normalizeFields]
  | cons field rest ih => rw [normalizeFields, List.map_cons, List.map_cons, ih]

theorem normalizePayload_control (registry : Registry κ) {k : κ} {flow : Flow}
    (category : (describe k).category = .control flow) {fields : List (String × Json)}
    (ascending : Ascending fields) :
    normalizePayload registry k (.object fields) = .object
      ((normalizeFields registry fields).filter fun field => field.1 ∈ controlFields flow) := by
  have ordered : (controlFields flow).Pairwise (· < ·) := by cases flow <;> decide
  have names : Ascending (normalizeFields registry fields) := by
    have listed : (fields.map (·.1)).Pairwise (· < ·) := List.pairwise_map.2 ascending
    rw [← map_fst_normalizeFields registry] at listed
    exact List.pairwise_map.1 listed
  simp only [normalizePayload, category]
  rw [selectFields_eq_filter ordered names]

/-! ## Stored programs -/

structure NodeStored (registry : Registry κ) (n : Node κ) (document : Json) : Prop where
  persistent : isPersistent n = true
  written : writeNode registry n = .ok document
  stripped : n.strip = n
  loadable : n.Every (Loadable registry)
  finite : n.Every Node.LiteralsFinite

structure InputStored (registry : Registry κ) (input : Input κ) (item : Json) : Prop where
  written (slot : Option SlotKind) : writeInput registry slot input = .ok item
  stripped (slot : Option SlotKind) : Node.stripInput slot input = input
  loadable : input.Every (Loadable registry)
  finite : input.Finite

abbrev InputsStored (registry : Registry κ) : List (Input κ) → List Json → Prop :=
  List.Forall₂ (InputStored registry)

abbrev ListStored (registry : Registry κ) : List (Node κ) → List Json → Prop :=
  List.Forall₂ (NodeStored registry)

abbrev BodiesStored (registry : Registry κ) : List (List (Node κ)) → List (List Json) → Prop :=
  List.Forall₂ (ListStored registry)

theorem InputStored.of_readLiteral {registry : Registry κ} {item : Json} {input : Input κ}
    (read : readLiteral item = .ok input) : InputStored registry input item.normalizeLiteral := by
  rw [readLiteral] at read
  cases literal : Value.ofJson item with
  | error e => simp [literal, malformed] at read
  | ok value =>
      rw [literal] at read
      obtain rfl := Except.ok.inj read
      obtain ⟨written, finite⟩ := Value.toJson_of_ofJson item literal
      exact ⟨fun slot => congrArg Except.ok written, fun slot => rfl, trivial, finite⟩

theorem NodeStored.input {registry : Registry κ} {n : Node κ} {document : Json}
    (stored : NodeStored registry n document) : InputStored registry (.node n) document := by
  have plain := isShadow_of_isPersistent stored.persistent
  constructor
  case written =>
    intro slot
    rw [writeInput_node registry slot plain, stored.written]
  case stripped =>
    intro slot
    rw [Node.stripInput_node slot plain, stored.stripped]
  case loadable => exact stored.loadable
  case finite => exact stored.finite

theorem forall_of_forall₂ {α β : Type} {related : α → β → Prop} {p : α → Prop} {xs : List α}
    {ys : List β} (lists : List.Forall₂ related xs ys) (step : ∀ x y, related x y → p x) :
    ∀ x ∈ xs, p x := by
  induction lists with
  | nil => simp
  | cons first _ ih => exact List.forall_mem_cons.2 ⟨step _ _ first, ih⟩

section
variable {registry : Registry κ}

theorem InputsStored.written {inputs : List (Input κ)} {items : List Json}
    (stored : InputsStored registry inputs items) (slots : List SlotKind) :
    writeInputs registry slots inputs = .ok items := by
  induction stored generalizing slots with
  | nil => rfl
  | cons first _ ih => exact writeInputs_cons.2 ⟨_, _, first.written _, ih _, rfl⟩

theorem InputsStored.stripped {inputs : List (Input κ)} {items : List Json}
    (stored : InputsStored registry inputs items) (slots : List SlotKind) :
    Node.stripInputs slots inputs = inputs :=
  Node.stripInputs_of_forall (forall_of_forall₂ stored fun _ _ first => first.stripped) slots

theorem ListStored.written {nodes : List (Node κ)} {items : List Json}
    (stored : ListStored registry nodes items) : writeList registry nodes = .ok items := by
  induction stored with
  | nil => rfl
  | cons first _ ih => exact (writeList_cons first.persistent).2 ⟨_, _, first.written, ih, rfl⟩

theorem ListStored.stripped {nodes : List (Node κ)} {items : List Json}
    (stored : ListStored registry nodes items) : Node.stripList nodes = nodes :=
  Node.stripList_of_forall
    (forall_of_forall₂ stored fun _ _ first => ⟨first.persistent, first.stripped⟩)

theorem ListStored.loadable {nodes : List (Node κ)} {items : List Json}
    (stored : ListStored registry nodes items) : ∀ n ∈ nodes, n.Every (Loadable registry) :=
  forall_of_forall₂ stored fun _ _ first => first.loadable

theorem ListStored.finite {nodes : List (Node κ)} {items : List Json}
    (stored : ListStored registry nodes items) : ∀ n ∈ nodes, n.Every Node.LiteralsFinite :=
  forall_of_forall₂ stored fun _ _ first => first.finite

theorem BodiesStored.written {bodies : List (List (Node κ))} {lists : List (List Json)}
    (stored : BodiesStored registry bodies lists) {names : List String}
    (named : bodies.length ≤ names.length) :
    writeBodies registry names bodies = .ok (names.zip (lists.map Json.array)) := by
  induction stored generalizing names with
  | nil =>
      rw [List.map_nil, List.zip_nil_right]
      rfl
  | cons first _ ih =>
      cases names with
      | nil => simp at named
      | cons name names =>
          have enough := Nat.le_of_succ_le_succ named
          exact writeBodies_cons.2 ⟨_, _, first.written, ih enough, rfl⟩

theorem BodiesStored.stripped {bodies : List (List (Node κ))} {lists : List (List Json)}
    (stored : BodiesStored registry bodies lists) : Node.stripBodies bodies = bodies :=
  Node.stripBodies_of_forall
    (forall_of_forall₂ stored fun _ _ first => ListStored.stripped first)

theorem NodeStored.block {k : κ} {inputs : List (Input κ)} {text : String} {items : List Json}
    (found : registry.codeOf? k = some text) (fits : (Node.block k inputs).fits = true)
    (stored : InputsStored registry inputs items) :
    NodeStored registry (.block k inputs) (.object [(text, .array items)]) := by
  have loadable := forall_of_forall₂ stored fun _ _ first => first.loadable
  have finite := forall_of_forall₂ stored fun _ _ first => first.finite
  constructor
  case persistent => rfl
  case written => exact writeNode_block.2 ⟨text, items, found, stored.written _, rfl⟩
  case stripped => rw [Node.strip, stored.stripped]
  case loadable => exact Node.every_block.2 ⟨⟨fits, trivial⟩, loadable⟩
  case finite => exact Node.every_block.2 (Input.forall_finite.1 finite)

theorem NodeStored.control {k : κ} {inputs : List (Input κ)} {bodies : List (List (Node κ))}
    {text : String} {items : List Json} {lists : List (List Json)}
    (found : registry.codeOf? k = some text) (fits : (Node.control k inputs bodies).fits = true)
    (stored : InputsStored registry inputs items) (inside : BodiesStored registry bodies lists) :
    NodeStored registry (.control k inputs bodies) (.object [(text, .object
      (bodyFields.zip (lists.map Json.array) ++ [(inputField, .array items)]))]) := by
  have loadable := forall_of_forall₂ stored fun _ _ first => first.loadable
  have finite := forall_of_forall₂ stored fun _ _ first => first.finite
  have named := length_le_bodyFields fits
  have above : ∀ entry ∈ bodyFields.zip (lists.map Json.array), entry.1 < inputField := by
    intro entry mem
    have field := (List.of_mem_zip mem).1
    revert field
    generalize entry.1 = name
    revert name
    decide
  constructor
  case persistent => rfl
  case written =>
    refine writeNode_control.2 ⟨_, _, text, stored.written _, inside.written named, found, ?_⟩
    rw [setEntry_of_forall_lt above]
  case stripped => rw [Node.strip, stored.stripped, inside.stripped]
  case loadable =>
    refine Node.every_control.2 ⟨⟨fits, trivial⟩, loadable, ?_⟩
    exact forall_of_forall₂ inside fun _ _ first => ListStored.loadable first
  case finite =>
    obtain ⟨literals, nodes⟩ := Input.forall_finite.1 finite
    refine Node.every_control.2 ⟨literals, nodes, ?_⟩
    exact forall_of_forall₂ inside fun _ _ first => ListStored.finite first

theorem NodeStored.reference (registry : Registry κ) (name : String) :
    NodeStored registry (.reference (registry.builtin .reference) name)
      (.object [(Registry.referenceCode, .string name)]) := by
  have fits : (Node.reference (registry.builtin .reference) name).fits = true := by
    simp only [Node.fits, Node.kind, registry.category_builtin_reference]
  constructor
  case persistent => rfl
  case written => rfl
  case stripped => rfl
  case loadable => exact Node.every_reference.2 ⟨fits, rfl⟩
  case finite =>
    refine Node.every_reference.2 ?_
    intro value mem
    simp [Node.inputs] at mem

end

/-! ## Programs that were read -/

theorem normalizeCode_eq {registry : Registry κ} {code text : String} {k : κ}
    (resolves : registry.resolve? code = some k) (found : registry.codeOf? k = some text) :
    normalizeCode registry code = text := by
  rw [normalizeCode, resolves, Option.bind_some, found, Option.getD_some]

theorem bodiesStored_of_read {registry : Registry κ} {payload : Json}
    {fields : List (String × Json)} {names : List String} (count : Nat)
    {bodies : List (List (Node κ))}
    (stored : ∀ name ∈ names, ∀ nodes, readListIn registry name fields = some (.ok nodes) →
      ∃ items, findEntry name (normalizeFields registry fields) = some (.array items) ∧
        ListStored registry nodes items)
    (read : ((names.take count).mapM fun name =>
      required name payload (readListIn registry name fields)) = .ok bodies) :
    ∃ lists, BodiesStored registry bodies lists ∧
      selectFields (names.take count) (normalizeFields registry fields) =
        names.zip (lists.map Json.array) := by
  induction names generalizing count bodies with
  | nil =>
      rw [List.take_nil, List.mapM_nil, pure_eq_ok] at read
      obtain rfl := read
      exact ⟨[], .nil, by simp [selectFields]⟩
  | cons name names ih =>
      cases count with
      | zero =>
          rw [List.take_zero, List.mapM_nil, pure_eq_ok] at read
          obtain rfl := read
          exact ⟨[], .nil, by simp [selectFields]⟩
      | succ count =>
          obtain ⟨here, below⟩ := List.forall_mem_cons.1 stored
          rw [List.take_succ_cons, List.mapM_cons, both_eq_ok] at read
          obtain ⟨body, others, first, later, rfl⟩ := read
          obtain ⟨items, found, list⟩ := here body (required_eq_ok.1 first)
          obtain ⟨lists, rest, selected⟩ := ih count below later
          refine ⟨items :: lists, .cons list rest, ?_⟩
          rw [List.take_succ_cons, selectFields_cons found, selected, List.map_cons,
            List.zip_cons_cons]

mutual

theorem nodeStored_of_read {registry : Registry κ} (own : registry.OwnsReferences) (document : Json)
    {n : Node κ} (read : readNode registry document = .ok n) :
    NodeStored registry n (normalizeNode registry document) := by
  match document with
  | .object [(code, payload)] =>
      cases resolves : registry.resolve? code with
      | none => simp [readNode, resolves] at read
      | some k =>
          rw [readNode_object payload resolves] at read
          simp only [normalizeNode, resolves]
          exact nodeStored_of_readPayload own payload resolves read
  | .object [] => simp [readNode, malformed] at read
  | .object (_ :: _ :: _) => simp [readNode, malformed] at read
  | .null => simp [readNode, malformed] at read
  | .bool _ => simp [readNode, malformed] at read
  | .number _ => simp [readNode, malformed] at read
  | .string _ => simp [readNode, malformed] at read
  | .array _ => simp [readNode, malformed] at read

theorem nodeStored_of_readPayload {registry : Registry κ} (own : registry.OwnsReferences)
    (payload : Json) {k : κ} {code : String} {n : Node κ}
    (resolves : registry.resolve? code = some k)
    (read : readPayload registry k code payload = .ok n) :
    NodeStored registry n
      (.object [(normalizeCode registry code, normalizePayload registry k payload)]) := by
  obtain ⟨text, found⟩ := Registry.codeOf?_of_resolve? resolves
  rw [normalizeCode_eq resolves found]
  -- The form of what stands under the code decides the category of the kind.
  cases payload with
  | array items =>
      have category : (describe k).category = .statement ∨ (describe k).category = .expression := by
        cases category : (describe k).category <;> simp [readPayload, category, malformed] at read ⊢
      rw [readPayload_block code _ category, bind_eq_ok] at read
      obtain ⟨inputs, listed, done⟩ := read
      obtain ⟨fits, rfl⟩ := checked_eq_ok.1 done
      obtain ⟨-, -, list⟩ := bind_eq_ok.1 listed
      have stored := inputsStored_of_read own items list
      rcases category with category | category
      · simpa only [normalizePayload, category] using NodeStored.block found fits stored
      · simpa only [normalizePayload, category] using NodeStored.block found fits stored
  | object fields =>
      obtain ⟨flow, category⟩ : ∃ flow, (describe k).category = .control flow := by
        cases category : (describe k).category <;> simp [readPayload, category, malformed] at read ⊢
      simp only [readPayload, category, bind_eq_ok] at read
      obtain ⟨inputs, listed, bodies, nested, done⟩ := read
      obtain ⟨fits, rfl⟩ := checked_eq_ok.1 done
      obtain ⟨items, input, stored⟩ := inputsStored_of_readIn own fields (required_eq_ok.1 listed)
      have fieldsStored : ∀ name ∈ bodyFields, ∀ nodes,
          readListIn registry name fields = some (.ok nodes) →
          ∃ items, findEntry name (normalizeFields registry fields) = some (.array items) ∧
            ListStored registry nodes items := by
        intro name mem nodes list
        exact listStored_of_readIn own fields (ne_inputField mem) list
      obtain ⟨lists, inside, selected⟩ := bodiesStored_of_read flow.bodyCount fieldsStored nested
      have kept : selectFields (controlFields flow) (normalizeFields registry fields) =
          bodyFields.zip (lists.map Json.array) ++ [(inputField, .array items)] := by
        rw [controlFields, selectFields_append, selected, selectFields_cons input]
        rfl
      have control := NodeStored.control found fits stored inside
      simpa only [normalizePayload, category, kept] using control
  | string name =>
      have category : (describe k).category = .reference := by
        cases category : (describe k).category <;> simp [readPayload, category, malformed] at read ⊢
      rw [readPayload_reference code name category] at read
      obtain rfl := Except.ok.inj read
      have mine : k = registry.builtin .reference := by
        rcases Registry.resolve?_cases resolves with mine | registered
        · exact mine
        · exact own k registered category
      have word : text = Registry.referenceCode := by
        rw [Registry.codeOf?, if_pos category] at found
        exact (Option.some.inj found).symm
      subst mine word
      simpa only [normalizePayload, category] using NodeStored.reference registry name
  | null | bool | number =>
      cases category : (describe k).category <;> simp [readPayload, category, malformed] at read

theorem inputsStored_of_read {registry : Registry κ} (own : registry.OwnsReferences)
    (items : List Json) {inputs : List (Input κ)} (read : readItems registry items = .ok inputs) :
    InputsStored registry inputs (normalizeItems registry items) := by
  match items with
  | [] =>
      obtain rfl := pure_eq_ok.1 read
      exact .nil
  | .object fields :: rest =>
      rw [readItems_cons, both_eq_ok] at read
      obtain ⟨input, others, first, later, rfl⟩ := read
      rw [readItem_object, map_eq_ok] at first
      obtain ⟨n, node, rfl⟩ := first
      exact .cons (nodeStored_of_read own (.object fields) node).input
        (inputsStored_of_read own rest later)
  | .null :: rest | .bool _ :: rest | .number _ :: rest | .string _ :: rest | .array _ :: rest =>
      rw [readItems_cons, both_eq_ok] at read
      obtain ⟨input, others, first, later, rfl⟩ := read
      exact .cons (InputStored.of_readLiteral first) (inputsStored_of_read own rest later)

theorem listStored_of_read {registry : Registry κ} (own : registry.OwnsReferences)
    (items : List Json) {nodes : List (Node κ)} (read : readNodes registry items = .ok nodes) :
    ListStored registry nodes (normalizeNodes registry items) := by
  cases items with
  | nil =>
      obtain rfl := pure_eq_ok.1 read
      exact .nil
  | cons item rest =>
      rw [readNodes, both_eq_ok] at read
      obtain ⟨n, others, first, later, rfl⟩ := read
      exact .cons (nodeStored_of_read own item first) (listStored_of_read own rest later)

theorem inputsStored_of_readIn {registry : Registry κ} (own : registry.OwnsReferences) {k : Kind}
    (fields : List (String × Json)) {inputs : List (Input κ)}
    (read : readInputsIn registry k fields = some (.ok inputs)) :
    ∃ items, findEntry inputField (normalizeFields registry fields) = some (.array items) ∧
      InputsStored registry inputs items := by
  match fields with
  | [] => simp [readInputsIn] at read
  | (name, value) :: rest =>
      rw [readInputsIn] at read
      rw [normalizeFields, findEntry]
      by_cases this : name = inputField
      · rw [if_pos this] at read
        rw [if_pos this.symm]
        simp only [if_pos this]
        cases value with
        | array items =>
            obtain ⟨-, -, list⟩ := bind_eq_ok.1 (Option.some.inj read)
            exact ⟨_, rfl, inputsStored_of_read own items list⟩
        | null | bool | number | string | object => simp [readInputs, malformed] at read
      · rw [if_neg this] at read
        rw [if_neg (Ne.symm this)]
        exact inputsStored_of_readIn own rest read

theorem listStored_of_readIn {registry : Registry κ} (own : registry.OwnsReferences)
    {field : String} (fields : List (String × Json)) (other : field ≠ inputField)
    {nodes : List (Node κ)} (read : readListIn registry field fields = some (.ok nodes)) :
    ∃ items, findEntry field (normalizeFields registry fields) = some (.array items) ∧
      ListStored registry nodes items := by
  match fields with
  | [] => simp [readListIn] at read
  | (name, value) :: rest =>
      rw [readListIn] at read
      rw [normalizeFields, findEntry]
      by_cases this : name = field
      · rw [if_pos this] at read
        rw [if_pos this.symm]
        simp only [if_neg (this ▸ other)]
        cases value with
        | array items => exact ⟨_, rfl, listStored_of_read own items (Option.some.inj read)⟩
        | null | bool | number | string | object => simp [readList, malformed] at read
      · rw [if_neg this] at read
        rw [if_neg (Ne.symm this)]
        exact listStored_of_readIn own rest other read

end

theorem normalize_of_read {registry : Registry κ} (own : registry.OwnsReferences)
    {document : Json} {nodes : List (Node κ)} (read : ofDocument registry document = .ok nodes) :
    ∃ items, normalize registry document = .array items ∧ ListStored registry nodes items := by
  cases document with
  | array items => exact ⟨_, rfl, listStored_of_read own items read⟩
  | null | bool | number | string | object => simp [ofDocument, readList, malformed] at read

/-- The normal form of a document that is read is what the program is written as, reads as the same
program, and is its own normal form.  In a control block it only drops fields. -/
theorem toDocument_ofDocument (registry : Registry κ) (own : registry.OwnsReferences)
    (document : Json) (nodes : List (Node κ)) (read : ofDocument registry document = .ok nodes) :
    (toDocument registry nodes = .ok (normalize registry document) ∧
      ofDocument registry (normalize registry document) = .ok nodes ∧
      normalize registry (normalize registry document) = normalize registry document) ∧
    ∀ (k : κ) (flow : Flow) (fields : List (String × Json)),
      (describe k).category = .control flow → Ascending fields →
      normalizePayload registry k (.object fields) = .object
        ((normalizeFields registry fields).filter fun field => field.1 ∈ controlFields flow) := by
  refine ⟨?_, fun k flow fields category ascending =>
    normalizePayload_control registry category ascending⟩
  obtain ⟨items, normal, stored⟩ := normalize_of_read own read
  have reads := reads_writeList registry nodes stored.loadable stored.written
  rw [stored.stripped] at reads
  have again : ofDocument registry (.array items) = .ok nodes := reads.ok stored.finite
  -- The program determines its document, so normalizing once more changes nothing.
  obtain ⟨others, normal', stored'⟩ := normalize_of_read own again
  have same : others = items := Except.ok.inj (stored'.written.symm.trans stored.written)
  rw [normal]
  refine ⟨toDocument_eq_ok.2 ⟨items, stored.written, rfl⟩, again, ?_⟩
  rw [normal', same]

end Document

theorem Catalog.ownsReferences : Catalog.registry.OwnsReferences := by
  intro k _ category
  cases k with
  | operation op => cases op <;> cases category
  | signal s => cases s <;> cases category
  | reading r => cases r <;> cases category
  | file f => cases f <;> cases category
  | text t => cases t <;> cases category
  | query q => cases q <;> cases category
  | update u => cases u <;> cases category
  | assign => cases category
  | builtin b =>
      cases b with
      | reference => rfl
      | control flow => cases flow <;> cases category
      | declaration => cases category
      | shadow => cases category

namespace Document

section
open Catalog

def handwritten : Json :=
  .array [.object [("01.+1", .object [
    ("body1", .array [.object [("7.0", .array [.string "x", .number (.natural 18446744073709551615)])]]),
    ("body2", .array []),
    ("input", .array [.object [("7.1", .string "y")]]),
    ("note", .null)])]]

theorem toDocument_ofDocument_handwritten :
    registry.OwnsReferences ∧
    ∃ nodes, ofDocument registry handwritten = .ok nodes ∧
      normalize registry handwritten =
        .array [.object [("1.1", .object [
          ("body1", .array [.object [("7.0", .array [.string "x",
            .number (.real (.ofMagnitude false 0x43f0000000000000) (by decide))])]]),
          ("body2", .array []),
          ("input", .array [.object [("variable", .string "y")]])])]] ∧
      toDocument registry nodes = .ok (normalize registry handwritten) ∧
      ofDocument registry (normalize registry handwritten) = .ok nodes ∧
      normalize registry (normalize registry handwritten) = normalize registry handwritten := by
  obtain ⟨nodes, read⟩ : ∃ nodes, ofDocument registry handwritten = .ok nodes := ⟨_, by rfl⟩
  exact ⟨ownsReferences, nodes, read, by rfl,
    (toDocument_ofDocument registry ownsReferences handwritten nodes read).1⟩

end

end Document

end BlockScript
