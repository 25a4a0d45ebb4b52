import BlockScript.Proofs.Document.Grammar
import BlockScript.Proofs.Node.Grafting

/-!
# Nodes keep their shape

An edit changes what stands in a slot or in a statement list, never how many of them a node has, so
it leaves every node of a tree suited to its kind: `Shaped.edit?` goes down a path, and
`shaped_write`, `shaped_insert` and `shaped_delete` are the edits at an address.

`Obtained` is closed under all ways to come by nodes, from the constructors over documents to
edits, whose pieces may be used again.  Although only the topmost node is checked when a node is
put together from parts, the obtained nodes are exactly the well-formed ones
(`obtained_iff_wellFormed`).
-/

namespace BlockScript

variable {κ β : Type}

namespace Node

section
variable {p : Node κ → Prop} {n m : Node κ}

theorem Every.input (h : n.Every p) {input : Input κ} (mem : input ∈ n.inputs) :
    input.Every p := by
  cases n with
  | block k inputs => exact (every_block.1 h).2 input mem
  | control k inputs bodies => exact (every_control.1 h).2.1 input mem
  | reference | declaration | shadow => simp [inputs] at mem

theorem Every.body (h : n.Every p) {body : List (Node κ)} (mem : body ∈ n.bodies)
    (inside : m ∈ body) : m.Every p := by
  cases n with
  | control k inputs bodies => exact (every_control.1 h).2.2 body mem m inside
  | block | reference | declaration | shadow => simp [bodies] at mem

theorem Every.child? (h : n.Every p) {step : Step} (found : n.child? step = some m) :
    m.Every p := by
  cases step with
  | slot slot =>
      obtain ⟨input, here, node⟩ := Option.bind_eq_some_iff.1 found
      have every := h.input (List.mem_of_getElem? here)
      cases input with
      | literal value => simp [Input.asNode?] at node
      | node child =>
          obtain rfl := Option.some.inj node
          exact every
  | body i position =>
      obtain ⟨body, here, inside⟩ := Option.bind_eq_some_iff.1 found
      exact h.body (List.mem_of_getElem? here) (List.mem_of_getElem? inside)

end

section
variable [Vocabulary κ]

theorem fits_setInput (slot : Nat) (input : Input κ) (n : Node κ) :
    (n.setInput slot input).fits = n.fits := by
  cases n with
  | block k inputs => cases h : (describe k).category <;> simp [setInput, fits, kind, h]
  | control k inputs bodies => cases h : (describe k).category <;> simp [setInput, fits, kind, h]
  | reference | declaration | shadow => rfl

theorem fits_setBody (i : Nat) (body : List (Node κ)) (n : Node κ) :
    (n.setBody i body).fits = n.fits := by
  cases n with
  | control k inputs bodies => cases h : (describe k).category <;> simp [setBody, fits, kind, h]
  | block | reference | declaration | shadow => rfl

theorem checked?_eq_some {n m : Node κ} : n.checked? = some m ↔ n.fits = true ∧ n = m := by
  simp [checked?]

abbrev Shaped (n : Node κ) : Prop := n.Every fun m => m.fits = true

theorem shaped_reference_iff {k : κ} {name : String} :
    (reference k name).Shaped ↔ (describe k).category = .reference := by
  rw [Shaped, every_reference]
  cases h : (describe k).category <;> simp [fits, kind, h]

theorem shaped_fresh (k : κ) : (fresh k).Shaped := by
  cases category : (describe k).category with
  | statement | expression | control flow => simp [Shaped, fresh, fits, kind, category, Input.Every]
  | reference => simpa [fresh, category] using shaped_reference_iff.2 category
  | declaration | shadow => simp [Shaped, fresh, fits, kind, category]

namespace Shaped

variable {n m : Node κ}

theorem setInput {input : Input κ} (h : n.Shaped) (new : input.Every fun m => m.fits = true)
    (slot : Nat) : (n.setInput slot input).Shaped := by
  have fits := (every_iff.1 h).1
  rw [← fits_setInput slot input n] at fits
  have each {inputs : List (Input κ)} (old : ∀ i ∈ inputs, i.Every fun m => m.fits = true) :
      ∀ i ∈ inputs.set slot input, i.Every fun m => m.fits = true := by
    intro i mem
    rcases List.mem_or_eq_of_mem_set mem with mem | rfl
    · exact old i mem
    · exact new
  cases n with
  | block k inputs => exact every_block.2 ⟨fits, each (every_block.1 h).2⟩
  | control k inputs bodies =>
      obtain ⟨-, slots, lists⟩ := every_control.1 h
      exact every_control.2 ⟨fits, each slots, lists⟩
  | reference | declaration | shadow => exact h

theorem setBody {body : List (Node κ)} (h : n.Shaped) (new : ∀ m ∈ body, m.Shaped) (i : Nat) :
    (n.setBody i body).Shaped := by
  have fits := (every_iff.1 h).1
  rw [← fits_setBody i body n] at fits
  cases n with
  | control k inputs bodies =>
      obtain ⟨-, slots, lists⟩ := every_control.1 h
      refine every_control.2 ⟨fits, slots, fun list mem => ?_⟩
      rcases List.mem_or_eq_of_mem_set mem with mem | rfl
      · exact lists list mem
      · exact new
  | block | reference | declaration | shadow => exact h

theorem setChild (h : n.Shaped) (new : m.Shaped) (step : Step) : (n.setChild m step).Shaped := by
  cases step with
  | slot slot => exact h.setInput (Input.every_node.2 new) slot
  | body i position =>
      apply h.setBody
      intro child mem
      rcases List.mem_or_eq_of_mem_set mem with mem | rfl
      · rw [List.getD_eq_getElem?_getD] at mem
        cases found : n.bodies[i]? with
        | none => simp [found] at mem
        | some body => exact h.body (List.mem_of_getElem? found) (by simpa [found] using mem)
      · exact new

theorem rename? {name : String} (h : n.Shaped) (renamed : n.rename? name = some m) : m.Shaped := by
  cases n with
  | reference k old =>
      obtain rfl := Option.some.inj renamed
      exact shaped_reference_iff.2 (shaped_reference_iff.1 h)
  | block | control | declaration | shadow => cases renamed

theorem replaceInput? {slot : Nat} {input old : Input κ} (h : n.Shaped)
    (new : input.Every fun m => m.fits = true)
    (replaced : n.replaceInput? slot input = some (old, m)) : m.Shaped := by
  rw [Node.replaceInput?, focusInput?_eq] at replaced
  obtain ⟨_, focused, eq⟩ := Option.bind_eq_some_iff.1 replaced
  obtain ⟨_, -, rfl⟩ := Option.map_eq_some_iff.1 focused
  obtain ⟨-, rfl⟩ := Prod.mk.inj (Option.some.inj eq)
  exact h.setInput new slot

theorem editBody? {i : Nat} {f : List (Node κ) → Option (β × List (Node κ))} {result : β}
    (h : n.Shaped)
    (keeps : ∀ {list result list'}, (∀ m ∈ list, m.Shaped) → f list = some (result, list') →
      ∀ m ∈ list', m.Shaped)
    (edited : n.editBody? i f = some (result, m)) : m.Shaped := by
  rw [Node.editBody?, focusBody?_eq] at edited
  obtain ⟨_, focused, inside⟩ := Option.bind_eq_some_iff.1 edited
  obtain ⟨body, here, rfl⟩ := Option.map_eq_some_iff.1 focused
  obtain ⟨⟨_, list⟩, changed, eq⟩ := Option.bind_eq_some_iff.1 inside
  obtain ⟨-, rfl⟩ := Prod.mk.inj (Option.some.inj eq)
  apply h.setBody
  exact keeps (fun m mem => h.body (List.mem_of_getElem? here) mem) changed

theorem edit? {f : Node κ → Option (β × Node κ)} {steps : List Step} {result : β}
    (keeps : ∀ {n result m}, n.Shaped → f n = some (result, m) → m.Shaped) (h : n.Shaped)
    (edited : n.edit? f steps = some (result, m)) : m.Shaped := by
  induction steps generalizing n m with
  | nil => exact keeps h edited
  | cons step rest ih =>
      rw [Node.edit?, focusChild?_eq] at edited
      obtain ⟨_, focused, inside⟩ := Option.bind_eq_some_iff.1 edited
      obtain ⟨child, here, rfl⟩ := Option.map_eq_some_iff.1 focused
      obtain ⟨⟨_, child'⟩, changed, eq⟩ := Option.bind_eq_some_iff.1 inside
      obtain ⟨rfl, rfl⟩ := Prod.mk.inj (Option.some.inj eq)
      exact h.setChild (ih (h.child? here) changed) step

end Shaped

variable {roots : List (Node κ)}

theorem shaped_edit? {path : NodePath} {f : Node κ → Option (β × Node κ)} {result : β}
    {roots' : List (Node κ)} (each : ∀ n ∈ roots, n.Shaped)
    (keeps : ∀ {n result m}, n.Shaped → f n = some (result, m) → m.Shaped)
    (edited : path.edit? f roots = some (result, roots')) : ∀ n ∈ roots', n.Shaped := by
  obtain ⟨root, here, inside⟩ := Option.bind_eq_some_iff.1 edited
  obtain ⟨⟨_, root'⟩, changed, eq⟩ := Option.bind_eq_some_iff.1 inside
  obtain ⟨-, rfl⟩ := Prod.mk.inj (Option.some.inj eq)
  intro n mem
  rcases List.mem_or_eq_of_mem_set mem with mem | rfl
  · exact each n mem
  · exact (each root (List.mem_of_getElem? here)).edit? keeps changed

theorem shaped_editList? {f : Nat → List (Node κ) → Option (β × List (Node κ))}
    {address : Address} {result : β} {roots' : List (Node κ)} (each : ∀ n ∈ roots, n.Shaped)
    (keeps : ∀ {position list result list'}, (∀ m ∈ list, m.Shaped) →
      f position list = some (result, list') → ∀ m ∈ list', m.Shaped)
    (edited : address.editList? f roots = some (result, roots')) : ∀ n ∈ roots', n.Shaped := by
  cases address with
  | slot path slot => cases edited
  | root position => exact keeps each edited
  | body path i position =>
      exact shaped_edit? each (fun shaped changed => shaped.editBody? keeps changed) edited

theorem shaped_settle {edit : Option (β × List (Node κ))} (each : ∀ n ∈ roots, n.Shaped)
    (keeps : ∀ {result roots'}, edit = some (result, roots') → ∀ n ∈ roots', n.Shaped) :
    ∀ n ∈ (Address.settle roots edit).2, n.Shaped := by
  cases edit with
  | none => exact each
  | some result => exact keeps rfl

theorem shaped_write {input : Input κ} (each : ∀ n ∈ roots, n.Shaped)
    (new : input.Every fun m => m.fits = true) (address : Address) :
    ∀ n ∈ (address.write roots input).2, n.Shaped := by
  cases address with
  | slot path slot =>
      apply shaped_settle each
      exact shaped_edit? each fun shaped replaced => shaped.replaceInput? new replaced
  | root | body => exact each

theorem shaped_splice? {position : Nat} {nodes list list' : List (Node κ)} {result : Unit}
    (new : ∀ m ∈ nodes, m.Shaped) (each : ∀ m ∈ list, m.Shaped)
    (spliced : splice? position nodes list = some (result, list')) : ∀ m ∈ list', m.Shaped := by
  unfold splice? at spliced
  split at spliced
  · obtain ⟨-, rfl⟩ := Prod.mk.inj (Option.some.inj spliced)
    intro m mem
    simp only [List.mem_append] at mem
    rcases mem with (mem | mem) | mem
    · exact each m (List.mem_of_mem_take mem)
    · exact new m mem
    · exact each m (List.mem_of_mem_drop mem)
  · cases spliced

theorem shaped_insert {nodes : List (Node κ)} (each : ∀ n ∈ roots, n.Shaped)
    (new : ∀ n ∈ nodes, n.Shaped) (address : Address) :
    ∀ n ∈ (address.insert roots nodes).2, n.Shaped := by
  apply shaped_settle each
  exact shaped_editList? each fun each spliced => shaped_splice? new each spliced

theorem shaped_extract? {position : Nat} {list list' : List (Node κ)} {n : Node κ}
    (each : ∀ m ∈ list, m.Shaped) (taken : extract? position list = some (n, list')) :
    ∀ m ∈ list', m.Shaped := by
  obtain ⟨_, -, eq⟩ := Option.bind_eq_some_iff.1 taken
  obtain ⟨-, rfl⟩ := Prod.mk.inj (Option.some.inj eq)
  exact fun m mem => each m (List.mem_of_mem_eraseIdx mem)

theorem shaped_delete (each : ∀ n ∈ roots, n.Shaped) (address : Address) :
    ∀ n ∈ (address.delete roots).2, n.Shaped := by
  apply shaped_settle each
  exact shaped_editList? each fun each taken => shaped_extract? each taken

theorem shaped_preview {k : κ} {of : Node κ} {covered : Option (Input κ)}
    (category : (describe k).category = .shadow) (original : of.Shaped)
    (under : ∀ m, covered = some (.node m) → m.Shaped) : (preview k of covered).Shaped := by
  refine every_shadow.2 ⟨by simp [fits, kind, category], ?_, ?_⟩
  · intro copy shown
    cases of with
    | block | control =>
        obtain rfl := Option.some.inj shown
        exact shaped_fresh _
    | reference =>
        obtain rfl := Option.some.inj shown
        exact original
    | declaration | shadow => cases shown
  · intro input here
    cases input with
    | literal value => trivial
    | node m => exact under m here

theorem shaped_ofDocument {registry : Registry κ} {document : Json} {nodes : List (Node κ)}
    (read : Document.ofDocument registry document = .ok nodes) : ∀ n ∈ nodes, n.Shaped := by
  have items : ∀ item ∈ Document.elements document,
      Document.JudgesNode registry (fun _ => True) item := by
    intro item _
    exact (Document.judges_readNode registry item).widen fun _ _ => trivial
  have loaded := (Document.judges_readList items).sound nodes read
  intro n mem
  exact (loaded n mem).sub fun m every => (every_iff.1 every).1.fits

/-! ## Obtained nodes -/

/-- Nodes that can be come by.  Whatever has been obtained may be taken apart again (`part`), so an
edit may also use what another edit has taken out. -/
inductive Obtained (registry : Registry κ) : Node κ → Prop where
  | fresh (k : κ) : Obtained registry (fresh k)
  | reference {k : κ} (name : String) (category : (describe k).category = .reference) :
      Obtained registry (reference k name)
  | preview {k : κ} {of : Node κ} {covered : Option (Input κ)}
      (category : (describe k).category = .shadow) (original : Obtained registry of)
      (under : ∀ m, covered = some (.node m) → Obtained registry m) :
      Obtained registry (preview k of covered)
  | assembled {parts n : Node κ} (each : ∀ m ∈ parts.children, Obtained registry m)
      (fits : parts.checked? = some n) : Obtained registry n
  | loaded {document : Json} {nodes : List (Node κ)} {n : Node κ}
      (read : Document.ofDocument registry document = .ok nodes) (member : n ∈ nodes) :
      Obtained registry n
  | part {n m : Node κ} (whole : Obtained registry n) (member : m ∈ n.children) :
      Obtained registry m
  | replaced {n m : Node κ} {slot : Nat} {input old : Input κ} (whole : Obtained registry n)
      (new : ∀ m, input = .node m → Obtained registry m)
      (done : n.replaceInput? slot input = some (old, m)) : Obtained registry m
  | renamed {n m : Node κ} {name : String} (whole : Obtained registry n)
      (done : n.rename? name = some m) : Obtained registry m
  | renamedAt {roots roots' : List (Node κ)} {path : NodePath} {name : String} {n : Node κ}
      (each : ∀ m ∈ roots, Obtained registry m)
      (done : path.edit? (fun m => (m.rename? name).map ((), ·)) roots = some ((), roots'))
      (member : n ∈ roots') : Obtained registry n
  | written {roots : List (Node κ)} {input : Input κ} {address : Address} {n : Node κ}
      (each : ∀ m ∈ roots, Obtained registry m)
      (new : ∀ m, input = .node m → Obtained registry m)
      (member : n ∈ (address.write roots input).2) : Obtained registry n
  | inserted {roots nodes : List (Node κ)} {address : Address} {n : Node κ}
      (each : ∀ m ∈ roots, Obtained registry m) (new : ∀ m ∈ nodes, Obtained registry m)
      (member : n ∈ (address.insert roots nodes).2) : Obtained registry n
  | deleted {roots : List (Node κ)} {address : Address} {n : Node κ}
      (each : ∀ m ∈ roots, Obtained registry m) (member : n ∈ (address.delete roots).2) :
      Obtained registry n

variable {registry : Registry κ} {n : Node κ}

theorem shaped_input {input : Input κ} (new : ∀ m, input = .node m → m.Shaped) :
    input.Every fun m => m.fits = true := by
  cases input with
  | literal value => trivial
  | node m => exact new m rfl

theorem Obtained.shaped (obtained : Obtained registry n) : n.Shaped := by
  induction obtained with
  | fresh k => exact shaped_fresh k
  | reference name category => exact shaped_reference_iff.2 category
  | preview category _ _ original under => exact shaped_preview category original under
  | assembled _ fits each =>
      obtain ⟨here, rfl⟩ := checked?_eq_some.1 fits
      exact .intro here each
  | loaded read member => exact shaped_ofDocument read _ member
  | part _ member whole => exact (every_iff.1 whole).2 _ member
  | replaced _ _ done whole new => exact whole.replaceInput? (shaped_input new) done
  | renamed _ done whole => exact whole.rename? done
  | renamedAt _ done member each =>
      refine shaped_edit? each (fun shaped renamed => ?_) done _ member
      obtain ⟨_, done, eq⟩ := Option.map_eq_some_iff.1 renamed
      obtain ⟨-, rfl⟩ := Prod.mk.inj eq
      exact shaped.rename? done
  | written _ _ member each new => exact shaped_write each (shaped_input new) _ _ member
  | inserted _ _ member each new => exact shaped_insert each new _ _ member
  | deleted _ member each => exact shaped_delete each _ _ member

theorem obtained_of_shaped (shaped : n.Shaped) : Obtained registry n := by
  induction shaped with
  | intro here _ ih => exact .assembled ih (checked?_eq_some.2 ⟨here, rfl⟩)

/-- Whatever is done to nodes, and at whatever addresses, the lists of nodes that can be come by are
the well-formed ones. -/
theorem obtained_iff_wellFormed (registry : Registry κ) (nodes : List (Node κ)) :
    (∀ n ∈ nodes, Obtained registry n) ↔ listWellFormed nodes = true := by
  rw [listWellFormed_iff_every]
  constructor
  · intro obtained n mem
    exact (obtained n mem).shaped
  · intro shaped n mem
    exact obtained_of_shaped (shaped n mem)

end

end Node

end BlockScript
