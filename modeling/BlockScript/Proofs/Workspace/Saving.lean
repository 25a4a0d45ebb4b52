import BlockScript.Proofs.Json.Nesting
import BlockScript.Workspace
import Mathlib.Data.List.Forall2

/-!
# Workspaces in text

A workspace that has been read is `Stored`: its programs nest no deeper than reading allows, and no
account field has the name of another field.  With the variables of a store it is read back from its
text unless one of them nests too deep (`parse_capture`), and then they are defined again unless one
of them holds a real that is not finite (`seed_capture`, `seed_capture_of_not_finite`).
-/

namespace BlockScript

def Json.ExactReals (j : Json) : Prop :=
  ∀ x finite, j.Holds (.real x finite) → (Json.Number.real x finite).Exact

theorem Json.ExactReals.exact {j : Json} (h : j.ExactReals) (n : Json.Number) (holds : j.Holds n) :
    n.Exact := by
  cases n with
  | natural n => exact exact_natural n
  | negative n below => exact exact_negative n below
  | real x finite => exact h x finite holds

namespace Table

variable {α : Type}

theorem ofList_entries (t : Table α) : ofList t.entries = t := by
  refine ext_get? fun name => ?_
  exact congrArg (findEntry name) (sortEntries_of_ascending t.ascending)

theorem entries_setAll (t : Table α) (entries : List (String × α)) :
    (t.setAll entries).entries =
      entries.foldl (fun sorted e => setEntry e.1 e.2 sorted) t.entries := by
  induction entries generalizing t with
  | nil => rfl
  | cons entry rest ih => exact ih (t.set entry.1 entry.2)

theorem setAll_entries (t : Table α) : empty.setAll t.entries = t := by
  refine ext_get? fun name => ?_
  rw [get?, entries_setAll]
  exact congrArg (findEntry name) (sortEntries_of_ascending t.ascending)

end Table

namespace Workspace

structure Stored (w : Workspace) : Prop where
  names : ∀ entry ∈ w.credentials.entries, entry.1 ≠ programsField ∧ entry.1 ≠ variablesField
  credentials : ∀ entry ∈ w.credentials.entries, entry.2.Orderly (Json.depthLimit - 1)
  programs : ∀ document ∈ w.programs, document.Orderly (Json.depthLimit - 2)

theorem stored_initial : initial.Stored where
  names := List.forall_mem_nil _
  credentials := List.forall_mem_nil _
  programs := List.forall_mem_singleton.2 (.array (List.forall_mem_nil _))

theorem mem_of_single {name : String} {fields : List (String × Json)} {value : Json}
    (found : single name fields = .ok (some value)) : (name, value) ∈ fields := by
  unfold single at found
  split at found
  · cases found
  · next key held listed =>
    obtain rfl := Option.some.inj (Except.ok.inj found)
    have member : (key, held) ∈ fields.filter (·.1 = name) := by simp [listed]
    obtain ⟨mem, named⟩ := List.mem_filter.1 member
    obtain rfl : key = name := by simpa using named
    exact mem
  · cases found

def others (fields : List (String × Json)) : List (String × Json) :=
  fields.filter fun (name, _) => name ≠ programsField ∧ name ≠ variablesField

theorem ofFields_eq_ok {fields : List (String × Json)} {w : Workspace} :
    ofFields fields = .ok w ↔ ∃ programs bindings,
      (single programsField fields = .ok none ∧ programs = [] ∨
        single programsField fields = .ok (some (.array programs))) ∧
      (single variablesField fields = .ok none ∧ bindings = [] ∨
        single variablesField fields = .ok (some (.object bindings))) ∧
      w = ⟨.ofList (others fields), programs, .ofList bindings⟩ := by
  unfold ofFields
  rcases single programsField fields with _ | _ | j
  · simp [bind, Except.bind]
  · rcases single variablesField fields with _ | _ | j
    · simp [bind, Except.bind]
    · simp [bind, Except.bind, pure, Except.pure, others, eq_comm]
    · cases j <;> simp [bind, Except.bind, pure, Except.pure, others, eq_comm]
  · rcases single variablesField fields with _ | _ | j'
    · cases j <;> simp [bind, Except.bind]
    · cases j <;> simp [bind, Except.bind, pure, Except.pure, others, eq_comm]
    · cases j <;> cases j' <;> simp [bind, Except.bind, pure, Except.pure, others, eq_comm]

theorem stored_of_ofFields {fields : List (String × Json)} {w : Workspace}
    (orderly : ∀ field ∈ fields, field.2.Orderly (Json.depthLimit - 1))
    (read : ofFields fields = .ok w) : w.Stored := by
  have kept (entry : String × Json) (mem : entry ∈ sortEntries (others fields)) :
      entry ∈ fields ∧ entry.1 ≠ programsField ∧ entry.1 ≠ variablesField := by
    simpa [others] using mem_of_mem_sortEntries mem
  obtain ⟨programs, bindings, listed, -, rfl⟩ := ofFields_eq_ok.1 read
  have inPrograms : ∀ document ∈ programs, document.Orderly (Json.depthLimit - 2) := by
    rcases listed with ⟨-, rfl⟩ | found
    · exact List.forall_mem_nil _
    · cases orderly _ (mem_of_single found) with
      | array each => exact each
  exact {
    names := fun entry mem => (kept entry mem).2
    credentials := fun entry mem => orderly entry (kept entry mem).1
    programs := inPrograms }

theorem stored_of_parse {text : String} {w : Workspace} (read : parse text = .ok w) : w.Stored := by
  unfold parse at read
  split at read
  · next fields here => exact stored_of_ofFields (Json.orderly_of_parseFields? here) read
  · cases read

theorem single_append {name : String} {before after : List (String × Json)} {value : Json}
    (first : ∀ entry ∈ before, entry.1 ≠ name) (second : ∀ entry ∈ after, entry.1 ≠ name) :
    single name (before ++ (name, value) :: after) = .ok (some value) := by
  have none {entries : List (String × Json)} (other : ∀ entry ∈ entries, entry.1 ≠ name) :
      entries.filter (·.1 = name) = [] := by
    simpa using other
  simp [single, none first, none second]

def fields (w : Workspace) : List (String × Json) :=
  w.credentials.entries ++
    [(programsField, .array w.programs), (variablesField, .object w.bindings.entries)]

theorem ofFields_fields {w : Workspace} (stored : w.Stored) : ofFields w.fields = .ok w := by
  have different : variablesField ≠ programsField := by decide
  have programs : single programsField w.fields = .ok (some (.array w.programs)) :=
    single_append (fun entry mem => (stored.names entry mem).1)
      (List.forall_mem_singleton.2 different)
  have bindings : single variablesField w.fields = .ok (some (.object w.bindings.entries)) := by
    rw [fields, List.append_cons]
    refine single_append (List.forall_mem_append.2 ⟨?_, ?_⟩) nofun
    · exact fun entry mem => (stored.names entry mem).2
    · exact List.forall_mem_singleton.2 different.symm
  have kept : others w.fields = w.credentials.entries := by
    have names : ∀ entry ∈ w.credentials.entries,
        entry.1 ≠ programsField ∧ entry.1 ≠ variablesField := stored.names
    simpa [others, fields] using names
  refine ofFields_eq_ok.2 ⟨_, _, .inr programs, .inr bindings, ?_⟩
  rw [kept, Table.ofList_entries, Table.ofList_entries]

theorem orderly_fields {w : Workspace} {depth : Nat} (stored : w.Stored)
    (bindings : ∀ entry ∈ w.bindings.entries, entry.2.Orderly depth)
    (enough : Json.depthLimit - 2 ≤ depth) : ∀ field ∈ w.fields, field.2.Orderly (depth + 1) := by
  intro field mem
  rcases List.mem_append.1 mem with mem | mem
  · exact (stored.credentials field mem).mono (Nat.succ_le_succ enough)
  · simp only [List.mem_cons, List.not_mem_nil, or_false] at mem
    rcases mem with rfl | rfl
    · exact .array fun document mem => (stored.programs document mem).mono enough
    · exact .object w.bindings.ascending bindings

theorem parse_toText {w : Workspace} (stored : w.Stored)
    (bindings : ∀ entry ∈ w.bindings.entries, entry.2.Orderly (Json.depthLimit - 2))
    (exact : w.toJson.ExactReals) : parse w.toText = .ok w := by
  have read : Json.parseFields? w.toText = some w.fields :=
    Json.parseFields?_pretty (orderly_fields stored bindings (Nat.le_refl _)) exact.exact
  rw [parse, read]
  exact ofFields_fields stored

theorem parse_toText_of_deep {w : Workspace} {depth : Nat} (stored : w.Stored)
    (bindings : ∀ entry ∈ w.bindings.entries, entry.2.Orderly depth)
    (deep : ¬ ∀ entry ∈ w.bindings.entries, entry.2.Orderly (Json.depthLimit - 2))
    (exact : w.toJson.ExactReals) : parse w.toText = .error .invalid := by
  have listed : (variablesField, .object w.bindings.entries) ∈ w.fields := by simp [fields]
  unfold parse
  split
  · next read here =>
    have orderly := orderly_fields stored
      (fun entry mem => (bindings entry mem).mono (Nat.le_max_left depth (Json.depthLimit - 2)))
      (Nat.le_max_right _ _)
    obtain rfl := Json.eq_of_parseFields?_pretty orderly exact.exact here
    -- what has been read are the fields themselves, but they nest deeper than anything that is read
    cases Json.orderly_of_parseFields? here _ listed with
    | object _ each => exact absurd each deep
  · rfl

theorem orderly_capture (w : Workspace) (store : Store) (depth : Nat) :
    (∀ entry ∈ (w.capture store).bindings.entries, entry.2.Orderly depth) ↔
      ∀ entry ∈ store.entries, entry.2.nesting ≤ depth :=
  List.forall_mem_map.trans (forall₂_congr fun entry _ => Value.orderly_toJson entry.2 depth)

theorem parse_capture {w : Workspace} {store : Store} (stored : w.Stored)
    (exact : (w.capture store).toJson.ExactReals) :
    parse (w.capture store).toText =
      if ∀ entry ∈ store.entries, entry.2.nesting ≤ Json.depthLimit - 2 then
        .ok (w.capture store)
      else .error .invalid := by
  have kept : (w.capture store).Stored := { stored with }
  split
  · next shallow => exact parse_toText kept ((orderly_capture w store _).2 shallow) exact
  · next deep =>
    have bounded : ∀ entry ∈ store.entries,
        entry.2.nesting ≤ Value.nestingItems (store.entries.map Prod.snd) := fun entry mem =>
      Value.nestingItems_le.1 (Nat.le_refl _) entry.2 (List.mem_map_of_mem mem)
    exact parse_toText_of_deep kept ((orderly_capture w store _).2 bounded)
      (mt (orderly_capture w store _).1 deep) exact

/-! ## Variables -/

def Decodes (entry : String × Json) (binding : String × Value) : Prop :=
  binding.1 = entry.1 ∧ Value.ofJson entry.2 = .ok binding.2

theorem seedEntries_append {before : List (String × Json)} {values : List (String × Value)}
    (decodes : List.Forall₂ Decodes before values) (store : Store) (rest : List (String × Json)) :
    seedEntries store (before ++ rest) = seedEntries (store.setAll values) rest := by
  induction decodes generalizing store with
  | nil => rfl
  | @cons entry binding _ _ first _ ih =>
      obtain ⟨sameName, isRead⟩ := first
      have step : ∀ more, seedEntries store (entry :: more) =
          seedEntries (store.set binding.1 binding.2) more := by
        intro more
        rw [seedEntries, isRead, sameName]
      rw [List.cons_append, step]
      exact ih _

theorem seedEntries_of_decodes {entries : List (String × Json)} {values : List (String × Value)}
    (decodes : List.Forall₂ Decodes entries values) (store : Store) :
    seedEntries store entries = (none, store.setAll values) := by
  have all := seedEntries_append decodes store []
  rwa [List.append_nil] at all

theorem seedEntries_of_finite (store : Store) {entries : List (String × Value)}
    (finite : ∀ entry ∈ entries, entry.2.finite = true) :
    seedEntries store (entries.map fun entry => (entry.1, entry.2.toJson)) =
      (none, store.setAll entries) := by
  refine seedEntries_of_decodes (List.forall₂_map_left_iff.2 ?_) store
  refine List.forall₂_same.2 fun entry member => ⟨rfl, ?_⟩
  rw [Value.ofJson_toJson, if_pos (finite entry member)]

theorem seedEntries_of_not_finite (store : Store) {entries : List (String × Value)}
    (infinite : ¬ ∀ entry ∈ entries, entry.2.finite = true) :
    (seedEntries store (entries.map fun entry => (entry.1, entry.2.toJson))).1 =
      some (.program (.malformed (.literal (.invalidLiteral "null")))) := by
  induction entries generalizing store with
  | nil => exact absurd nofun infinite
  | cons entry rest ih =>
      simp only [List.map_cons, seedEntries, Value.ofJson_toJson]
      cases here : entry.2.finite with
      | false => rfl
      | true =>
          have later : ¬ ∀ entry ∈ rest, entry.2.finite = true := fun all =>
            infinite (List.forall_mem_cons.2 ⟨here, all⟩)
          exact ih (store.set entry.1 entry.2) later

theorem seed_capture (w : Workspace) {store : Store}
    (finite : ∀ entry ∈ store.entries, entry.2.finite = true) :
    (w.capture store).seed .empty = (none, store) := by
  have seeds := seedEntries_of_finite .empty finite
  rwa [Table.setAll_entries] at seeds

/-- A null stands for a real that is not finite, and a null is no literal. -/
theorem seed_capture_of_not_finite (w : Workspace) {store : Store}
    (infinite : ¬ ∀ entry ∈ store.entries, entry.2.finite = true) :
    ∃ seeded, (w.capture store).seed .empty =
      (some (.program (.malformed (.literal (.invalidLiteral "null")))), seeded) :=
  ⟨_, Prod.ext (seedEntries_of_not_finite .empty infinite) rfl⟩

end Workspace

end BlockScript
