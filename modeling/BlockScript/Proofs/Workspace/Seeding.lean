import BlockScript.Proofs.Text.Bytes
import BlockScript.Proofs.Value.Codec
import BlockScript.Proofs.Workspace.Saving

/-!
# Variables out of a workspace and into it

Seeding defines the variables of a workspace in the order of their names and stops at the first
whose literal cannot be read; what it has defined by then stays (`seed_seeds`).  A store that has
been captured is seeded again as it was, unless an infinity or a not-a-number occurs in it
(`variables_exchanged`).
-/

namespace BlockScript

namespace Table

variable {α : Type}

theorem findEntry_append (name : String) (first second : List (String × α)) :
    findEntry name (first ++ second) = (findEntry name first).or (findEntry name second) := by
  induction first with
  | nil => rfl
  | cons entry rest ih =>
      rw [List.cons_append, findEntry, findEntry]
      split
      · rfl
      · exact ih

theorem mem_of_findEntry {name : String} {value : α} {entries : List (String × α)}
    (found : findEntry name entries = some value) : (name, value) ∈ entries := by
  induction entries with
  | nil => cases found
  | cons entry rest ih =>
      rw [findEntry] at found
      split at found
      next same =>
        obtain rfl := Option.some.inj found
        rw [same]
        exact List.mem_cons_self
      next => exact List.mem_cons_of_mem _ (ih found)

theorem findEntry_of_mem {name : String} {value : α} {entries : List (String × α)}
    (ascending : Ascending entries) (member : (name, value) ∈ entries) :
    findEntry name entries = some value := by
  induction entries with
  | nil => cases member
  | cons entry rest ih =>
      obtain ⟨below, later⟩ := List.pairwise_cons.1 ascending
      rcases List.mem_cons.1 member with rfl | member
      · exact if_pos rfl
      · have above : entry.1 < name := below _ member
        have other : name ≠ entry.1 := by
          rintro rfl
          exact String.lt_irrefl _ above
        rw [findEntry, if_neg other]
        exact ih later member

theorem get?_eq_some_iff {t : Table α} {name : String} {value : α} :
    t.get? name = some value ↔ (name, value) ∈ t.entries :=
  ⟨mem_of_findEntry, findEntry_of_mem t.ascending⟩

theorem get?_setAll (t : Table α) {entries : List (String × α)} (ascending : Ascending entries)
    (name : String) : (t.setAll entries).get? name = (findEntry name entries).or (t.get? name) := by
  induction entries generalizing t with
  | nil => rfl
  | cons entry rest ih =>
      obtain ⟨below, later⟩ := List.pairwise_cons.1 ascending
      have sets : t.setAll (entry :: rest) = (t.set entry.1 entry.2).setAll rest := rfl
      rw [sets, ih _ later, get?_set, findEntry]
      by_cases same : name = entry.1
      · rw [if_pos same, if_pos same, same, findEntry_eq_none_of_lt below]
        rfl
      · rw [if_neg same, if_neg same]

end Table

namespace Workspace

/-! ## Up to the first literal that cannot be read -/

variable {before rest : List (String × Json)} {values : List (String × Value)}

theorem ascending_of_decodes (decodes : List.Forall₂ Decodes before values)
    (ascending : Ascending before) : Ascending values := by
  have names : values.map (·.1) = before.map (·.1) := by
    induction decodes with
    | nil => rfl
    | cons first _ ih =>
        rw [List.map_cons, List.map_cons, first.1, ih (List.pairwise_cons.1 ascending).2]
  have sorted : (before.map (·.1)).Pairwise (· < ·) := List.pairwise_map.2 ascending
  exact List.pairwise_map.1 (names ▸ sorted)

theorem findEntry_of_decodes (decodes : List.Forall₂ Decodes before values) (name : String) :
    (findEntry name before = none → findEntry name values = none) ∧
    ∀ literal, findEntry name before = some literal →
      ∃ value, Value.ofJson literal = .ok value ∧ findEntry name values = some value := by
  induction decodes with
  | nil => exact ⟨fun _ => rfl, nofun⟩
  | @cons entry binding _ _ first _ ih =>
      obtain ⟨sameName, isRead⟩ := first
      simp only [findEntry, sameName]
      split
      · refine ⟨nofun, fun literal found => ?_⟩
        obtain rfl := Option.some.inj found
        exact ⟨binding.2, isRead, rfl⟩
      · exact ih

theorem exists_decoded (entries : List (String × Json)) :
    ∃ before rest values, entries = before ++ rest ∧ List.Forall₂ Decodes before values ∧
      (rest = [] ∨ ∃ name literal cause after, rest = (name, literal) :: after ∧
        Value.ofJson literal = .error cause) := by
  induction entries with
  | nil => exact ⟨[], [], [], rfl, .nil, .inl rfl⟩
  | cons entry entries ih =>
      cases isRead : Value.ofJson entry.2 with
      | error cause =>
          exact ⟨[], entry :: entries, [], rfl, .nil, .inr ⟨_, _, cause, _, rfl, isRead⟩⟩
      | ok value =>
          obtain ⟨before, rest, values, rfl, decodes, ends⟩ := ih
          exact ⟨entry :: before, rest, (entry.1, value) :: values, rfl,
            .cons ⟨rfl, isRead⟩ decodes, ends⟩

/-! ## Seeding -/

/-- The variables of a workspace with certain names have the values of their literals in a store,
and all other variables are as they were in another store. -/
structure Defines (w : Workspace) (named : String → Prop) (store seeded : Store) : Prop where
  defined : ∀ name literal, w.bindings.get? name = some literal → named name →
    ∃ value, Value.ofJson literal = .ok value ∧ seeded.get? name = some value
  kept : ∀ name, w.bindings.get? name = none ∨ ¬ named name →
    seeded.get? name = store.get? name

theorem defines_setAll {w : Workspace} {named : String → Prop}
    (listed : w.bindings.entries = before ++ rest) (decodes : List.Forall₂ Decodes before values)
    (first : ∀ entry ∈ before, named entry.1) (later : ∀ entry ∈ rest, ¬ named entry.1)
    (store : Store) : Defines w named store (store.setAll values) := by
  have ascending : Ascending before := by
    have all := w.bindings.ascending
    rw [listed] at all
    exact (List.pairwise_append.1 all).1
  have get (name : String) :
      w.bindings.get? name = (findEntry name before).or (findEntry name rest) := by
    rw [Table.get?, listed, Table.findEntry_append]
  have lookups := Table.get?_setAll store (ascending_of_decodes decodes ascending)
  exact {
    defined := by
      intro name literal found isNamed
      rw [get] at found
      cases here : findEntry name before with
      | none =>
          rw [here, Option.none_or] at found
          exact absurd isNamed (later _ (Table.mem_of_findEntry found))
      | some literal' =>
          rw [here, Option.some_or] at found
          obtain rfl := Option.some.inj found
          obtain ⟨value, isRead, isFound⟩ := (findEntry_of_decodes decodes name).2 _ here
          exact ⟨value, isRead, by rw [lookups, isFound, Option.some_or]⟩
    kept := by
      intro name other
      have absent : findEntry name before = none := by
        rcases other with unbound | unnamed
        · rw [get, Option.or_eq_none_iff] at unbound
          exact unbound.1
        · cases here : findEntry name before with
          | none => rfl
          | some literal => exact absurd (first _ (Table.mem_of_findEntry here)) unnamed
      rw [lookups, (findEntry_of_decodes decodes name).1 absent, Option.none_or] }

structure Seeds (w : Workspace) (store : Store) (result : Option WorkspaceError × Store) :
    Prop where
  succeeds_iff : result.1 = none ↔ ∀ name literal, w.bindings.get? name = some literal →
    ∃ value, Value.ofJson literal = .ok value
  succeeded : result.1 = none → Defines w (fun _ => True) store result.2
  /-- The variables in front of the first one that has no value are defined. -/
  failed : ∀ error, result.1 = some error → ∃ bad literal cause,
    w.bindings.get? bad = some literal ∧ Value.ofJson literal = .error cause ∧
    error = .program (.malformed (.literal cause)) ∧
    Defines w (fun name => Text.bytes name < Text.bytes bad) store result.2

theorem seeds_of_decoded {w : Workspace}
    (decodes : List.Forall₂ Decodes w.bindings.entries values) (store : Store) :
    Seeds w store (w.seed store) := by
  have seeds : w.seed store = (none, store.setAll values) := seedEntries_of_decodes decodes store
  have defines : Defines w (fun _ => True) store (store.setAll values) :=
    defines_setAll (List.append_nil _).symm decodes (fun _ _ => trivial) (List.forall_mem_nil _)
      store
  rw [seeds]
  exact {
    succeeds_iff := iff_of_true rfl fun name literal found =>
      (defines.defined name literal found trivial).imp fun _ isRead => isRead.1
    succeeded := fun _ => defines
    failed := by rintro _ ⟨⟩ }

theorem seeds_of_undecoded {w : Workspace} {bad : String} {literal : Json} {cause : ValueError}
    (listed : w.bindings.entries = before ++ (bad, literal) :: rest)
    (decodes : List.Forall₂ Decodes before values)
    (unread : Value.ofJson literal = .error cause) (store : Store) :
    Seeds w store (w.seed store) := by
  have seeds : w.seed store =
      (some (.program (.malformed (.literal cause))), store.setAll values) := by
    rw [seed, listed, seedEntries_append decodes, seedEntries, unread]
  have found : w.bindings.get? bad = some literal :=
    Table.get?_eq_some_iff.2 (listed ▸ List.mem_append_right _ List.mem_cons_self)
  have ascending := w.bindings.ascending
  rw [listed] at ascending
  obtain ⟨-, behind, across⟩ := List.pairwise_append.1 ascending
  have inFront : ∀ entry ∈ before, Text.bytes entry.1 < Text.bytes bad := fun entry member =>
    Text.bytes_lt_iff.2 (across entry member _ List.mem_cons_self)
  have notInFront : ∀ entry ∈ (bad, literal) :: rest,
      ¬ Text.bytes entry.1 < Text.bytes bad := by
    intro entry member less
    rw [Text.bytes_lt_iff] at less
    rcases List.mem_cons.1 member with rfl | member
    · exact String.lt_irrefl _ less
    · exact String.lt_irrefl _ (String.lt_trans less ((List.pairwise_cons.1 behind).1 _ member))
  have defines : Defines w (fun name => Text.bytes name < Text.bytes bad) store
      (store.setAll values) := defines_setAll listed decodes inFront notInFront store
  rw [seeds]
  exact {
    succeeds_iff := by
      refine iff_of_false (by rintro ⟨⟩) fun all => ?_
      obtain ⟨value, isRead⟩ := all bad literal found
      cases unread.symm.trans isRead
    succeeded := by rintro ⟨⟩
    failed := fun error eq => ⟨bad, literal, cause, found, unread, (Option.some.inj eq).symm,
      defines⟩ }

theorem seed_seeds (w : Workspace) (store : Store) : Seeds w store (w.seed store) := by
  obtain ⟨before, rest, values, listed, decodes, rfl | ⟨bad, literal, cause, after, rfl, unread⟩⟩ :=
    exists_decoded w.bindings.entries
  · rw [List.append_nil] at listed
    exact seeds_of_decoded (listed ▸ decodes) store
  · exact seeds_of_undecoded listed decodes unread store

/-! ## Capturing -/

theorem finite_entries_iff (store : Store) :
    (∀ entry ∈ store.entries, entry.2.finite = true) ↔
      ∀ name value, store.get? name = some value → ∀ x, (Value.real x).Within value →
        x.isNaN = false ∧ ∀ negative, x ≠ .infinity negative := by
  simp only [Table.get?_eq_some_iff, Value.finite_iff, Binary64.isFinite_iff]
  exact Prod.forall

/-- Seeding defines the variables of a workspace whose literals can be read, up to the first that
cannot, and capturing keeps all else.  Captured and seeded again, a store is as it was exactly if
no infinity and no not-a-number occurs in it. -/
theorem variables_exchanged (w : Workspace) (store : Store) :
    Seeds w store (w.seed store) ∧
    ((∃ seeded, (w.capture store).seed .empty = (none, seeded)) ↔
      ∀ name value, store.get? name = some value → ∀ x, (Value.real x).Within value →
        x.isNaN = false ∧ ∀ negative, x ≠ .infinity negative) ∧
    (∀ seeded, (w.capture store).seed .empty = (none, seeded) → seeded = store) ∧
    (w.capture store).credentials = w.credentials ∧ (w.capture store).programs = w.programs := by
  have seeds_iff : (∃ seeded, (w.capture store).seed .empty = (none, seeded)) ↔
      ∀ entry ∈ store.entries, entry.2.finite = true := by
    refine ⟨?_, fun finite => ⟨store, seed_capture w finite⟩⟩
    rintro ⟨seeded, seeds⟩
    by_contra infinite
    obtain ⟨seeded', fails⟩ := seed_capture_of_not_finite w infinite
    cases (Prod.mk.inj (seeds.symm.trans fails)).1
  refine ⟨seed_seeds w store, seeds_iff.trans (finite_entries_iff store), ?_, rfl, rfl⟩
  intro seeded seeds
  have back := seed_capture w (seeds_iff.1 ⟨seeded, seeds⟩)
  exact (Prod.mk.inj (seeds.symm.trans back)).2

/-- The second of three literals cannot be read: the first variable is defined, the others are as
they were.  A store of integers is captured and seeded again. -/
theorem variables_exchanged_null :
    let w : Workspace :=
      ⟨.empty, [], .ofList [("a", .bool true), ("b", .array [.null]), ("c", .bool true)]⟩
    let store : Store := .ofList [("b", .integer 1), ("c", .integer 2)]
    (w.seed store).1 = some (.program (.malformed (.literal (.invalidLiteral "null")))) ∧
      (w.seed store).2.get? "a" = some (.boolean true) ∧
      (w.seed store).2.get? "b" = some (.integer 1) ∧
      (w.seed store).2.get? "c" = some (.integer 2) ∧
      (w.capture store).seed .empty = (none, store) := by
  intro w store
  obtain ⟨seeds, captured, restores, -, -⟩ := variables_exchanged w store
  have fails : (w.seed store).1 =
      some (.program (.malformed (.literal (.invalidLiteral "null")))) := rfl
  obtain ⟨bad, literal, cause, found, unread, -, defines⟩ := seeds.failed _ fails
  have isBad : bad = "b" := by
    have listed : (bad, literal) ∈ [("a", Json.bool true), ("b", .array [.null]),
        ("c", .bool true)] := Table.get?_eq_some_iff.1 found
    simp only [List.mem_cons, Prod.mk.injEq, List.not_mem_nil, or_false] at listed
    rcases listed with ⟨-, rfl⟩ | ⟨same, -⟩ | ⟨-, rfl⟩
    · cases unread
    · exact same
    · cases unread
  subst isBad
  obtain ⟨value, isRead, isFound⟩ := defines.defined "a" (.bool true) rfl (by decide)
  obtain rfl := Except.ok.inj isRead
  obtain ⟨seeded, back⟩ := captured.2 <| by
    intro name value known x within
    have listed : (name, value) ∈ [("b", Value.integer 1), ("c", .integer 2)] :=
      Table.get?_eq_some_iff.1 known
    simp only [List.mem_cons, Prod.mk.injEq, List.not_mem_nil, or_false] at listed
    rcases listed with ⟨-, rfl⟩ | ⟨-, rfl⟩ <;> cases within
  refine ⟨fails, isFound, defines.kept "b" (.inr (by decide)), defines.kept "c" (.inr (by decide)),
    ?_⟩
  rw [back, restores seeded back]

end Workspace

end BlockScript
