/-!
Tables: values by name, in the order of the names.

A `Table` lists each name once, in ascending order, so two tables with the same values are equal
(`Table.ext_get?`).  `get?_set`, `get?_replace` and `get?_erase` say what the operations do, and
`names_replace` that overwriting keeps the names.
-/

namespace BlockScript

def Ascending {α : Type} (entries : List (String × α)) : Prop :=
  entries.Pairwise fun a b => a.1 < b.1

def findEntry {α : Type} (name : String) : List (String × α) → Option α
  | [] => none
  | entry :: rest => if name = entry.1 then some entry.2 else findEntry name rest

def setEntry {α : Type} (name : String) (value : α) : List (String × α) → List (String × α)
  | [] => [(name, value)]
  | entry :: rest =>
    if name = entry.1 then (name, value) :: rest
    else if name < entry.1 then (name, value) :: entry :: rest
    else entry :: setEntry name value rest

def sortEntries {α : Type} (entries : List (String × α)) : List (String × α) :=
  entries.foldl (fun sorted entry => setEntry entry.1 entry.2 sorted) []

section
variable {α : Type}

theorem mem_setEntry {name : String} {value : α} {entries : List (String × α)}
    {entry : String × α} (h : entry ∈ setEntry name value entries) :
    entry = (name, value) ∨ entry ∈ entries := by
  induction entries with
  | nil => simpa [setEntry] using h
  | cons first rest ih =>
    rw [setEntry] at h
    split at h
    · rcases List.mem_cons.1 h with h | h
      · exact .inl h
      · exact .inr (List.mem_cons_of_mem _ h)
    · split at h
      · exact (List.mem_cons.1 h)
      · rcases List.mem_cons.1 h with h | h
        · exact .inr (h ▸ List.mem_cons_self)
        · exact (ih h).imp_right (List.mem_cons_of_mem _)

theorem lt_of_not_lt_of_ne {a b : String} (ne : a ≠ b) (h : ¬ a < b) : b < a := by
  by_cases h' : b < a
  · exact h'
  · exact absurd (String.le_antisymm (String.not_lt.1 h') (String.not_lt.1 h)) ne

theorem Ascending.setEntry {name : String} {value : α} {entries : List (String × α)}
    (h : Ascending entries) : Ascending (setEntry name value entries) := by
  induction entries with
  | nil => simp [BlockScript.setEntry, Ascending]
  | cons first rest ih =>
    have ⟨below, tail⟩ := List.pairwise_cons.1 h
    rw [BlockScript.setEntry]
    split
    · next eq => exact List.pairwise_cons.2 ⟨fun e he => by simpa [eq] using below e he, tail⟩
    · next ne =>
      split
      · next lt =>
        refine List.pairwise_cons.2 ⟨fun e he => ?_, h⟩
        rcases List.mem_cons.1 he with he | he
        · simpa [he] using lt
        · exact String.lt_trans lt (below e he)
      · next ge =>
        refine List.pairwise_cons.2 ⟨fun e he => ?_, ih tail⟩
        rcases mem_setEntry he with he | he
        · simpa [he] using lt_of_not_lt_of_ne ne ge
        · exact below e he

theorem setEntry_of_forall_lt {name : String} {value : α} {entries : List (String × α)}
    (above : ∀ entry ∈ entries, entry.1 < name) :
    BlockScript.setEntry name value entries = entries ++ [(name, value)] := by
  induction entries with
  | nil => rfl
  | cons first rest ih =>
    have ⟨here, later⟩ := List.forall_mem_cons.1 above
    have ne : name ≠ first.1 := fun eq => String.lt_irrefl _ (eq ▸ here)
    have ge : ¬ name < first.1 := fun lt => String.lt_irrefl _ (String.lt_trans lt here)
    rw [BlockScript.setEntry, if_neg ne, if_neg ge, ih later, List.cons_append]

theorem Ascending.foldl_setEntry (entries : List (String × α)) {sorted : List (String × α)}
    (h : Ascending sorted) :
    Ascending (entries.foldl (fun sorted e => BlockScript.setEntry e.1 e.2 sorted) sorted) := by
  induction entries generalizing sorted with
  | nil => exact h
  | cons entry rest ih => exact ih h.setEntry

theorem ascending_sortEntries (entries : List (String × α)) : Ascending (sortEntries entries) :=
  Ascending.foldl_setEntry entries List.Pairwise.nil

theorem mem_foldl_setEntry {entries sorted : List (String × α)} {entry : String × α}
    (member : entry ∈ entries.foldl (fun sorted e => setEntry e.1 e.2 sorted) sorted) :
    entry ∈ sorted ∨ entry ∈ entries := by
  induction entries generalizing sorted with
  | nil => exact .inl member
  | cons first rest ih =>
    rcases ih member with member | member
    · rcases mem_setEntry member with rfl | member
      · exact .inr List.mem_cons_self
      · exact .inl member
    · exact .inr (List.mem_cons_of_mem _ member)

theorem mem_of_mem_sortEntries {entries : List (String × α)} {entry : String × α}
    (member : entry ∈ sortEntries entries) : entry ∈ entries :=
  (mem_foldl_setEntry member).resolve_left List.not_mem_nil

theorem foldl_setEntry_of_ascending {entries sorted : List (String × α)}
    (h : Ascending (sorted ++ entries)) :
    entries.foldl (fun sorted e => setEntry e.1 e.2 sorted) sorted = sorted ++ entries := by
  induction entries generalizing sorted with
  | nil => simp
  | cons first rest ih =>
    have above : ∀ e ∈ sorted, e.1 < first.1 := fun e mem =>
      (List.pairwise_append.1 h).2.2 e mem first List.mem_cons_self
    have next : Ascending ((sorted ++ [first]) ++ rest) := by simpa using h
    rw [List.foldl_cons, setEntry_of_forall_lt above, ih next, List.append_assoc]
    rfl

theorem sortEntries_of_ascending {entries : List (String × α)} (h : Ascending entries) :
    sortEntries entries = entries :=
  foldl_setEntry_of_ascending h

end

structure Table (α : Type) where
  entries : List (String × α)
  ascending : Ascending entries

namespace Table

variable {α β : Type}

def empty : Table α := ⟨[], List.Pairwise.nil⟩

instance : Inhabited (Table α) := ⟨empty⟩

def get? (t : Table α) (name : String) : Option α := findEntry name t.entries

def contains (t : Table α) (name : String) : Bool := (t.get? name).isSome

def names (t : Table α) : List String := t.entries.map (·.1)

def size (t : Table α) : Nat := t.entries.length

def isEmpty (t : Table α) : Bool := t.entries.isEmpty

def set (t : Table α) (name : String) (value : α) : Table α :=
  ⟨setEntry name value t.entries, t.ascending.setEntry⟩

def replace (t : Table α) (name : String) (value : α) : Table α :=
  if t.contains name then t.set name value else t

def erase (t : Table α) (name : String) : Table α :=
  ⟨t.entries.filter (·.1 ≠ name), t.ascending.filter _⟩

def ofList (entries : List (String × α)) : Table α :=
  ⟨sortEntries entries, ascending_sortEntries entries⟩

def setAll (t : Table α) (entries : List (String × α)) : Table α :=
  entries.foldl (fun t entry => t.set entry.1 entry.2) t

def map (f : α → β) (t : Table α) : Table β :=
  ⟨t.entries.map fun entry => (entry.1, f entry.2), by
    have h := t.ascending
    unfold Ascending at h ⊢
    rw [List.pairwise_map]
    exact h⟩

/-! ## Lookups after an operation -/

theorem findEntry_setEntry (name other : String) (value : α) (entries : List (String × α)) :
    findEntry other (setEntry name value entries) =
      if other = name then some value else findEntry other entries := by
  induction entries with
  | nil => simp [setEntry, findEntry]
  | cons first rest ih =>
    rw [setEntry]
    split
    · next eq => by_cases h : other = name <;> simp_all [findEntry]
    · next ne =>
      split
      · simp [findEntry]
      · by_cases h : other = name
        · subst h
          simpa [findEntry, ne] using ih
        · by_cases h' : other = first.1
          · simp [findEntry, h, ← h']
          · simpa [findEntry, h, h'] using ih

@[simp] theorem get?_empty (name : String) : (empty : Table α).get? name = none := rfl

theorem get?_set (t : Table α) (name other : String) (value : α) :
    (t.set name value).get? other = if other = name then some value else t.get? other :=
  findEntry_setEntry name other value t.entries

theorem get?_replace (t : Table α) (name other : String) (value : α) :
    (t.replace name value).get? other =
      if other = name ∧ t.contains name then some value else t.get? other := by
  by_cases h : t.contains name <;> simp [replace, h, get?_set]

theorem findEntry_eq_none_iff {name : String} {entries : List (String × α)} :
    findEntry name entries = none ↔ name ∉ entries.map (·.1) := by
  induction entries with
  | nil => simp [findEntry]
  | cons first rest ih =>
    by_cases h : name = first.1
    · simp [findEntry, h]
    · simpa [findEntry, h] using ih

theorem get?_eq_none_iff {t : Table α} {name : String} : t.get? name = none ↔ name ∉ t.names :=
  findEntry_eq_none_iff

theorem map_fst_setEntry {name : String} {value : α} {entries : List (String × α)}
    (ascending : Ascending entries) (listed : name ∈ entries.map (·.1)) :
    (setEntry name value entries).map (·.1) = entries.map (·.1) := by
  induction entries with
  | nil => simp at listed
  | cons first rest ih =>
    have ⟨below, tail⟩ := List.pairwise_cons.1 ascending
    rw [setEntry]
    split
    · next eq => simp [eq]
    · next ne =>
      have later : name ∈ rest.map (·.1) := by simpa [ne] using listed
      split
      · next lt =>
        obtain ⟨entry, mem, eq⟩ := List.mem_map.1 later
        exact absurd (String.lt_trans lt (below entry mem)) (eq ▸ String.lt_irrefl _)
      · simpa using ih tail later

theorem names_replace (t : Table α) (name : String) (value : α) :
    (t.replace name value).names = t.names := by
  by_cases h : t.contains name
  · have listed : name ∈ t.names := Decidable.byContradiction fun absent => by
      simp [contains, get?_eq_none_iff.2 absent] at h
    simpa [replace, h, set, names] using map_fst_setEntry t.ascending listed
  · simp [replace, h]

theorem findEntry_filter (name other : String) (entries : List (String × α)) :
    findEntry other (entries.filter (·.1 ≠ name)) =
      if other = name then none else findEntry other entries := by
  induction entries with
  | nil => simp [findEntry]
  | cons first rest ih =>
    by_cases h : first.1 = name
    · by_cases h' : other = name
      · simpa [findEntry, h, h'] using ih
      · simpa [findEntry, h, h'] using ih
    · by_cases h' : other = first.1
      · subst h'
        simp [findEntry, h]
      · simpa [findEntry, h, h'] using ih

theorem get?_erase (t : Table α) (name other : String) :
    (t.erase name).get? other = if other = name then none else t.get? other :=
  findEntry_filter name other t.entries

theorem findEntry_eq_none_of_lt {name : String} {entries : List (String × α)}
    (h : ∀ e ∈ entries, name < e.1) : findEntry name entries = none := by
  induction entries with
  | nil => rfl
  | cons first rest ih =>
    have ne : name ≠ first.1 := fun eq => String.lt_irrefl _ (eq ▸ h first List.mem_cons_self)
    rw [findEntry, if_neg ne]
    exact ih fun e he => h e (List.mem_cons_of_mem _ he)

theorem findEntry_eq_none_of_lt_head {name : String} {first : String × α}
    {rest : List (String × α)} (h : Ascending (first :: rest)) (lt : name < first.1) :
    findEntry name (first :: rest) = none := by
  refine findEntry_eq_none_of_lt fun e he => ?_
  rcases List.mem_cons.1 he with he | he
  · exact he ▸ lt
  · exact String.lt_trans lt ((List.pairwise_cons.1 h).1 e he)

theorem eq_of_findEntry_eq {xs ys : List (String × α)} (hx : Ascending xs) (hy : Ascending ys)
    (h : ∀ name, findEntry name xs = findEntry name ys) : xs = ys := by
  induction xs generalizing ys with
  | nil =>
    cases ys with
    | nil => rfl
    | cons y ys => simpa [findEntry] using h y.1
  | cons x xs ih =>
    cases ys with
    | nil => simpa [findEntry] using h x.1
    | cons y ys =>
      have key : x.1 = y.1 := by
        by_cases eq : x.1 = y.1
        · exact eq
        · by_cases lt : x.1 < y.1
          · have := h x.1
            rw [findEntry_eq_none_of_lt_head hy lt] at this
            simp [findEntry] at this
          · have := h y.1
            rw [findEntry_eq_none_of_lt_head hx (lt_of_not_lt_of_ne eq lt)] at this
            simp [findEntry] at this
      have value : x.2 = y.2 := by simpa [findEntry, key] using h x.1
      obtain ⟨hxs, hx⟩ := List.pairwise_cons.1 hx
      obtain ⟨hys, hy⟩ := List.pairwise_cons.1 hy
      have tail : ∀ name, findEntry name xs = findEntry name ys := by
        intro name
        by_cases eq : name = x.1
        · rw [eq, findEntry_eq_none_of_lt hxs, key, findEntry_eq_none_of_lt hys]
        · simpa [findEntry, eq, key ▸ eq] using h name
      rw [ih hx hy tail, Prod.ext key value]

theorem ext_get? {s t : Table α} (h : ∀ name, s.get? name = t.get? name) : s = t := by
  have := eq_of_findEntry_eq s.ascending t.ascending h
  cases s
  cases t
  congr

end Table

end BlockScript
