import BlockScript.Proofs.Catalog.Behaviors
import BlockScript.Proofs.Evaluation.Runs
import BlockScript.Proofs.Value.Ordering

/-!
# Statements on list variables

Each of them reads one variable, takes its value for a list, and either overwrites the variable with
the changed list or leaves the machine as it was (`behavior_atomic`).  Whether it fails depends on
the list and the change alone (`ListChange.Fails`), and so does what it makes (`ListChange.Makes`).
Only sorting has a third way to end: on numbers of which some form a cycle it may bring the program
down.
-/

namespace BlockScript.Catalog

/-! ## Changes of lists -/

theorem insertIdx_eq_append {α : Type} {items : List α} {place : Nat} (item : α)
    (inside : place ≤ items.length) :
    items.insertIdx place item = items.take place ++ item :: items.drop place := by
  induction items generalizing place with
  | nil =>
      obtain rfl := Nat.le_zero.1 inside
      rfl
  | cons first rest ih =>
      cases place with
      | zero => rfl
      | succ place => exact congrArg (first :: ·) (ih (Nat.le_of_succ_le_succ inside))

namespace ListChange

def Fails (items : List Value) : ListChange → Prop
  | append _ | combine _ => False
  | insert _ index => ¬ (0 ≤ index.toInt ∧ index.toInt ≤ items.length)
  | delete index => ¬ (0 ≤ index.toInt ∧ index.toInt < items.length)
  | sort => Value.Mixed items

def Makes (items result : List Value) : ListChange → Prop
  | append item => result = items ++ [item]
  | insert item index =>
    result = items.take index.toInt.toNat ++ item :: items.drop index.toInt.toNat
  | delete index => result = items.take index.toInt.toNat ++ items.drop (index.toInt.toNat + 1)
  | combine tail => result = items ++ tail
  | sort => result.Perm items ∧
    (¬ Value.Cyclic items → result.Pairwise fun x y => Value.compare x y ≠ .gt)

/-- A change asks for nothing: it is made, or it fails, or it is a sort of a list with a cycle. -/
theorem apply_cases (items : List Value) (change : ListChange) :
    (¬ change.Fails items ∧
      ∃ result, change.apply items = .done result ∧ change.Makes items result) ∨
    (change.Fails items ∧ ∃ failure, change.apply items = .fail (.failed failure)) ∨
    (¬ change.Fails items ∧ change = sort ∧ Value.Cyclic items ∧ change.apply items = .crash) := by
  cases change with
  | append item => exact .inl ⟨id, _, rfl, rfl⟩
  | combine tail => exact .inl ⟨id, _, rfl, rfl⟩
  | insert item index =>
      by_cases inside : 0 ≤ index.toInt ∧ index.toInt ≤ items.length
      · refine .inl ⟨not_not_intro inside, _, ?_, rfl⟩
        simp only [apply, boundary, if_pos inside]
        rw [← insertIdx_eq_append item (by omega)]
        rfl
      · refine .inr (.inl ⟨inside, .indexOutOfRange index items.length, ?_⟩)
        simp only [apply, boundary, if_neg inside]
        rfl
  | delete index =>
      by_cases inside : 0 ≤ index.toInt ∧ index.toInt < items.length
      · refine .inl ⟨not_not_intro inside, _, ?_, rfl⟩
        simp only [apply, position, if_pos inside]
        rw [← List.eraseIdx_eq_take_drop_succ]
        rfl
      · refine .inr (.inl ⟨inside, .indexOutOfRange index items.length, ?_⟩)
        simp only [apply, position, if_neg inside]
        rfl
  | sort =>
      by_cases mixed : Value.Mixed items
      · obtain ⟨e, error⟩ := Value.exists_sort_error fun one => Value.not_mixed_iff.2 one mixed
        exact .inr (.inl ⟨mixed, .unsortable e, by simp only [apply, error]⟩)
      · obtain ⟨family, one⟩ := Value.not_mixed_iff.1 mixed
        by_cases cyclic : Value.Cyclic items
        · cases sorted : Sort.stable Value.precedes items with
          | none =>
              refine .inr (.inr ⟨mixed, rfl, cyclic, ?_⟩)
              simp only [apply, Value.sort_eq_stable one, sorted]
          | some result =>
              refine .inl ⟨mixed, result, ?_, ?_, fun acyclic => absurd cyclic acyclic⟩
              · simp only [apply, Value.sort_eq_stable one, sorted]
                rfl
              · exact Value.perm_of_sort one (by rw [Value.sort_eq_stable one, sorted])
        · obtain ⟨result, sorted, inOrder⟩ := Value.exists_sorted one cyclic
          refine .inl ⟨mixed, result, ?_, Value.perm_of_sort one sorted, fun _ => inOrder⟩
          simp only [apply, sorted]
          rfl

end ListChange

namespace ListUpdate

/-! ## Arguments -/

inductive Asks : ListUpdate → Arguments → ListChange → String → Prop where
  | append (item : Value) (name : String) :
      Asks .append [item, .text name] (.append item) name
  | insert (item : Value) (index : Int64) (name : String) :
      Asks .insert [item, .integer index, .text name] (.insert item index) name
  | delete (index : Int64) (name : String) :
      Asks .delete [.integer index, .text name] (.delete index) name
  | combine (name : String) (tail : List Value) :
      Asks .combine [.text name, .list tail] (.combine tail) name
  | sort (name : String) : Asks .sort [.text name] .sort name

variable {update : ListUpdate} {args : Arguments} {change : ListChange} {name : String}

theorem Asks.change_eq (asks : update.Asks args change name) :
    update.change args = .ok (change, name) := by
  cases asks <;> rfl

theorem exists_asks (fit : List.Forall₂ SlotKind.Accepts update.slots args) :
    ∃ change name, update.Asks args change name := by
  cases update with
  | append =>
      obtain _ | ⟨-, _ | ⟨isText, _ | -⟩⟩ := fit
      obtain ⟨name, rfl⟩ := exists_text_of_accepts isText
      exact ⟨_, name, .append _ name⟩
  | insert =>
      obtain _ | ⟨-, _ | ⟨isIndex, _ | ⟨isText, _ | -⟩⟩⟩ := fit
      obtain ⟨index, rfl⟩ := exists_integer_of_accepts isIndex
      obtain ⟨name, rfl⟩ := exists_text_of_accepts isText
      exact ⟨_, name, .insert _ index name⟩
  | delete =>
      obtain _ | ⟨isIndex, _ | ⟨isText, _ | -⟩⟩ := fit
      obtain ⟨index, rfl⟩ := exists_integer_of_accepts isIndex
      obtain ⟨name, rfl⟩ := exists_text_of_accepts isText
      exact ⟨_, name, .delete index name⟩
  | combine =>
      obtain _ | ⟨isText, _ | ⟨isList, _ | -⟩⟩ := fit
      obtain ⟨name, rfl⟩ := exists_text_of_accepts isText
      obtain ⟨tail, rfl⟩ := exists_list_of_accepts isList
      exact ⟨_, name, .combine name tail⟩
  | sort =>
      obtain _ | ⟨isText, _ | -⟩ := fit
      obtain ⟨name, rfl⟩ := exists_text_of_accepts isText
      exact ⟨_, name, .sort name⟩

/-! ## Runs -/

structure Overwrites (m : Machine) (name : String) (value : Value) (m' : Machine) : Prop where
  stop : m'.stop = m.stop
  surroundings : m'.surroundings = m.surroundings
  get? : ∀ other, m'.store.get? other = if other = name then some value else m.store.get? other

/-- A statement on a list variable leaves the machine as it was, or changes that variable alone. -/
structure Atomic (m : Machine) (change : ListChange) (name : String)
    (ran : Ending BehaviorError Unit × Machine) : Prop where
  ends : ran.1 ≠ .unfinished
  fails_iff : (∃ e, ran.1 = .failed e) ↔ m.store.get? name = none ∨
    ∃ value, m.store.get? name = some value ∧ change.Fails value.toList
  failed : ∀ e, ran.1 = .failed e → (∃ failure, e = .failed failure) ∧ ran.2 = m
  crashed : ran.1 = .crashed → ran.2 = m ∧ change = .sort ∧
    ∃ value, m.store.get? name = some value ∧ Value.Cyclic value.toList
  done : ran.1 = .done () → ∃ value result, m.store.get? name = some value ∧
    change.Makes value.toList result ∧ Overwrites m name (.list result) ran.2

theorem run_perform_eq (m : Machine) (change : ListChange) (name : String) :
    m.run (perform change name) =
      m.run (match m.store.get? name with
        | none => .fail (.failed (.noListVariable name))
        | some value => (change.apply value.toList).bind fun items =>
          (ActionTask.replace name (.list items)).bind fun _ => .done ()) := rfl

theorem run_perform_absent {m : Machine} (absent : m.store.get? name = none) :
    m.run (perform change name) = (.failed (.failed (.noListVariable name)), m) := by
  rw [run_perform_eq, absent]
  rfl

theorem run_perform_present {m : Machine} {value : Value}
    (present : m.store.get? name = some value) :
    m.run (perform change name) =
      Ending.andThen
        (fun items m => (.done (), { m with store := m.store.replace name (.list items) }))
        (m.run (change.apply value.toList)) := by
  rw [run_perform_eq, present]
  exact Task.run_bind _ _ _ _

theorem overwrites_replace {m : Machine} {value : Value} (present : m.store.get? name = some value)
    (new : Value) : Overwrites m name new { m with store := m.store.replace name new } where
  stop := rfl
  surroundings := rfl
  get? other := by
    have known : m.store.contains name = true := by rw [Table.contains, present, Option.isSome_some]
    rw [Table.get?_replace]
    simp only [known, and_true]

theorem perform_atomic (m : Machine) (change : ListChange) (name : String) :
    Atomic m change name (m.run (perform change name)) := by
  cases present : m.store.get? name with
  | none =>
      rw [run_perform_absent present]
      exact {
        ends := by rintro ⟨⟩
        fails_iff := iff_of_true ⟨_, rfl⟩ (.inl present)
        failed := fun e eq => ⟨⟨_, (Ending.failed.inj eq).symm⟩, rfl⟩
        crashed := by rintro ⟨⟩
        done := by rintro ⟨⟩ }
  | some value =>
      rw [run_perform_present present]
      have absurdFails : ¬ change.Fails value.toList → ¬ (m.store.get? name = none ∨
          ∃ value, m.store.get? name = some value ∧ change.Fails value.toList) := by
        rintro fits (absent | ⟨other, isOther, fails⟩)
        · cases present.symm.trans absent
        · cases present.symm.trans isOther
          exact fits fails
      rcases change.apply_cases value.toList with
        ⟨fits, result, applied, makes⟩ | ⟨fails, failure, applied⟩ | ⟨fits, isSort, cyclic, applied⟩
      · rw [applied]
        exact {
          ends := by rintro ⟨⟩
          fails_iff := iff_of_false (by rintro ⟨_, ⟨⟩⟩) (absurdFails fits)
          failed := by rintro _ ⟨⟩
          crashed := by rintro ⟨⟩
          done := fun _ => ⟨value, result, present, makes, overwrites_replace present _⟩ }
      · rw [applied]
        exact {
          ends := by rintro ⟨⟩
          fails_iff := iff_of_true ⟨_, rfl⟩ (.inr ⟨value, present, fails⟩)
          failed := fun e eq => ⟨⟨failure, (Ending.failed.inj eq).symm⟩, rfl⟩
          crashed := by rintro ⟨⟩
          done := by rintro ⟨⟩ }
      · rw [applied]
        exact {
          ends := by rintro ⟨⟩
          fails_iff := iff_of_false (by rintro ⟨_, ⟨⟩⟩) (absurdFails fits)
          failed := by rintro _ ⟨⟩
          crashed := fun _ => ⟨rfl, isSort, value, present, cyclic⟩
          done := by rintro ⟨⟩ }

theorem exists_run_eq_perform (asks : update.Asks args change name) :
    ∃ run, update.behavior = .statement run ∧ run args = perform change name := by
  refine ⟨_, rfl, ?_⟩
  rw [asks.change_eq]
  rfl

/-! ## Insertion and deletion -/

variable {m m' m'' : Machine}

theorem Atomic.run_done {ran : Ending BehaviorError Unit × Machine} {value : Value}
    (atomic : Atomic m change name ran) (present : m.store.get? name = some value)
    (fits : ¬ change.Fails value.toList) (unsorted : change ≠ .sort) :
    ran.1 = .done () := by
  cases ending : ran.1 with
  | done => rfl
  | unfinished => exact absurd ending atomic.ends
  | crashed => exact absurd (atomic.crashed ending).2.1 unsorted
  | failed e =>
      rcases atomic.fails_iff.1 ⟨e, ending⟩ with absent | ⟨other, isOther, fails⟩
      · cases present.symm.trans absent
      · cases present.symm.trans isOther
        exact absurd fails fits

theorem Overwrites.undo {new old : Value} (first : Overwrites m name new m')
    (second : Overwrites m' name old m'') (was : m.store.get? name = some old) : m'' = m := by
  have store : m''.store = m.store := by
    refine Table.ext_get? fun other => ?_
    rw [second.get? other, first.get? other]
    split
    next eq => rw [eq, was]
    next => rfl
  obtain ⟨_, _, _⟩ := m
  obtain ⟨_, _, _⟩ := m''
  cases store
  cases second.stop.trans first.stop
  cases second.surroundings.trans first.surroundings
  rfl

theorem perform_insert_delete {items : List Value} (item : Value) {index : Int64}
    (present : m.store.get? name = some (.list items))
    (inside : 0 ≤ index.toInt ∧ index.toInt ≤ items.length) :
    ∃ inserted result, m.run (perform (.insert item index) name) = (.done (), inserted) ∧
      inserted.store.get? name = some (.list result) ∧
      ListQuery.item.compute [.integer index, .list result] = .ok item ∧
      inserted.run (perform (.delete index) name) = (.done (), m) := by
  have insertion := perform_atomic m (.insert item index) name
  have isDone := insertion.run_done present (not_not_intro inside) (by rintro ⟨⟩)
  obtain ⟨value, result, isValue, isResult, changed⟩ := insertion.done isDone
  cases present.symm.trans isValue
  have found := (changed.get? name).trans (if_pos rfl)
  have place : index.toInt.toNat ≤ items.length := by omega
  have isResult : result = items.insertIdx index.toInt.toNat item :=
    isResult.trans (insertIdx_eq_append item place).symm
  have count : result.length = items.length + 1 := by
    rw [isResult, List.length_insertIdx_of_le_length place]
  have below : 0 ≤ index.toInt ∧ index.toInt < result.length := by omega
  have deletion := perform_atomic (m.run (perform (.insert item index) name)).2 (.delete index) name
  have isDeleted := deletion.run_done found (not_not_intro below) (by rintro ⟨⟩)
  obtain ⟨value, restored, isValue, isRestored, changedBack⟩ := deletion.done isDeleted
  cases found.symm.trans isValue
  refine ⟨_, result, Prod.ext isDone rfl, found, ?_, Prod.ext isDeleted ?_⟩
  · have asked : ListQuery.item.compute [.integer index, .list result] =
        (position index result.length).bind fun place => .ok (result.getD place default) := rfl
    rw [asked, position, if_pos below, Except.bind, List.getD, isResult,
      List.getElem?_insertIdx_self, if_pos place, Option.getD_some]
  · have isRestored : restored = result.eraseIdx index.toInt.toNat :=
      isRestored.trans (List.eraseIdx_eq_take_drop_succ _ _).symm
    rw [isResult, List.eraseIdx_insertIdx_self] at isRestored
    exact changed.undo changedBack (isRestored ▸ present)

/-- Every statement on a list variable is atomic, and a deletion undoes the insertion before it. -/
theorem behavior_atomic (m : Machine) :
    (∀ (update : ListUpdate) (args : Arguments), List.Forall₂ SlotKind.Accepts update.slots args →
      ∃ run change name, update.behavior = .statement run ∧ update.Asks args change name ∧
        Atomic m change name (m.run (run args))) ∧
    ∀ (name : String) (items : List Value) (item : Value) (index : Int64),
      m.store.get? name = some (.list items) → 0 ≤ index.toInt ∧ index.toInt ≤ items.length →
      ∃ insertion deletion inserted result,
        ListUpdate.insert.behavior = .statement insertion ∧
        ListUpdate.delete.behavior = .statement deletion ∧
        m.run (insertion [item, .integer index, .text name]) = (.done (), inserted) ∧
        inserted.store.get? name = some (.list result) ∧
        ListQuery.item.compute [.integer index, .list result] = .ok item ∧
        inserted.run (deletion [.integer index, .text name]) = (.done (), m) := by
  constructor
  · intro update args fit
    obtain ⟨change, name, asks⟩ := exists_asks fit
    obtain ⟨run, isRun, performs⟩ := exists_run_eq_perform asks
    exact ⟨run, change, name, isRun, asks, performs ▸ perform_atomic m change name⟩
  · intro name items item index present inside
    obtain ⟨inserted, result, inserts, found, isItem, deletes⟩ :=
      perform_insert_delete item present inside
    exact ⟨_, _, inserted, result, rfl, rfl, inserts, found, isItem, deletes⟩

/-- An item is inserted behind the last one and deleted again.  A list of twenty-one numbers, in
which the real `2 ^ 53` stands among integers that round to it, brings the program down when it is
sorted. -/
theorem behavior_atomic_rounded :
    (let m := Machine.bare (Table.ofList [("L", .list [.text "a"])])
    ∃ insertion deletion inserted result,
      ListUpdate.insert.behavior = .statement insertion ∧
      ListUpdate.delete.behavior = .statement deletion ∧
      m.run (insertion [.boolean true, .integer 1, .text "L"]) = (.done (), inserted) ∧
      inserted.store.get? "L" = some (.list result) ∧
      ListQuery.item.compute [.integer 1, .list result] = .ok (.boolean true) ∧
      inserted.run (deletion [.integer 1, .text "L"]) = (.done (), m)) ∧
    let a := Value.integer 9007199254740992
    let b := Value.integer 9007199254740993
    let r := Value.real (Binary64.ofInt 9007199254740992)
    let items := [b, b, a, b, r, a, a, b, b, b, b, r, b, r, r, b, r, a, a, b, b]
    let m := Machine.bare (Table.ofList [("L", .list items)])
    ∃ run, ListUpdate.sort.behavior = .statement run ∧ Value.Cyclic items ∧
      m.run (run [.text "L"]) = (.crashed, m) := by
  constructor
  · intro m
    exact (behavior_atomic m).2 "L" [.text "a"] (.boolean true) 1 rfl (by decide)
  · intro a b r items m
    have fit : List.Forall₂ SlotKind.Accepts ListUpdate.sort.slots [.text "L"] :=
      .cons (fun kind eq => Option.some.inj eq) .nil
    obtain ⟨run, change, name, isRun, asks, atomic⟩ := (behavior_atomic m).1 .sort _ fit
    cases isRun
    cases asks
    have crashes : (m.run (perform .sort "L")).1 = .crashed := by decide +kernel
    obtain ⟨same, -, value, present, cyclic⟩ := atomic.crashed crashes
    cases present
    exact ⟨_, rfl, cyclic, Prod.ext crashes same⟩

end ListUpdate

end BlockScript.Catalog
