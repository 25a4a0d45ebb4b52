import BlockScript.Catalog.Standard
import BlockScript.Proofs.Document.Literals
import BlockScript.Proofs.Evaluation.Requests
import BlockScript.Proofs.Run.Sharing
import Mathlib.Data.List.Perm.Subperm

/-!
# Lists that several programs add to

Adding an item takes two actions: the list is read, and then written with the item at its end.  What
others have written in between is lost.  `Accessed` lists the accesses to a variable in a history
with the requests that they belong to, and every history has such a list (`Path.exists_accessed`).
`Ledger` says how a variable that is changed by additions only comes by its value: a write goes back
to the value at the last read of the same worker.  An addition overtakes those that are written
between its read and its write, and an item is in the list exactly if no addition in the list has
overtaken it (`additions_kept`); so nothing is lost where no addition overtakes another, and
`addition_lost` is a run in which one does.
-/

namespace BlockScript.Runtime

open Catalog

variable {κ : Type}

structure Access (κ : Type) where
  worker : Nat × Nat
  request : Evaluation.Request κ
  exchange : Task.Exchange Action.signature

namespace Access

def added? (a : Access κ) : Option Value :=
  match a.exchange.1, a.request with
  | .replace _ _, .invoke _ args => args[0]?
  | _, _ => none

/-- The access is part of adding an item to a list. -/
def IsAdd [Vocabulary κ] (a : Access κ) : Prop :=
  ∃ k args, a.request = .invoke k args ∧ describe k = ListUpdate.append.kind

theorem added?_of_get {a : Access κ} {name : String} {found : Option Value}
    (reads : a.exchange = ⟨.get name, found⟩) : a.added? = none := by
  rw [added?, reads]

end Access

def additions (accesses : List (Access κ)) : List (Nat × Value) :=
  accesses.zipIdx.filterMap fun (a, n) => a.added?.map fun item => (n, item)

/-- The worker of a write has read the list before another place, and writes it after. -/
def Overtakes (accesses : List (Access κ)) (write place : Nat) : Prop :=
  place < write ∧ ∀ a, accesses[write]? = some a →
    ∀ n b, place < n → n < write → accesses[n]? = some b → b.worker ≠ a.worker

theorem mem_additions {accesses : List (Access κ)} {n : Nat} {item : Value} :
    (n, item) ∈ additions accesses ↔ ∃ a, accesses[n]? = some a ∧ a.added? = some item := by
  simp only [additions, List.mem_filterMap, Option.map_eq_some_iff, Prod.exists,
    List.mem_zipIdx_iff_getElem?, Prod.mk.injEq]
  constructor
  · rintro ⟨a, m, here, item, added, rfl, rfl⟩
    exact ⟨a, here, added⟩
  · rintro ⟨a, here, added⟩
    exact ⟨a, n, here, item, added, rfl, rfl⟩

theorem lt_of_mem_additions {accesses : List (Access κ)} {x : Nat × Value}
    (mem : x ∈ additions accesses) : x.1 < accesses.length := by
  obtain ⟨a, here, -⟩ := mem_additions.1 mem
  exact (List.getElem?_eq_some_iff.1 here).1

theorem additions_append (accesses others : List (Access κ)) : additions (accesses ++ others) =
    additions accesses ++ (others.zipIdx accesses.length).filterMap fun (a, n) =>
      a.added?.map fun item => (n, item) := by
  rw [additions, List.zipIdx_append, List.filterMap_append, Nat.zero_add]
  rfl

theorem additions_snoc (accesses : List (Access κ)) (a : Access κ) :
    additions (accesses ++ [a]) =
      additions accesses ++ (a.added?.map fun item => (accesses.length, item)).toList := by
  rw [additions_append]
  cases added : a.added? <;> simp [added]

theorem ordered_additions (accesses : List (Access κ)) :
    (additions accesses).Pairwise fun x y => x.1 < y.1 := by
  refine List.pairwise_filterMap.2 (List.pairwise_iff_getElem.2 ?_)
  intro i j hi hj before x hx y hy
  simp only [List.getElem_zipIdx, Nat.zero_add, Option.map_eq_some_iff] at hx hy
  obtain ⟨_, -, rfl⟩ := hx
  obtain ⟨_, -, rfl⟩ := hy
  exact before

theorem nodup_additions (accesses : List (Access κ)) : (additions accesses).Nodup := by
  refine List.nodup_iff_pairwise_ne.2 ((ordered_additions accesses).imp ?_)
  rintro x _ before rfl
  exact Nat.lt_irrefl _ before

theorem overtakes_append {accesses others : List (Access κ)} {write place : Nat}
    (bound : write < accesses.length) :
    Overtakes (accesses ++ others) write place ↔ Overtakes accesses write place := by
  have same (n : Nat) (below : n ≤ write) : (accesses ++ others)[n]? = accesses[n]? :=
    List.getElem?_append_left (Nat.lt_of_le_of_lt below bound)
  unfold Overtakes
  rw [same write (Nat.le_refl _)]
  refine and_congr_right fun _ => forall₂_congr fun a _ => forall₂_congr fun n b => ?_
  refine forall₂_congr fun _ before => ?_
  rw [same n (Nat.le_of_lt before)]

/-! ## The value of the variable -/

inductive Ledger (name : String) (initial : Value) : List (Access κ) → Value → Prop where
  | nil : Ledger name initial [] initial
  | read {accesses : List (Access κ)} {a : Access κ} {value : Value}
      (before : Ledger name initial accesses value)
      (reads : a.exchange = ⟨.get name, some value⟩) : Ledger name initial (accesses ++ [a]) value
  /-- The worker writes what it has read, and the item; whatever stands there now is lost. -/
  | write {before between : List (Access κ)} {a b : Access κ} {value now item : Value}
      (whole : Ledger name initial (before ++ b :: between) now)
      (past : Ledger name initial before value) (reads : b.exchange = ⟨.get name, some value⟩)
      (same : b.worker = a.worker) (alone : ∀ c ∈ between, c.worker ≠ a.worker)
      (adds : a.added? = some item) :
      Ledger name initial ((before ++ b :: between) ++ [a]) (.list (value.toList ++ [item]))

theorem Ledger.before {name : String} {initial value : Value} {before after : List (Access κ)}
    {a : Access κ} (ledger : Ledger name initial (before ++ a :: after) value) :
    ∃ past, Ledger name initial before past ∧
      ∀ found, a.exchange = ⟨.get name, found⟩ → found = some past := by
  generalize all : before ++ a :: after = accesses at ledger
  induction ledger generalizing after with
  | nil => simp at all
  | @read accesses last value earlier reads ih =>
      rcases List.eq_nil_or_concat' after with rfl | ⟨after, z, rfl⟩
      · obtain ⟨rfl, same⟩ := List.append_inj' all rfl
        obtain rfl := List.singleton_inj.1 same
        refine ⟨value, earlier, fun found eq => ?_⟩
        rw [reads] at eq
        cases eq
        rfl
      · rw [← List.cons_append, ← List.append_assoc] at all
        obtain ⟨eq, -⟩ := List.append_inj' all rfl
        exact ih eq
  | @write first between last b value now item whole past reads same alone adds ih =>
      rcases List.eq_nil_or_concat' after with rfl | ⟨after, z, rfl⟩
      · obtain ⟨rfl, same⟩ := List.append_inj' all rfl
        obtain rfl := List.singleton_inj.1 same
        refine ⟨now, whole, fun found eq => ?_⟩
        cases (Access.added?_of_get eq).symm.trans adds
      · rw [← List.cons_append, ← List.append_assoc] at all
        obtain ⟨eq, -⟩ := List.append_inj' all rfl
        exact ih eq

/-- The value is made of the additions that no addition in it has overtaken. -/
structure Keeps (accesses : List (Access κ)) (initial value : Value) (kept : List (Nat × Value)) :
    Prop where
  items : value.toList = initial.toList ++ kept.map (·.2)
  sublist : kept.Sublist (additions accesses)
  mem_iff : ∀ x ∈ additions accesses, x ∈ kept ↔ ∀ y ∈ kept, ¬ Overtakes accesses y.1 x.1

theorem Keeps.lt {accesses : List (Access κ)} {initial value : Value} {kept : List (Nat × Value)}
    (keeps : Keeps accesses initial value kept) {y : Nat × Value} (mem : y ∈ kept) :
    y.1 < accesses.length :=
  lt_of_mem_additions (keeps.sublist.subset mem)

theorem Keeps.read {accesses : List (Access κ)} {initial value : Value}
    {kept : List (Nat × Value)} (keeps : Keeps accesses initial value kept) {a : Access κ}
    (none : a.added? = none) : Keeps (accesses ++ [a]) initial value kept := by
  have same : additions (accesses ++ [a]) = additions accesses := by
    rw [additions_snoc, none, Option.map_none, Option.toList_none, List.append_nil]
  refine ⟨keeps.items, same ▸ keeps.sublist, fun x mem => ?_⟩
  rw [keeps.mem_iff x (same ▸ mem)]
  exact forall₂_congr fun y inside => not_congr (overtakes_append (keeps.lt inside)).symm

theorem overtakes_last {before between : List (Access κ)} {a b : Access κ} {place : Nat}
    (same : b.worker = a.worker) (alone : ∀ c ∈ between, c.worker ≠ a.worker)
    (bound : place < (before ++ b :: between).length) :
    Overtakes ((before ++ b :: between) ++ [a]) (before ++ b :: between).length place ↔
      before.length ≤ place := by
  have last : ((before ++ b :: between) ++ [a])[(before ++ b :: between).length]? = some a :=
    List.getElem?_concat_length
  have length : (before ++ b :: between).length = before.length + (between.length + 1) := by
    rw [List.length_append, List.length_cons]
  have inside (n : Nat) (below : n < (before ++ b :: between).length) :
      ((before ++ b :: between) ++ [a])[n]? = (before ++ b :: between)[n]? :=
    List.getElem?_append_left below
  constructor
  · rintro ⟨-, none⟩
    by_contra earlier
    have read : ((before ++ b :: between) ++ [a])[before.length]? = some b := by
      rw [inside _ (by omega), List.getElem?_append_right (Nat.le_refl _), Nat.sub_self]
      rfl
    exact none a last before.length b (by omega) (by omega) read same
  · intro after
    refine ⟨bound, fun a' here n c first second found => ?_⟩
    obtain rfl := Option.some.inj (last.symm.trans here)
    rw [inside n second, List.getElem?_append_right (by omega), List.getElem?_cons,
      if_neg (by omega)] at found
    exact alone c (List.mem_of_getElem? found)

theorem Keeps.write {before between : List (Access κ)} {a b : Access κ} {initial value item : Value}
    {kept : List (Nat × Value)} (keeps : Keeps before initial value kept)
    (same : b.worker = a.worker)
    (alone : ∀ c ∈ between, c.worker ≠ a.worker) (adds : a.added? = some item) :
    Keeps ((before ++ b :: between) ++ [a]) initial (.list (value.toList ++ [item]))
      (kept ++ [((before ++ b :: between).length, item)]) := by
  have written : additions ((before ++ b :: between) ++ [a]) =
      additions (before ++ b :: between) ++ [((before ++ b :: between).length, item)] := by
    rw [additions_snoc, adds, Option.map_some, Option.toList_some]
  have earlier : (additions before).Sublist (additions (before ++ b :: between)) := by
    rw [additions_append]
    exact List.sublist_append_left _ _
  refine ⟨?_, ?_, fun x mem => ?_⟩
  · have items : (Value.list (value.toList ++ [item])).toList = value.toList ++ [item] := rfl
    rw [items, keeps.items, List.append_assoc, List.map_append]
    rfl
  · rw [written]
    exact (keeps.sublist.trans earlier).append (.refl _)
  have unchanged : ∀ y ∈ kept, Overtakes ((before ++ b :: between) ++ [a]) y.1 x.1 ↔
      Overtakes before y.1 x.1 := by
    intro y inside
    rw [List.append_assoc, overtakes_append (keeps.lt inside)]
  rw [written] at mem
  rcases List.mem_append.1 mem with mem | mem
  · have old := lt_of_mem_additions mem
    have other : x ≠ ((before ++ b :: between).length, item) := by
      rintro rfl
      exact Nat.lt_irrefl _ old
    have overtaken := overtakes_last same alone old
    rw [List.forall_mem_append, List.forall_mem_singleton, overtaken, Nat.not_le, List.mem_append,
      List.mem_singleton, or_iff_left other]
    -- what was written after the read is not in the list that the worker has read
    by_cases first : x.1 < before.length
    · have there : x ∈ additions before := by
        obtain ⟨c, here, added⟩ := mem_additions.1 mem
        rw [List.getElem?_append_left first] at here
        exact mem_additions.2 ⟨c, here, added⟩
      rw [keeps.mem_iff x there, and_iff_left first]
      exact forall₂_congr fun y inside => not_congr (unchanged y inside).symm
    · exact iff_of_false (fun inside => first (keeps.lt inside)) fun h => first h.2
  · obtain rfl := List.mem_singleton.1 mem
    refine iff_of_true (List.mem_append_right _ List.mem_cons_self) fun y inside overtakes => ?_
    have late := overtakes.1
    rcases List.mem_append.1 inside with inside | inside
    · have bound := keeps.lt inside
      simp only [List.length_append] at late
      omega
    · obtain rfl := List.mem_singleton.1 inside
      exact Nat.lt_irrefl _ late

theorem Ledger.keeps {name : String} {initial value : Value} {accesses : List (Access κ)}
    (ledger : Ledger name initial accesses value) : ∃ kept, Keeps accesses initial value kept := by
  induction ledger with
  | nil => exact ⟨[], by simp, .refl _, nofun⟩
  | read before reads ih =>
      obtain ⟨kept, keeps⟩ := ih
      exact ⟨kept, keeps.read (Access.added?_of_get reads)⟩
  | write whole past reads same alone adds _ ih =>
      obtain ⟨kept, keeps⟩ := ih
      exact ⟨_, keeps.write same alone adds⟩

/-! ## Additions in a runtime -/

section
variable [Vocabulary κ] {horizon : Nat} {name : String}

inductive Accessed (horizon : Nat) (name : String) : List (Event κ) → List (Access κ) → Prop where
  | nil : Accessed horizon name [] []
  | access {history : List (Event κ)} {accesses : List (Access κ)} (i j : Nat)
      {roots : List (Node κ)} {request : Evaluation.Request κ} (action : Action)
      (answer : action.Answer) (before : Accessed horizon name history accesses)
      (touches : action.target? = some name) (run : (runs i history)[j]? = some roots)
      (performs : Evaluation.Performs (Node.execute horizon roots) (log i j history) request
        action) :
      Accessed horizon name (history ++ [.of i (.performed j action answer)])
        (accesses ++ [⟨(i, j), request, ⟨action, answer⟩⟩])
  | other {history : List (Event κ)} {accesses : List (Access κ)} {event : Event κ}
      (before : Accessed horizon name history accesses) (untouched : ¬ event.Touches name) :
      Accessed horizon name (history ++ [event]) accesses

theorem Path.exists_accessed {roots : List (List (Node κ))} {e : Environment}
    {history : List (Event κ)} {r : Runtime κ}
    (path : Path horizon (.ofRoots roots e) history r) (name : String) :
    ∃ accesses, Accessed horizon name history accesses := by
  induction path with
  | nil => exact ⟨[], .nil⟩
  | @snoc r' r'' history event path move ih =>
      obtain ⟨accesses, accessed⟩ := ih
      by_cases touches : event.Touches name
      · match event, touches with
        | .of i (.performed j action answer), touches =>
          obtain ⟨p, resume, m, here, found, -, -⟩ := move.performed
          obtain ⟨body, task, run, follows, stands⟩ := (path.recorded here).executes found
          obtain rfl := stands
          obtain ⟨request, performs⟩ := Evaluation.exists_performs follows
          exact ⟨_, accessed.access i j action answer touches run performs⟩
      · exact ⟨accesses, .other accessed touches⟩

theorem Accessed.filter {history : List (Event κ)} {accesses : List (Access κ)}
    (accessed : Accessed horizon name history accesses) (i j : Nat) :
    (accesses.filter fun a => a.worker = (i, j)).map Access.exchange =
      (log i j history).filter fun x => x.1.target? = some name := by
  induction accessed with
  | nil => rfl
  | @access history accesses k l roots request action answer before touches run performs ih =>
      rw [List.filter_append, List.map_append, ih, log_snoc, List.filter_append]
      congr 1
      by_cases own : (k, l) = (i, j)
      · obtain ⟨rfl, rfl⟩ := Prod.mk.inj own
        simp [Event.view, Session.Event.exchange?, touches]
      · have silent : ((Event.of k (.performed l action answer) : Event κ).view i).exchange? j =
            none := by
          by_cases program : k = i
          · have worker : l ≠ j := fun same => own (by rw [program, same])
            simp [Event.view, Session.Event.exchange?, program, worker]
          · simp [Event.view, Session.Event.exchange?, program]
        simp [silent, own]
  | @other history accesses event before untouched ih =>
      rw [ih, log_snoc, List.filter_append]
      have silent : ((event.view i).exchange? j).toList.filter
          (fun x => x.1.target? = some name) = [] := by
        refine List.filter_eq_nil_iff.2 fun x mem touches => untouched ?_
        exact Event.touches_of_exchange (Option.mem_toList.1 mem) (of_decide_eq_true touches)
      rw [silent, List.append_nil]

theorem Accessed.exists_last {history : List (Event κ)} {accesses : List (Access κ)}
    (accessed : Accessed horizon name history accesses) {i j : Nat}
    {past : List (Task.Exchange Action.signature)} {x : Task.Exchange Action.signature}
    (logged : log i j history = past ++ [x]) (touches : x.1.target? = some name) :
    ∃ before b between, accesses = before ++ b :: between ∧ b.worker = (i, j) ∧
      b.exchange = x ∧ ∀ c ∈ between, c.worker ≠ (i, j) := by
  have own := accessed.filter i j
  rw [logged, List.filter_append, List.filter_singleton, decide_eq_true touches] at own
  obtain ⟨_, last, parts, -, eq⟩ := List.map_eq_append_iff.1 own
  obtain ⟨first, rest, rfl, -, found⟩ := List.filter_eq_append_iff.1 parts
  obtain ⟨b, rfl, is⟩ := List.map_eq_singleton_iff.1 eq
  obtain ⟨skipped, between, rfl, -, worker, none⟩ := List.filter_eq_cons_iff.1 found
  refine ⟨first ++ skipped, b, between, (List.append_assoc ..).symm, of_decide_eq_true worker,
    is, fun c mem => ?_⟩
  simpa using List.filter_eq_nil_iff.1 none c mem

def addTo (summary name : String) (item : Value) :
    Option Value → ActionTask EvalError (Option Value)
  | none => .fail (.behavior summary (.failed (.noListVariable name)))
  | some value => .ask (.replace name (.list (value.toList ++ [item]))) fun _ => .done none

theorem perform_add {k : κ} {args : Arguments} (add : describe k = ListUpdate.append.kind) :
    (∃ error, Evaluation.perform (.invoke k args) = .fail error) ∨
      ∃ item name, args[0]? = some item ∧
        Evaluation.perform (.invoke k args) =
          .ask (.get name) (addTo (describe k).summary name item) := by
  have behavior : (describe k).behavior? = some ListUpdate.append.behavior := by
    rw [add]
    rfl
  simp only [Evaluation.perform, behavior, ListUpdate.behavior]
  cases changes : ListUpdate.append.change args with
  | error error => exact .inl ⟨_, rfl⟩
  | ok change =>
      rw [ListUpdate.change, both_eq_ok] at changes
      obtain ⟨item, name, first, second, rfl⟩ := changes
      refine .inr ⟨item, name, ?_, congrArg (Task.ask _) (funext fun found => ?_)⟩
      · rw [Arguments.any] at first
        split at first
        · next value here => rw [here, Except.ok.inj first]
        · cases first
      · cases found <;> rfl

theorem add_cases {k : κ} {args : Arguments} (add : describe k = ListUpdate.append.kind)
    {past : List (Task.Exchange Action.signature)} {action : Action}
    {next : action.Answer → ActionTask EvalError (Option Value)}
    (follows : (Evaluation.perform (.invoke k args)).Follows past (.ask action next)) :
    (∃ name, action = .get name) ∨
      ∃ item name value, args[0]? = some item ∧ past = [⟨.get name, some value⟩] ∧
        action = .replace name (.list (value.toList ++ [item])) := by
  rcases perform_add add with ⟨error, failed⟩ | ⟨item, name, given, task⟩
  · rw [failed] at follows
    cases follows
  · rw [task] at follows
    cases follows with
    | nil => exact .inl ⟨name, rfl⟩
    | @cons _ _ found _ _ rest =>
        cases found with
        | none => cases rest
        | some value =>
            cases rest with
            | nil => exact .inr ⟨item, name, value, given, rfl, rfl⟩
            | cons rest => cases rest

theorem Accessed.ledger {roots : List (List (Node κ))} {e : Environment}
    {history : List (Event κ)} {r : Runtime κ} {accesses : List (Access κ)} {initial : Value}
    (accessed : Accessed horizon name history accesses)
    (path : Path horizon (.ofRoots roots e) history r) (start : e.store.get? name = some initial)
    (adds : ∀ a ∈ accesses, (∀ n, a.exchange.1 ≠ .get n) → a.IsAdd) :
    ∃ value, r.environment.store.get? name = some value ∧ Ledger name initial accesses value := by
  induction accessed generalizing r with
  | nil =>
      obtain rfl := path.of_nil
      exact ⟨initial, start, .nil⟩
  | @access history accesses i j body request action answer before touches run performs ih =>
      obtain ⟨r', path', move⟩ := path.last
      rw [List.forall_mem_append, List.forall_mem_singleton] at adds
      obtain ⟨value, stored, ledger⟩ := ih path' adds.1
      obtain ⟨p, resume, m, -, -, answers, store⟩ := move.performed
      obtain ⟨first, past, next, logged, follows⟩ := performs.follows
      rw [store]
      cases action with
      | get read =>
          obtain rfl := Option.some.inj touches
          obtain ⟨rfl, rfl⟩ := Prod.mk.inj (Option.some.inj answers)
          exact ⟨value, stored, ledger.read (congrArg (Sigma.mk (Action.get read)) stored)⟩
      | replace written new =>
          obtain rfl := Option.some.inj touches
          obtain ⟨-, rfl⟩ := Prod.mk.inj (Option.some.inj answers)
          obtain ⟨k, args, rfl, add⟩ := adds.2 nofun
          rcases add_cases add follows with ⟨_, reads⟩ | ⟨item, _, old, given, rfl, writes⟩
          · cases reads
          · cases writes
            -- what is written goes back to the last read in the worker's log
            obtain ⟨before, b, between, rfl, worker, reads, alone⟩ := before.exists_last logged rfl
            obtain ⟨last, earlier, same⟩ := ledger.before
            obtain rfl := Option.some.inj (same _ reads)
            have there : r'.environment.store.contains written = true :=
              Option.isSome_of_eq_some stored
            refine ⟨_, ?_, ledger.write earlier reads worker alone given⟩
            exact (Table.get?_replace _ written written _).trans (if_pos ⟨rfl, there⟩)
      | define written new =>
          obtain ⟨k, args, rfl, add⟩ := adds.2 nofun
          rcases add_cases add follows with ⟨_, reads⟩ | ⟨_, _, _, _, _, writes⟩
          · cases reads
          · cases writes
      | _ => cases touches
  | other before untouched ih =>
      obtain ⟨r', path', move⟩ := path.last
      obtain ⟨value, stored, ledger⟩ := ih path' adds
      exact ⟨value, (move.get?_of_untouched untouched).trans stored, ledger⟩

theorem Accessed.others {history events : List (Event κ)} {accesses : List (Access κ)}
    (before : Accessed horizon name history accesses)
    (untouched : ∀ event ∈ events, ¬ event.Touches name) :
    Accessed horizon name (history ++ events) accesses := by
  induction events generalizing history with
  | nil => rwa [List.append_nil]
  | cons event events ih =>
      rw [List.forall_mem_cons] at untouched
      rw [← List.singleton_append, ← List.append_assoc]
      exact ih (before.other untouched.1) untouched.2

/-- However the programs take turns, a list that is changed by additions only holds its initial
items and the items of the additions that no addition in it has overtaken, in the order in which
they were written. -/
theorem additions_kept (horizon : Nat) (roots : List (List (Node κ))) (e : Environment)
    (name : String) (initial : Value) (history : List (Event κ)) (r : Runtime κ)
    (accesses : List (Access κ)) (start : e.store.get? name = some initial)
    (path : Path horizon (.ofRoots roots e) history r)
    (accessed : Accessed horizon name history accesses)
    (adds : ∀ a ∈ accesses, (∀ n, a.exchange.1 ≠ .get n) → a.IsAdd) :
    ∃ value kept, r.environment.store.get? name = some value ∧
      Keeps accesses initial value kept ∧
      ((∀ x ∈ additions accesses, ∀ y ∈ additions accesses, ¬ Overtakes accesses y.1 x.1) →
        kept = additions accesses) := by
  obtain ⟨value, stored, ledger⟩ := accessed.ledger path start adds
  obtain ⟨kept, keeps⟩ := ledger.keeps
  refine ⟨value, kept, stored, keeps, fun apart => ?_⟩
  have all : additions accesses ⊆ kept := fun x mem =>
    (keeps.mem_iff x mem).2 fun y inside => apart x mem y (keeps.sublist.subset inside)
  exact keeps.sublist.eq_of_length_le (List.Nodup.subperm (nodup_additions accesses) all).length_le

end

section

def adding (item : String) : List (Node Block) :=
  [.block (.update .append) [.literal (.text item), .literal (.text "shared")]]

def sharedList : Environment :=
  ⟨Table.empty.set "shared" (.list []), (Machine.bare .empty).surroundings⟩

def overlappingAdditions : List (Event Block) :=
  [.of 0 (.started (adding "a")), .of 1 (.started (adding "b")),
    .of 0 (.performed 0 .stopRequested false), .of 1 (.performed 0 .stopRequested false),
    .of 0 (.performed 0 (.get "shared") (some (.list []))),
    .of 1 (.performed 0 (.get "shared") (some (.list []))),
    .of 0 (.performed 0 (.replace "shared" (.list [.text "a"])) true),
    .of 1 (.performed 0 (.replace "shared" (.list [.text "b"])) true),
    .of 0 (.performed 0 .stopRequested false), .of 1 (.performed 0 .stopRequested false),
    .of 0 (.returned 0 (.ok .completed)), .of 1 (.returned 0 (.ok .completed)),
    .of 0 (.released 0), .of 1 (.released 0), .of 0 (.exited 0), .of 1 (.exited 0)]

def additionOf (item : String) : Evaluation.Request Block :=
  .invoke (.update .append) [.text item, .text "shared"]

def overlappingAccesses : List (Access Block) :=
  [⟨(0, 0), additionOf "a", ⟨.get "shared", some (.list [])⟩⟩,
    ⟨(1, 0), additionOf "b", ⟨.get "shared", some (.list [])⟩⟩,
    ⟨(0, 0), additionOf "a", ⟨.replace "shared" (.list [.text "a"]), true⟩⟩,
    ⟨(1, 0), additionOf "b", ⟨.replace "shared" (.list [.text "b"]), true⟩⟩]

theorem path_overlappingAdditions : ∃ r : Runtime Block,
    Path 1 (.ofRoots [adding "a", adding "b"] sharedList) overlappingAdditions r ∧
      r.environment.store.get? "shared" = some (.list [.text "b"]) ∧
      ∀ p ∈ r.programs, ∀ worker ∈ p.workers, worker = .ended (.ok .completed) := by
  have none : Path 1 (.ofRoots [adding "a", adding "b"] sharedList : Runtime Block) [] _ := .nil _
  have started := (none.start 0 rfl rfl).start 1 rfl rfl
  have polled := (started.work 0 0 rfl rfl rfl).work 1 0 rfl rfl rfl
  have read := (polled.work 0 0 rfl rfl rfl).work 1 0 rfl rfl rfl
  have written := (read.work 0 0 rfl rfl rfl).work 1 0 rfl rfl rfl
  have polledAgain := (written.work 0 0 rfl rfl rfl).work 1 0 rfl rfl rfl
  have returned := (polledAgain.work 0 0 rfl rfl rfl).work 1 0 rfl rfl rfl
  have released := (returned.work 0 0 rfl rfl rfl).work 1 0 rfl rfl rfl
  have exited := (released.work 0 0 rfl rfl rfl).work 1 0 rfl rfl rfl
  refine ⟨_, exited, rfl, ?_⟩
  rintro p (_ | ⟨_, _ | ⟨_, ⟨⟩⟩⟩) worker (_ | ⟨_, ⟨⟩⟩)
  · rfl
  · rfl

theorem performs_adding (item : String) {past : List (Task.Exchange Action.signature)}
    {action : Action} {next : action.Answer → ActionTask EvalError (Option Value)}
    (follows : (Evaluation.perform (additionOf item)).Follows past (.ask action next)) :
    Evaluation.Performs (Node.execute 1 (adding item)) (⟨.stopRequested, false⟩ :: past)
      (additionOf item) action := by
  have polls : (Evaluation.perform (.poll : Evaluation.Request Block)).Follows
      [⟨.stopRequested, false⟩] (.done false) := .cons (.nil _)
  exact .later polls (.now follows)

theorem accessed_overlappingAdditions :
    Accessed 1 "shared" overlappingAdditions overlappingAccesses := by
  have started : Accessed 1 "shared" (overlappingAdditions.take 4) [] :=
    Accessed.nil.others (by decide)
  have read := started.access 0 0 (.get "shared") (some (.list [])) rfl rfl
    (performs_adding "a" (.nil _))
  have readBoth := read.access 1 0 (.get "shared") (some (.list [])) rfl rfl
    (performs_adding "b" (.nil _))
  have written := readBoth.access 0 0 (.replace "shared" (.list [.text "a"])) true rfl rfl
    (performs_adding "a" (.cons (.nil _)))
  have writtenBoth := written.access 1 0 (.replace "shared" (.list [.text "b"])) true rfl rfl
    (performs_adding "b" (.cons (.nil _)))
  have untouched : ∀ event ∈ overlappingAdditions.drop 8, ¬ event.Touches "shared" := by decide
  exact writtenBoth.others untouched

theorem isAdd_of_overlapping : ∀ a ∈ overlappingAccesses, a.IsAdd := by
  simp only [overlappingAccesses, List.forall_mem_cons]
  exact ⟨⟨_, _, rfl, rfl⟩, ⟨_, _, rfl, rfl⟩, ⟨_, _, rfl, rfl⟩, ⟨_, _, rfl, rfl⟩,
    List.forall_mem_nil _⟩

/-- The second addition has overtaken the first, and its item alone is in the list. -/
theorem additions_kept_overlapping : ∃ (r : Runtime Block) (kept : List (Nat × Value)),
    Path 1 (.ofRoots [adding "a", adding "b"] sharedList) overlappingAdditions r ∧
      Accessed 1 "shared" overlappingAdditions overlappingAccesses ∧
      r.environment.store.get? "shared" = some (.list [.text "b"]) ∧
      Keeps overlappingAccesses (.list []) (.list [.text "b"]) kept := by
  obtain ⟨r, path, stored, -⟩ := path_overlappingAdditions
  have accessed := accessed_overlappingAdditions
  obtain ⟨value, kept, same, keeps, -⟩ := additions_kept 1 [adding "a", adding "b"] sharedList
    "shared" (.list []) overlappingAdditions r overlappingAccesses rfl path accessed
    fun a mem _ => isAdd_of_overlapping a mem
  obtain rfl := Option.some.inj (stored.symm.trans same)
  exact ⟨r, kept, path, accessed, stored, keeps⟩

/-- Not every item that has been added is in the list when all runs have ended. -/
theorem addition_lost : ¬ ∀ (horizon : Nat) (roots : List (List (Node Block))) (e : Environment)
    (name : String) (items : List Value) (history : List (Event Block)) (r : Runtime Block)
    (accesses : List (Access Block)), e.store.get? name = some (.list items) →
    Path horizon (.ofRoots roots e) history r → Accessed horizon name history accesses →
    (∀ a ∈ accesses, a.IsAdd) →
    (∀ p ∈ r.programs, ∀ worker ∈ p.workers, ∃ result, worker = .ended result) →
    ∃ value, r.environment.store.get? name = some value ∧
      value.toList.Perm (items ++ (additions accesses).map (·.2)) := by
  intro complete
  obtain ⟨r, path, stored, ended⟩ := path_overlappingAdditions
  obtain ⟨value, same, perm⟩ := complete 1 _ sharedList "shared" [] _ r _ rfl path
    accessed_overlappingAdditions isAdd_of_overlapping
    fun p mem worker here => ⟨_, ended p mem worker here⟩
  obtain rfl := Option.some.inj (stored.symm.trans same)
  -- One item in the list, two that have been added.
  exact absurd perm.length_eq (by decide)

end

end BlockScript.Runtime
