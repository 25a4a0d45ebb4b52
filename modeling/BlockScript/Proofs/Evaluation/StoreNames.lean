import BlockScript.Proofs.Catalog.Behaviors
import BlockScript.Proofs.Evaluation.Runs

/-!
# Programs over the catalog create and remove no variables

No block of the catalog creates a variable, and none can remove one, so the names in the store are
the same at every point of a run, however it ends.  A lookup therefore finds a variable exactly when
the store held it at the start: a run fails for an undefined variable only if that variable was
absent from the beginning (`execute_keeps_names`).
-/

namespace BlockScript

theorem Machine.answer_keeps_names {m m' : Machine} {action : Action} {answer : action.Answer}
    (allowed : ∀ name value, action ≠ Action.define name value)
    (answers : m.answer action = some (answer, m')) : m'.store.names = m.store.names := by
  cases action with
  | define name value => exact absurd rfl (allowed name value)
  | replace name value =>
      obtain ⟨-, rfl⟩ := Prod.mk.inj (Option.some.inj answers)
      exact Table.names_replace m.store name value
  | sleep duration =>
      simp only [Machine.answer] at answers
      split at answers
      · obtain ⟨-, rfl⟩ := Prod.mk.inj (Option.some.inj answers)
        rfl
      · split at answers
        · cases answers
        · obtain ⟨-, rfl⟩ := Prod.mk.inj (Option.some.inj answers)
          rfl
  | _ =>
      obtain ⟨-, rfl⟩ := Prod.mk.inj (Option.some.inj answers)
      rfl

def Node.RefersTo {κ : Type} (referred : String → Prop) : Node κ → Prop
  | reference _ name => referred name
  | _ => True

namespace Evaluation

def Undefined (names : List String) (referred : String → Prop) (e : EvalError) : Prop :=
  ∀ name, e = .undefinedVariable name → referred name ∧ name ∉ names

def looking (κ : Type) (names : List String) (referred : String → Prop) :
    Contract (signature κ) EvalError where
  asks _ := True
  answers
    | .lookup name, value => value = none → name ∉ names
    | _, _ => True
  fails := Undefined names referred

def keeping (names : List String) (referred : String → Prop) :
    Contract Action.signature EvalError where
  asks action := ∀ name value, action ≠ Action.define name value
  answers
    | .get name, value => value = none → name ∉ names
    | _, _ => True
  fails := Undefined names referred

theorem looking_admits {κ : Type} [Vocabulary κ] (names : List String) (referred : String → Prop) :
    (looking κ names referred).Admits (Node.RefersTo referred) where
  poll := trivial
  nothing _ := nofun
  lookup _ := trivial
  missing refers absent := by
    intro name eq
    cases eq
    exact ⟨refers, absent rfl⟩
  invoke _ _ := trivial

theorem looking_meets (names : List String) (referred : String → Prop) :
    Meets (looking Catalog.Block names referred) (keeping names referred) where
  fails _ := id
  get _ := fun _ _ => nofun
  got _ absent := absent
  poll := fun _ _ => nofun
  polled := trivial
  behaves {block args _} _ found :=
    (block.behavior_obeys args found).mono (fun _ => id) (fun _ _ _ => trivial)
      fun _ _ _ => nofun
  lacking _ _ := nofun
  output := trivial

variable {horizon : Nat} {roots : List (Node Catalog.Block)} {m m' : Machine}
  {t : ActionTask EvalError Outcome}

theorem runs_keep_names {referred : String → Prop}
    (refers : ∀ n ∈ roots, n.Every (Node.RefersTo referred))
    (runs : m.Runs (actions (Node.execute horizon roots)) m' t) :
    m'.store.names = m.store.names ∧ t.Obeys (keeping m.store.names referred) fun _ => True := by
  have obeys : (actions (Node.execute horizon roots)).Obeys (keeping m.store.names referred)
      fun _ => True :=
    actions_obeys (looking_meets m.store.names referred)
      (Node.execute_obeys (looking_admits m.store.names referred) refers)
  refine runs.obeys (fun later => later.store.names = m.store.names) ?_ ?_ ?_ rfl obeys
  · intro m₁ m₂ action answer same allowed answers
    refine ⟨?_, (Machine.answer_keeps_names allowed answers).trans same⟩
    cases action with
    | get name =>
        obtain ⟨rfl, rfl⟩ := Prod.mk.inj (Option.some.inj answers)
        exact fun none => same ▸ Table.get?_eq_none_iff.1 none
    | _ => trivial
  · exact fun same => same
  · exact fun _ same => same

theorem undefined_of_runs {referred : String → Prop}
    (refers : ∀ n ∈ roots, n.Every (Node.RefersTo referred))
    (runs : m.Runs (actions (Node.execute horizon roots)) m' t) {name : String}
    (failed : t.ending = .failed (.undefinedVariable name)) :
    referred name ∧ name ∉ m.store.names := by
  obtain ⟨-, obeys⟩ := runs_keep_names refers runs
  cases t with
  | fail e => exact obeys name (Ending.failed.inj failed)
  | _ => cases failed

end Evaluation

structure KeepsNames (roots : List (Node Catalog.Block)) (m : Machine)
    (ending : Ending EvalError Outcome) (m' : Machine) : Prop where
  names : m'.store.names = m.store.names
  defined : (∀ n ∈ roots, n.Every (Node.RefersTo (· ∈ m.store.names))) →
    ∀ name, ending ≠ .failed (.undefinedVariable name)
  absent : ∀ name, ending = .failed (.undefinedVariable name) → name ∉ m.store.names

/-- Every run of a program over the catalog, of any length and with any ending, leaves the names of
the store as they were. -/
theorem execute_keeps_names (horizon : Nat) (roots : List (Node Catalog.Block)) (m : Machine) :
    (∀ m' t, m.Runs (Evaluation.actions (Node.execute horizon roots)) m' t →
      KeepsNames roots m t.ending m') ∧
    ∀ ending m', m.run (Evaluation.actions (Node.execute horizon roots)) = (ending, m') →
      KeepsNames roots m ending m' := by
  have every : ∀ m' t, m.Runs (Evaluation.actions (Node.execute horizon roots)) m' t →
      KeepsNames roots m t.ending m' := by
    intro m' t runs
    have anywhere : ∀ n ∈ roots, n.Every (Node.RefersTo fun _ => True) :=
      fun n _ => Node.every_of_forall (fun m => by cases m <;> trivial) n
    refine ⟨(Evaluation.runs_keep_names anywhere runs).1, ?_, ?_⟩
    · intro refers name failed
      obtain ⟨present, absent⟩ := Evaluation.undefined_of_runs refers runs failed
      exact absent present
    · intro name failed
      exact (Evaluation.undefined_of_runs anywhere runs failed).2
  refine ⟨every, fun ending m' run => ?_⟩
  obtain ⟨t, runs, rfl⟩ := Machine.runs_of_run run
  exact every m' t runs

section
open Catalog

def assignments : List (Node Block) :=
  [.block .assign [.literal (.text "x"), .literal (.integer 2)],
    .block .assign [.literal (.text "z"), .literal (.integer 3)],
    .block .assign [.literal (.text "x"), .node (.reference (.builtin .reference) "y")]]

theorem execute_keeps_names_assignments :
    ∃ m', (Machine.bare (.ofList [("x", .integer 1)])).run
        (Evaluation.actions (Node.execute 1 assignments)) = (.failed (.undefinedVariable "y"), m') ∧
      KeepsNames assignments (Machine.bare (.ofList [("x", .integer 1)]))
        (.failed (.undefinedVariable "y")) m' ∧
      m'.store.get? "x" = some (.integer 2) := by
  refine ⟨_, rfl, (execute_keeps_names 1 assignments _).2 _ _ rfl, rfl⟩

end

end BlockScript
