import BlockScript.Proofs.Catalog.Behaviors
import BlockScript.Proofs.Evaluation.Runs

/-!
# Arguments fit their slots

Evaluating a well-formed tree invokes blocks on one argument per slot, each of the kind that the
slot declares, and only blocks that have a behavior.  So a condition is always a boolean, and over
the catalog no run ends because an argument is missing or of a wrong kind
(`invocations_fit_slots`).
-/

namespace BlockScript

theorem Kind.behavior_of_category {kind : Kind}
    (plain : kind.category = .statement ∨ kind.category = .expression) :
    ∃ behavior, kind.behavior? = some behavior := by
  unfold Kind.category at plain
  unfold Kind.behavior?
  cases role : kind.role with
  | block behavior => exact ⟨behavior, rfl⟩
  | builtin builtin =>
      rw [role] at plain
      cases builtin <;> simp [Builtin.category] at plain

theorem Kind.role_of_control {kind : Kind} {flow : Flow} (control : kind.category = .control flow) :
    kind.role = .builtin (.control flow) := by
  unfold Kind.category at control
  cases role : kind.role with
  | block behavior => cases behavior <;> simp [role] at control
  | builtin builtin => cases builtin <;> simp_all [Builtin.category]

/-- Every kind of the vocabulary that has no behavior of its own is one of the built-in kinds as it
comes. -/
def Vocabulary.Constructed (κ : Type) [Vocabulary κ] : Prop :=
  ∀ (k : κ) (builtin : Builtin), (describe k).role = .builtin builtin → describe k = builtin.kind

theorem Catalog.constructed : Vocabulary.Constructed Catalog.Block := by
  intro block builtin role
  cases block with
  | operation op => cases op <;> cases role
  | signal signal => cases signal <;> cases role
  | builtin own =>
      obtain rfl : own = builtin := by
        rcases own with (_ | _ | _) | _ | _ | _ <;> exact Role.builtin.inj role
      rfl
  | _ => cases role

namespace Evaluation

def fitting (κ : Type) [Vocabulary κ] : Contract (signature κ) EvalError where
  asks
    | .invoke k args => List.Forall₂ SlotKind.Accepts (describe k).slots args ∧
        ∃ behavior, (describe k).behavior? = some behavior
    | _ => True
  answers _ _ := True
  fails e := (∃ name, e = .undefinedVariable name) ∨ ∃ slot, e = .value (.nothingToConvert slot)

variable {κ : Type} [Vocabulary κ]

theorem fitting_admits : (fitting κ).Admits fun n => n.fits = true where
  poll := trivial
  nothing slot := .inr ⟨slot, rfl⟩
  lookup _ := trivial
  missing _ _ := .inl ⟨_, rfl⟩
  invoke fits accepted := by
    obtain ⟨plain, length⟩ := Node.fits_block fits
    rw [length, List.take_length] at accepted
    exact ⟨accepted, Kind.behavior_of_category plain⟩

def failing (errors : EvalError → Prop) : Contract Action.signature EvalError where
  asks _ := True
  answers _ _ := True
  fails := errors

theorem fitting_meets {errors : EvalError → Prop}
    (undefined : ∀ name, errors (.undefinedVariable name))
    (nothing : ∀ slot, errors (.value (.nothingToConvert slot)))
    (behaves : ∀ {k : κ} {args behavior}, List.Forall₂ SlotKind.Accepts (describe k).slots args →
      (describe k).behavior? = some behavior →
      behavior.Obeys ((failing errors).within (.behavior (describe k).summary)) args) :
    Meets (fitting κ) (failing errors) where
  fails e own := by
    rcases own with ⟨name, rfl⟩ | ⟨slot, rfl⟩
    · exact undefined name
    · exact nothing slot
  get _ := trivial
  got _ _ := trivial
  poll := trivial
  polled := trivial
  behaves asked found := behaves asked.1 found
  lacking asked none := by
    obtain ⟨-, behavior, found⟩ := asked
    rw [none] at found
    cases found
  output := trivial

theorem error_of_runs {α : Type} {errors : EvalError → Prop} {task : EvalTask κ α}
    (meets : Meets (fitting κ) (failing errors)) (fits : task.Obeys (fitting κ) fun _ => True)
    {m m' : Machine} {e : EvalError} (runs : m.Runs (actions task) m' (.fail e)) : errors e :=
  (actions_obeys meets fits).of_leads runs.leads fun _ _ => trivial

structure FitsSlots {α : Type} (task : EvalTask κ α) : Prop where
  arguments : ∀ {k args resume}, task.Leads (.ask (Request.invoke k args) resume) →
    List.Forall₂ SlotKind.Accepts (describe k).slots args
  behavior : ∀ {m m' : Machine} {summary},
    ¬ m.Runs (actions task) m' (.fail (.missingBehavior summary))

theorem fitsSlots_of_obeys {α : Type} {task : EvalTask κ α}
    (fits : task.Obeys (fitting κ) fun _ => True) : FitsSlots task where
  arguments leads := (fits.of_leads leads fun _ _ => trivial).1.1
  behavior {m m' summary} runs := by
    have meets : Meets (fitting κ) (failing fun e => ∀ summary, e ≠ .missingBehavior summary) :=
      fitting_meets (fun _ _ => nofun) (fun _ _ => nofun) fun _ _ =>
        Behavior.obeys_of_permissive (fun _ => trivial) fun _ _ => nofun
    exact error_of_runs meets fits runs summary rfl

def FromCatalog : EvalError → Prop
  | .undefinedVariable _ => True
  | .value (.nothingToConvert _) => True
  | .behavior _ (.failed _) => True
  | _ => False

theorem catalog_meets : Meets (fitting Catalog.Block) (failing FromCatalog) := by
  refine fitting_meets (fun _ => trivial) (fun _ => trivial) fun {block args behavior} fit found => ?_
  refine (block.behavior_obeys args found).mono (fun _ _ => trivial) (fun _ _ _ => trivial) ?_
  intro e fails
  obtain ⟨failure, rfl⟩ := fails fit
  trivial

end Evaluation

namespace Node

variable {κ : Type} [Vocabulary κ]

/-- The values from which a control block takes its condition are a boolean and nothing else. -/
def ConditionIsBoolean (horizon : Nat) : Node κ → Prop
  | control k inputs _ => ∀ values,
      (evaluateInputs horizon (describe k).slots inputs).Leads (.done values) →
        ∃ b, values = [.boolean b]
  | _ => True

theorem eq_boolean_of_accepts {value : Value} (accepts : SlotKind.boolean.Accepts value) :
    ∃ b, value = .boolean b := by
  cases value with
  | boolean b => exact ⟨b, rfl⟩
  | _ => simp [SlotKind.Accepts, SlotKind.valueKind?, Value.kind] at accepts

theorem conditionIsBoolean (constructed : Vocabulary.Constructed κ) (horizon : Nat) {n : Node κ}
    (fits : n.Every fun m => m.fits = true) : n.ConditionIsBoolean horizon := by
  cases n with
  | control k inputs bodies =>
      intro values leads
      obtain ⟨here, each, -⟩ := every_control.1 fits
      obtain ⟨flow, control, length, -⟩ := fits_control here
      have slots : (describe k).slots = [.boolean] := by
        rw [constructed k _ (Kind.role_of_control control)]
        cases flow <;> rfl
      have computed : (evaluateInputs horizon (describe k).slots inputs).Obeys
          (Evaluation.fitting κ) (List.Forall₂ SlotKind.Accepts
            ((describe k).slots.take inputs.length)) :=
        evaluateInputs_obeys inputs (fun input mem =>
          evaluateInput_obeys Evaluation.fitting_admits input fun m eq =>
            evaluate_obeys Evaluation.fitting_admits (by simpa [eq] using each input mem)) _
      have accepted := computed.of_leads leads fun _ _ => trivial
      rw [Task.obeys_done, length, slots] at accepted
      obtain ⟨value, rest, accepts, none, rfl⟩ := List.forall₂_cons_left_iff.1 accepted
      obtain rfl := List.forall₂_nil_left_iff.1 none
      obtain ⟨b, rfl⟩ := eq_boolean_of_accepts accepts
      exact ⟨b, rfl⟩
  | _ => trivial

end Node

/-- In a well-formed tree over kinds as they are constructed, every invocation has one argument per
slot, of the kind that the slot declares, every condition is a boolean, and no block lacks a
behavior.  Over the catalog a run fails for an undefined variable, a slot that nothing fills, or a
block that gave up for a reason of its own. -/
theorem invocations_fit_slots :
    (∀ (κ : Type) [Vocabulary κ], Vocabulary.Constructed κ → ∀ horizon : Nat,
      (∀ n : Node κ, n.wellFormed = true →
        Evaluation.FitsSlots (n.evaluate horizon) ∧ n.Every (Node.ConditionIsBoolean horizon)) ∧
      ∀ roots : List (Node κ), Node.listWellFormed roots = true →
        Evaluation.FitsSlots (Node.execute horizon roots) ∧
          ∀ n ∈ roots, n.Every (Node.ConditionIsBoolean horizon)) ∧
    ∀ (horizon : Nat) (m m' : Machine) (e : EvalError),
      (∀ n : Node Catalog.Block, n.wellFormed = true →
        m.Runs (Evaluation.actions (n.evaluate horizon)) m' (.fail e) →
          Evaluation.FromCatalog e) ∧
      ∀ roots : List (Node Catalog.Block), Node.listWellFormed roots = true →
        m.Runs (Evaluation.actions (Node.execute horizon roots)) m' (.fail e) →
          Evaluation.FromCatalog e := by
  have evaluated {κ : Type} [Vocabulary κ] (horizon : Nat) {n : Node κ}
      (fits : n.Every fun m => m.fits = true) :
      (n.evaluate horizon).Obeys (Evaluation.fitting κ) fun _ => True :=
    Node.evaluate_obeys Evaluation.fitting_admits fits
  have executed {κ : Type} [Vocabulary κ] (horizon : Nat) {roots : List (Node κ)}
      (fits : ∀ n ∈ roots, n.Every fun m => m.fits = true) :
      (Node.execute horizon roots).Obeys (Evaluation.fitting κ) fun _ => True :=
    Node.execute_obeys Evaluation.fitting_admits fits
  refine ⟨fun κ _ constructed horizon => ⟨fun n wf => ?_, fun roots wf => ?_⟩,
    fun horizon m m' e => ⟨fun n wf runs => ?_, fun roots wf runs => ?_⟩⟩
  · have fits := (Node.wellFormed_iff_every n).1 wf
    exact ⟨Evaluation.fitsSlots_of_obeys (evaluated horizon fits),
      fits.sub fun m => Node.conditionIsBoolean constructed horizon⟩
  · have fits := Node.listWellFormed_iff_every.1 wf
    exact ⟨Evaluation.fitsSlots_of_obeys (executed horizon fits),
      fun n mem => (fits n mem).sub fun m => Node.conditionIsBoolean constructed horizon⟩
  · have fits := (Node.wellFormed_iff_every n).1 wf
    exact Evaluation.error_of_runs Evaluation.catalog_meets (evaluated horizon fits) runs
  · have fits := Node.listWellFormed_iff_every.1 wf
    exact Evaluation.error_of_runs Evaluation.catalog_meets (executed horizon fits) runs

section
open Catalog

def comparison : List (Node Block) :=
  [.control (.builtin (.control .ifThen))
    [.node (.block (.operation .less)
      [.literal (.text "2"), .node (.reference (.builtin .reference) "x")])]
    [[.block .assign [.literal (.integer 3), .literal (.boolean true)]]]]

theorem invocations_fit_slots_comparison :
    Vocabulary.Constructed Block ∧ Node.listWellFormed comparison = true ∧
    Evaluation.FitsSlots (Node.execute 1 comparison) ∧
    (∀ n ∈ comparison, n.Every (Node.ConditionIsBoolean 1)) ∧
    ∃ m' e, (Machine.bare .empty).Runs (Evaluation.actions (Node.execute 1 comparison)) m'
      (.fail e) ∧ Evaluation.FromCatalog e := by
  have wellFormed : Node.listWellFormed comparison = true := by decide
  obtain ⟨fits, conditions⟩ := (invocations_fit_slots.1 Block constructed 1).2 comparison wellFormed
  have run : (Machine.bare .empty).run (Evaluation.actions (Node.execute 1 comparison)) =
      (.failed (.undefinedVariable "x"), Machine.bare .empty) := rfl
  obtain ⟨t, runs, ending⟩ := Machine.runs_of_run run
  obtain ⟨e, rfl⟩ : ∃ e, t = .fail e := by
    cases t with
    | fail e => exact ⟨e, rfl⟩
    | _ => cases ending
  exact ⟨constructed, wellFormed, fits, conditions, _, e, runs,
    (invocations_fit_slots.2 1 _ _ e).2 comparison wellFormed runs⟩

end

end BlockScript
