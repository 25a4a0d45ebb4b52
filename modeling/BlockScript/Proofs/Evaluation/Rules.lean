import BlockScript.Proofs.Evaluation.Contract
import BlockScript.Proofs.Tree
import BlockScript.Run.Evaluation
import Mathlib.Data.List.Forall2

/-!
# Contracts of evaluation

`Contract.Admits` lists what a contract has to allow for the nodes of a tree, one field per rule of
evaluation.  `evaluate_obeys` and `execute_obeys` conclude that evaluating the tree keeps the
contract, and `evaluateInputs_obeys` that it computes one value per filled slot, of the kind that
the slot declares.
-/

namespace BlockScript

def SlotKind.Accepts (slot : SlotKind) (value : Value) : Prop :=
  ∀ kind, slot.valueKind? = some kind → value.kind = kind

theorem Value.accepts_convert (slot : SlotKind) (value : Value) :
    slot.Accepts (value.convert slot) := by
  cases slot <;> simp [SlotKind.Accepts, SlotKind.valueKind?, convert, kind]

variable {κ : Type} {c : Contract (Evaluation.signature κ) EvalError} {horizon : Nat}

namespace EvalTask

@[simp] theorem obeys_poll {post : Bool → Prop} : (poll : EvalTask κ Bool).Obeys c post ↔
    c.asks Evaluation.Request.poll ∧
      ∀ stop : Bool, c.answers Evaluation.Request.poll stop → post stop := Iff.rfl

@[simp] theorem obeys_lookup {name : String} {post : Option Value → Prop} :
    (lookup name : EvalTask κ (Option Value)).Obeys c post ↔
      c.asks (Evaluation.Request.lookup name) ∧ ∀ value : Option Value,
        c.answers (Evaluation.Request.lookup name) value → post value := Iff.rfl

@[simp] theorem obeys_invoke {k : κ} {args : Arguments} {post : Option Value → Prop} :
    (invoke k args).Obeys c post ↔
      c.asks (Evaluation.Request.invoke k args) ∧ ∀ output : Option Value,
        c.answers (Evaluation.Request.invoke k args) output → post output := Iff.rfl

theorem loop_obeys (poll : c.asks Evaluation.Request.poll) {condition : EvalTask κ Bool}
    {body : EvalTask κ Unit} (hc : condition.Obeys c fun _ => True)
    (hb : body.Obeys c fun _ => True) :
    (loop condition body horizon).Obeys c fun _ => True := by
  induction horizon with
  | zero => trivial
  | succ horizon ih =>
      simp only [loop, Task.bind_eq_bind, Task.obeys_bind, EvalTask.obeys_poll]
      refine ⟨poll, fun stop _ => ?_⟩
      cases stop with
      | true => trivial
      | false =>
          refine (Task.obeys_bind ..).2 (hc.imp fun holds _ => ?_)
          cases holds with
          | false => trivial
          | true => exact (Task.obeys_bind ..).2 (hb.imp fun _ _ => ih)

theorem flow_obeys (poll : c.asks Evaluation.Request.poll) {condition : EvalTask κ Bool}
    {bodies : List (EvalTask κ Unit)} (hc : condition.Obeys c fun _ => True)
    (hb : ∀ body ∈ bodies, body.Obeys c fun _ => True) (flow : Flow) :
    (EvalTask.flow horizon condition bodies flow).Obeys c fun _ => True := by
  have body (i : Nat) : (bodies.getD i (.done ())).Obeys c fun _ => True := by
    rw [List.getD_eq_getElem?_getD]
    cases found : bodies[i]? with
    | none => trivial
    | some body => exact hb body (List.mem_of_getElem? found)
  cases flow with
  | ifThen =>
      simp only [EvalTask.flow, Task.bind_eq_bind, Task.obeys_bind]
      refine hc.imp fun holds _ => ?_
      cases holds with
      | false => trivial
      | true => exact body 0
  | ifElse =>
      simp only [EvalTask.flow, Task.bind_eq_bind, Task.obeys_bind]
      refine hc.imp fun holds _ => ?_
      cases holds with
      | false => exact body 1
      | true => exact body 0
  | whileLoop => exact loop_obeys poll hc (body 0)

end EvalTask

variable [Vocabulary κ] {ok : Node κ → Prop}

structure Contract.Admits (c : Contract (Evaluation.signature κ) EvalError) (ok : Node κ → Prop) :
    Prop where
  poll : c.asks Evaluation.Request.poll
  nothing : ∀ slot, c.fails (.value (.nothingToConvert slot))
  lookup : ∀ {k name}, ok (.reference k name) → c.asks (Evaluation.Request.lookup name)
  missing : ∀ {k name}, ok (.reference k name) → c.answers (Evaluation.Request.lookup name) none →
    c.fails (.undefinedVariable name)
  invoke : ∀ {k inputs args}, ok (.block k inputs) →
    List.Forall₂ SlotKind.Accepts ((describe k).slots.take inputs.length) args →
    c.asks (Evaluation.Request.invoke k args)

namespace Node

theorem evaluateInputs_obeys (inputs : List (Input κ))
    (each : ∀ input ∈ inputs, ∀ slot, (evaluateInput horizon slot input).Obeys c slot.Accepts)
    (slots : List SlotKind) :
    (evaluateInputs horizon slots inputs).Obeys c
      (List.Forall₂ SlotKind.Accepts (slots.take inputs.length)) := by
  induction inputs generalizing slots with
  | nil => simp [evaluateInputs]
  | cons input rest ih =>
      cases slots with
      | nil => simp [evaluateInputs]
      | cons slot slots =>
          obtain ⟨first, others⟩ := List.forall_mem_cons.1 each
          simp only [evaluateInputs, Task.bind_eq_bind, Task.obeys_bind, Task.pure_eq_done,
            Task.obeys_done, List.length_cons, List.take_succ_cons]
          exact (first slot).imp fun value accepts =>
            (ih others slots).imp fun values rest => .cons accepts rest

theorem evaluateList_obeys (poll : c.asks Evaluation.Request.poll) (nodes : List (Node κ))
    (each : ∀ n ∈ nodes, (evaluate horizon n).Obeys c fun _ => True) :
    (evaluateList horizon nodes).Obeys c fun _ => True := by
  induction nodes with
  | nil => trivial
  | cons n rest ih =>
      obtain ⟨first, others⟩ := List.forall_mem_cons.1 each
      simp only [evaluateList, Task.bind_eq_bind, Task.obeys_bind, EvalTask.obeys_poll]
      refine ⟨poll, fun stop _ => ?_⟩
      cases stop with
      | true => trivial
      | false => exact (Task.obeys_bind ..).2 (first.imp fun _ _ => ih others)

theorem mem_evaluateBodies {bodies : List (List (Node κ))} {task : EvalTask κ Unit}
    (member : task ∈ evaluateBodies horizon bodies) :
    ∃ body ∈ bodies, task = evaluateList horizon body := by
  induction bodies with
  | nil => simp [evaluateBodies] at member
  | cons body rest ih =>
      rw [evaluateBodies] at member
      rcases List.mem_cons.1 member with rfl | member
      · exact ⟨body, List.mem_cons_self, rfl⟩
      · obtain ⟨body, mem, eq⟩ := ih member
        exact ⟨body, List.mem_cons_of_mem _ mem, eq⟩

theorem evaluateInput_obeys (admits : c.Admits ok) (input : Input κ)
    (node : ∀ n, input = .node n → (evaluate horizon n).Obeys c fun _ => True) (slot : SlotKind) :
    (evaluateInput horizon slot input).Obeys c slot.Accepts := by
  cases input with
  | literal value => exact Value.accepts_convert slot value
  | node n =>
      simp only [evaluateInput, Task.bind_eq_bind, Task.obeys_bind]
      refine (node n rfl).imp fun output _ => ?_
      cases output with
      | none => exact admits.nothing slot
      | some value => exact Value.accepts_convert slot value

theorem evaluate_obeys (admits : c.Admits ok) {n : Node κ} (every : n.Every ok) :
    (evaluate horizon n).Obeys c fun _ => True := by
  induction every with
  | @intro n here below ih =>
      have input (input : Input κ) (under : ∀ m, input = .node m → m ∈ n.children) :
          ∀ slot, (evaluateInput horizon slot input).Obeys c slot.Accepts :=
        evaluateInput_obeys admits input fun m eq => ih m (under m eq)
      cases n with
      | block k inputs =>
          simp only [evaluate, Task.bind_eq_bind, Task.obeys_bind, EvalTask.obeys_invoke]
          have values := evaluateInputs_obeys inputs (fun i mem => input i fun m eq =>
            List.mem_filterMap.2 ⟨_, eq ▸ mem, rfl⟩) (describe k).slots
          exact values.imp fun args fit => ⟨admits.invoke here fit, fun _ _ => trivial⟩
      | control k inputs bodies =>
          simp only [evaluate]
          split
          · next flow _ =>
            have values := evaluateInputs_obeys inputs (fun i mem => input i fun m eq =>
              List.mem_append_left _ (List.mem_filterMap.2 ⟨_, eq ▸ mem, rfl⟩)) (describe k).slots
            have lists : ∀ body ∈ evaluateBodies horizon bodies, body.Obeys c fun _ => True := by
              intro task member
              obtain ⟨body, mem, rfl⟩ := mem_evaluateBodies member
              exact evaluateList_obeys admits.poll body fun m inside =>
                ih m (List.mem_append_right _ (List.mem_flatten.2 ⟨body, mem, inside⟩))
            have condition : (conditionHolds <$> evaluateInputs horizon (describe k).slots
                inputs).Obeys c fun _ => True := .map (values.imp fun _ _ => trivial)
            simp only [Task.bind_eq_bind, Task.obeys_bind]
            exact (EvalTask.flow_obeys admits.poll condition lists flow).imp fun _ _ => trivial
          · trivial
      | reference k name =>
          simp only [evaluate, Task.bind_eq_bind, Task.obeys_bind, EvalTask.obeys_lookup]
          refine ⟨admits.lookup here, fun value answered => ?_⟩
          cases value with
          | none => exact admits.missing here answered
          | some value => trivial
      | declaration k => trivial
      | shadow k shadowed covered =>
          simp only [evaluate]
          rcases covered with _ | _ | m
          · trivial
          · trivial
          · exact ih m (by simp [children, Input.asNode?])

theorem execute_obeys (admits : c.Admits ok) {roots : List (Node κ)}
    (every : ∀ n ∈ roots, n.Every ok) : (execute horizon roots).Obeys c fun _ => True := by
  simp only [execute, Task.bind_eq_bind, Task.obeys_bind, EvalTask.obeys_poll]
  refine (evaluateList_obeys admits.poll roots fun n mem =>
    evaluate_obeys admits (every n mem)).imp fun _ _ => ⟨admits.poll, fun stop _ => ?_⟩
  cases stop <;> trivial

end Node

end BlockScript
