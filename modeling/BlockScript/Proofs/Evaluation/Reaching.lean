import BlockScript.Proofs.Evaluation.Sequencing

/-!
# Coming to a node inside of another

`Reaches` says how the evaluation of a node comes to one inside of it, through slots, conditions,
statement lists and rounds of loops, and what has been invoked on the way.  What is reached is handed
over to (`HandsOver`): from there on the outer evaluation does what the inner one does, and if that
fails, so does the outer one, with the same error and in the same state (`HandsOver.failed`).
-/

namespace BlockScript

variable {S κ α β γ : Type} [Vocabulary κ]
  {answer : (action : Action) → S → Option (action.Answer × S)} {stop : S → Bool}

namespace Evaluation

/-! ## Handing over -/

/-- From a state, the first evaluation goes through some invocations and from then on does what the
second one does in another state, before whatever comes next. -/
def HandsOver (answer : (action : Action) → S → Option (action.Answer × S)) (t : EvalTask κ α)
    (s : S) (log : List (Invocation κ S)) (u : EvalTask κ β) (s' : S) : Prop :=
  ∃ next : β → EvalTask κ α,
    Task.run answer (actions t) s = Task.run answer (actions (u.bind next)) s' ∧
    invocations answer t s = log ++ invocations answer (u.bind next) s'

namespace HandsOver

variable {t : EvalTask κ α} {u : EvalTask κ β} {v : EvalTask κ γ} {s s₁ s' : S}
  {log log' : List (Invocation κ S)}

theorem refl (t : EvalTask κ α) (s : S) : HandsOver answer t s [] t s :=
  ⟨.done, by rw [Task.bind_done], by rw [Task.bind_done, List.nil_append]⟩

theorem bind (h : HandsOver answer t s log v s') (f : α → EvalTask κ β) :
    HandsOver answer (t.bind f) s log v s' := by
  obtain ⟨next, ran, invoked⟩ := h
  refine ⟨fun c => (next c).bind f, ?_, ?_⟩
  · rw [← Task.bind_bind, run_bind, run_bind, ran]
  · rw [← Task.bind_bind, invocations_bind, invocations_bind, ran, invoked, List.append_assoc]

theorem after {a : α} {f : α → EvalTask κ β} (ran : Task.run answer (actions t) s = (.done a, s₁))
    (h : HandsOver answer (f a) s₁ log v s') :
    HandsOver answer (t.bind f) s (invocations answer t s ++ log) v s' := by
  obtain ⟨next, later, invoked⟩ := h
  refine ⟨next, ?_, ?_⟩
  · rw [run_bind, ran]
    exact later
  · rw [invocations_bind, ran, List.append_assoc, ← invoked]
    rfl

theorem trans (first : HandsOver answer t s log u s₁) (second : HandsOver answer u s₁ log' v s') :
    HandsOver answer t s (log ++ log') v s' := by
  obtain ⟨next, ran, invoked⟩ := first
  obtain ⟨next', ran', invoked'⟩ := second.bind next
  exact ⟨next', ran.trans ran', by rw [invoked, invoked', List.append_assoc]⟩

theorem polled (alone : Alone answer stop) {f : Bool → EvalTask κ α} (going : stop s = false)
    (h : HandsOver answer (f false) s log v s') :
    HandsOver answer (EvalTask.poll.bind f) s log v s' := by
  obtain ⟨next, ran, invoked⟩ := h
  refine ⟨next, ?_, ?_⟩
  · exact (run_poll (going ▸ alone.polled s) f).trans ran
  · exact (invocations_poll alone f s).trans (going ▸ invoked)

theorem failed (h : HandsOver answer t s log u s₁) {e : EvalError}
    (fails : Task.run answer (actions u) s₁ = (.failed e, s')) :
    Task.run answer (actions t) s = (.failed e, s') ∧
      invocations answer t s = log ++ invocations answer u s₁ := by
  obtain ⟨next, ran, invoked⟩ := h
  constructor
  · rw [ran, run_bind, fails]
    rfl
  · rw [invoked, invocations_bind, fails]
    exact congrArg (log ++ ·) (List.append_nil _)

theorem failed_of_fail {e : EvalError} (h : HandsOver answer t s log (.fail e : EvalTask κ β) s') :
    Task.run answer (actions t) s = (.failed e, s') ∧ invocations answer t s = log := by
  obtain ⟨ran, invoked⟩ := h.failed rfl
  exact ⟨ran, invoked.trans (List.append_nil log)⟩

end HandsOver

/-! ## Rounds and conditions -/

/-- Whole rounds of a loop: each begins without a stop being requested and with a condition that
holds, and is over with the body. -/
inductive Rounds (answer : (action : Action) → S → Option (action.Answer × S)) (stop : S → Bool)
    (condition : EvalTask κ Bool) (body : EvalTask κ Unit) :
    Nat → S → List (Invocation κ S) → S → Prop where
  | none (s : S) : Rounds answer stop condition body 0 s [] s
  | more {s s₁ s₂ s' : S} {count : Nat} {log : List (Invocation κ S)} (going : stop s = false)
      (holds : Task.run answer (actions condition) s = (.done true, s₁))
      (ran : Task.run answer (actions body) s₁ = (.done (), s₂))
      (later : Rounds answer stop condition body count s₂ log s') :
      Rounds answer stop condition body (count + 1) s
        (invocations answer condition s ++ (invocations answer body s₁ ++ log)) s'

inductive Tests (answer : (action : Action) → S → Option (action.Answer × S)) (stop : S → Bool)
    (horizon : Nat) (condition : EvalTask κ Bool) (body : EvalTask κ Unit) :
    Flow → S → List (Invocation κ S) → S → Prop where
  | once {flow : Flow} (branches : flow ≠ .whileLoop) (s : S) :
      Tests answer stop horizon condition body flow s [] s
  | round {s s' : S} {count : Nat} {log : List (Invocation κ S)} (within : count < horizon)
      (rounds : Rounds answer stop condition body count s log s') (going : stop s' = false) :
      Tests answer stop horizon condition body .whileLoop s log s'

end Evaluation

def Flow.chosen? : Flow → Bool → Option Nat
  | _, true => some 0
  | .ifElse, false => some 1
  | .ifThen, false | .whileLoop, false => none

namespace Evaluation

variable {condition : EvalTask κ Bool} {body : EvalTask κ Unit} {bodies : List (EvalTask κ Unit)}
  {horizon : Nat} {flow : Flow} {s s' : S} {log : List (Invocation κ S)}

theorem Rounds.handsOver (alone : Alone answer stop) {count : Nat}
    (rounds : Rounds answer stop condition body count s log s') (within : count < horizon)
    (going : stop s' = false) : ∃ further,
      HandsOver answer (EvalTask.loop condition body horizon) s log
        (condition.bind fun holds => if holds then body.bind fun _ => further else .done ()) s' := by
  induction rounds generalizing horizon with
  | none s =>
      obtain ⟨horizon, rfl⟩ : ∃ n, horizon = n + 1 := ⟨horizon - 1, by omega⟩
      exact ⟨EvalTask.loop condition body horizon, .polled alone going (.refl _ s)⟩
  | @more s s₁ s₂ s' count log going' holds ran _ ih =>
      obtain ⟨horizon, rfl⟩ : ∃ n, horizon = n + 1 := ⟨horizon - 1, by omega⟩
      obtain ⟨further, h⟩ := ih (Nat.lt_of_succ_lt_succ within) going
      exact ⟨further, .polled alone going' (.after holds (.after ran h))⟩

theorem Tests.handsOver (alone : Alone answer stop)
    (tests : Tests answer stop horizon condition (bodies.getD 0 (.done ())) flow s log s') :
    ∃ rest : Bool → EvalTask κ Unit,
      HandsOver answer (EvalTask.flow horizon condition bodies flow) s log (condition.bind rest) s' ∧
      ∀ holds index, flow.chosen? holds = some index →
        ∃ further, rest holds = (bodies.getD index (.done ())).bind further := by
  cases tests with
  | once branches s =>
      cases flow with
      | ifThen =>
          refine ⟨_, .refl _ s, fun holds index chosen => ⟨.done, ?_⟩⟩
          cases holds with
          | true =>
              cases chosen
              exact (Task.bind_done _).symm
          | false => cases chosen
      | ifElse =>
          refine ⟨_, .refl _ s, fun holds index chosen => ⟨.done, ?_⟩⟩
          cases holds <;> cases chosen <;> exact (Task.bind_done _).symm
      | whileLoop => exact absurd rfl branches
  | round within rounds going =>
      obtain ⟨further, h⟩ := rounds.handsOver alone within going
      refine ⟨_, h, fun holds index chosen => ⟨fun _ => further, ?_⟩⟩
      cases holds with
      | true =>
          cases chosen
          rfl
      | false => cases chosen

end Evaluation

namespace Node

open Evaluation

/-! ## Nodes -/

variable {horizon : Nat}

def tested (horizon : Nat) (k : κ) (inputs : List (Input κ)) : EvalTask κ Bool :=
  conditionHolds <$> evaluateInputs horizon (describe k).slots inputs

def bodyTask (horizon : Nat) (bodies : List (List (Node κ))) (index : Nat) : EvalTask κ Unit :=
  evaluateList horizon (bodies.getD index [])

mutual

inductive Reaches (answer : (action : Action) → S → Option (action.Answer × S)) (stop : S → Bool)
    (horizon : Nat) : Node κ → S → List (Invocation κ S) → Node κ → S → Prop where
  | here (n : Node κ) (s : S) : Reaches answer stop horizon n s [] n s
  | input {k : κ} {inputs : List (Input κ)} {m : Node κ} {s s' : S} {log : List (Invocation κ S)}
      (reaches : InputsReach answer stop horizon (describe k).slots inputs s log m s') :
      Reaches answer stop horizon (.block k inputs) s log m s'
  | condition {k : κ} {flow : Flow} {inputs : List (Input κ)} {bodies : List (List (Node κ))}
      {m : Node κ} {s s₁ s' : S} {log log' : List (Invocation κ S)}
      (described : (describe k).category = .control flow)
      (tests : Tests answer stop horizon (tested horizon k inputs) (bodyTask horizon bodies 0)
        flow s log s₁)
      (reaches : InputsReach answer stop horizon (describe k).slots inputs s₁ log' m s') :
      Reaches answer stop horizon (.control k inputs bodies) s (log ++ log') m s'
  | body {k : κ} {flow : Flow} {inputs : List (Input κ)} {bodies : List (List (Node κ))}
      {m : Node κ} {s s₁ s₂ s' : S} {log log' : List (Invocation κ S)} {holds : Bool} {index : Nat}
      (described : (describe k).category = .control flow)
      (tests : Tests answer stop horizon (tested horizon k inputs) (bodyTask horizon bodies 0)
        flow s log s₁)
      (told : Task.run answer (actions (tested horizon k inputs)) s₁ = (.done holds, s₂))
      (chosen : flow.chosen? holds = some index)
      (reaches : ListReach answer stop horizon (bodies.getD index []) s₂ log' m s') :
      Reaches answer stop horizon (.control k inputs bodies) s
        (log ++ (invocations answer (tested horizon k inputs) s₁ ++ log')) m s'
  | covered {k : κ} {shadowed : Option (Node κ)} {n m : Node κ} {s s' : S}
      {log : List (Invocation κ S)} (reaches : Reaches answer stop horizon n s log m s') :
      Reaches answer stop horizon (.shadow k shadowed (some (.node n))) s log m s'

inductive InputsReach (answer : (action : Action) → S → Option (action.Answer × S))
    (stop : S → Bool) (horizon : Nat) :
    List SlotKind → List (Input κ) → S → List (Invocation κ S) → Node κ → S → Prop where
  | among {slots : List SlotKind} (before : List (Input κ)) {after : List (Input κ)} {n m : Node κ}
      {s s₁ s' : S} {values : List Value} {log : List (Invocation κ S)}
      (declared : before.length < slots.length)
      (evaluated : Task.run answer (actions (evaluateInputs horizon slots before)) s =
        (.done values, s₁))
      (reaches : Reaches answer stop horizon n s₁ log m s') :
      InputsReach answer stop horizon slots (before ++ .node n :: after) s
        (invocations answer (evaluateInputs horizon slots before) s ++ log) m s'

/-- The nodes before the one that is come to have been evaluated, and no stop is requested. -/
inductive ListReach (answer : (action : Action) → S → Option (action.Answer × S)) (stop : S → Bool)
    (horizon : Nat) : List (Node κ) → S → List (Invocation κ S) → Node κ → S → Prop where
  | among (before : List (Node κ)) {after : List (Node κ)} {n m : Node κ} {s s₁ s' : S}
      {log log' : List (Invocation κ S)} (visits : Visits answer horizon before s log s₁)
      (going : stop s₁ = false) (reaches : Reaches answer stop horizon n s₁ log' m s') :
      ListReach answer stop horizon (before ++ n :: after) s (log ++ log') m s'

end

theorem getD_evaluateBodies (bodies : List (List (Node κ))) (index : Nat) :
    (evaluateBodies horizon bodies).getD index (.done ()) = bodyTask horizon bodies index := by
  induction bodies generalizing index with
  | nil => rfl
  | cons body rest ih =>
      cases index with
      | zero => rfl
      | succ index => exact ih index

theorem evaluate_control {k : κ} {flow : Flow} (described : (describe k).category = .control flow)
    (inputs : List (Input κ)) (bodies : List (List (Node κ))) :
    evaluate horizon (.control k inputs bodies) =
      (EvalTask.flow horizon (tested horizon k inputs) (evaluateBodies horizon bodies) flow).bind
        fun _ => .done none := by
  rw [evaluate, described]
  rfl

theorem evaluateInputs_append (slots : List SlotKind) (inputs rest : List (Input κ)) :
    evaluateInputs horizon slots (inputs ++ rest) =
      (evaluateInputs horizon slots inputs).bind fun values =>
        (evaluateInputs horizon (slots.drop inputs.length) rest).bind fun others =>
          .done (values ++ others) := by
  induction inputs generalizing slots with
  | nil => exact (Task.bind_done _).symm
  | cons input later ih =>
      cases slots with
      | nil => cases rest <;> rfl
      | cons slot slots =>
          simp only [List.cons_append, evaluateInputs, ih, Task.bind_eq_bind, Task.pure_eq_done,
            Task.bind_bind, List.length_cons, List.drop_succ_cons]
          rfl

theorem evaluateInputs_node {slot : SlotKind} (slots : List SlotKind) (n : Node κ)
    (rest : List (Input κ)) :
    evaluateInputs horizon (slot :: slots) (.node n :: rest) =
      (evaluate horizon n).bind fun output =>
        (Task.ofExcept ((Value.convertOutput slot output).mapError .value)).bind fun value =>
          (evaluateInputs horizon slots rest).bind fun values => .done (value :: values) := by
  simp only [evaluateInputs, evaluateInput, Task.bind_eq_bind, Task.pure_eq_done, Task.bind_bind]
  congr 1
  funext output
  cases Value.convertOutput slot output <;> rfl

theorem Visits.invocations {roots : List (Node κ)} {s s' : S} {log : List (Invocation κ S)}
    (alone : Alone answer stop) (visits : Visits answer horizon roots s log s')
    (ends : stop s' = false) :
    Evaluation.invocations answer (evaluateList horizon roots) s = log := by
  induction visits with
  | nil => rfl
  | @cons n rest s s₁ s₂ output log evaluated later ih =>
      have unrequested := (Visits.cons evaluated later).unrequested alone ends
      rw [invocations_evaluateList_cons alone n rest unrequested, evaluated]
      exact congrArg (Evaluation.invocations answer (evaluate horizon n) s ++ ·) (ih ends)

theorem Visits.handsOver {nodes : List (Node κ)} {s s' : S} {log : List (Invocation κ S)}
    (alone : Alone answer stop) (visits : Visits answer horizon nodes s log s')
    (going : stop s' = false) (rest : List (Node κ)) :
    HandsOver answer (evaluateList horizon (nodes ++ rest)) s log (evaluateList horizon rest) s' := by
  have whole : Sequenced answer stop (evaluateList horizon (nodes ++ rest))
      (evaluateList horizon nodes) (evaluateList horizon rest) () s :=
    sequenced_list alone nodes rest s
  refine ⟨.done, ?_, ?_⟩
  · rw [whole.run, visits.run alone going, Task.bind_done]
    simp [Ending.andThen, going]
  · rw [whole.log, visits.run alone going, visits.invocations alone going, Task.bind_done]
    simp [Ending.thenLog, going]

mutual

theorem Reaches.handsOver (alone : Alone answer stop) {n m : Node κ} {s s' : S}
    {log : List (Invocation κ S)} : Reaches answer stop horizon n s log m s' →
      HandsOver answer (evaluate horizon n) s log (evaluate horizon m) s'
  | .here n s => .refl _ s
  | .input reaches => by
      simp only [evaluate]
      exact (reaches.handsOver alone).bind _
  | .condition described tests reaches => by
      rw [evaluate_control described]
      rw [← getD_evaluateBodies] at tests
      obtain ⟨rest, comes, -⟩ := tests.handsOver alone
      exact (comes.trans (((reaches.handsOver alone).bind _).bind rest)).bind _
  | .body described tests told chosen reaches => by
      rw [evaluate_control described]
      rw [← getD_evaluateBodies] at tests
      obtain ⟨rest, comes, goesOn⟩ := tests.handsOver alone
      obtain ⟨further, eq⟩ := goesOn _ _ chosen
      refine (comes.trans (.after told ?_)).bind _
      rw [eq, getD_evaluateBodies]
      exact (reaches.handsOver alone).bind further
  | .covered reaches => by
      simp only [evaluate, evaluateCovered]
      exact reaches.handsOver alone

theorem InputsReach.handsOver (alone : Alone answer stop) {slots : List SlotKind}
    {inputs : List (Input κ)} {m : Node κ} {s s' : S} {log : List (Invocation κ S)} :
    InputsReach answer stop horizon slots inputs s log m s' →
      HandsOver answer (evaluateInputs horizon slots inputs) s log (evaluate horizon m) s'
  | .among _ declared evaluated reaches => by
      rw [evaluateInputs_append, List.drop_eq_getElem_cons declared, evaluateInputs_node]
      exact .after evaluated (((reaches.handsOver alone).bind _).bind _)

theorem ListReach.handsOver (alone : Alone answer stop) {nodes : List (Node κ)} {m : Node κ}
    {s s' : S} {log : List (Invocation κ S)} : ListReach answer stop horizon nodes s log m s' →
      HandsOver answer (evaluateList horizon nodes) s log (evaluate horizon m) s'
  | .among _ visits going reaches =>
      (visits.handsOver alone going _).trans
        (.polled alone going ((reaches.handsOver alone).bind _))

end

end Node

end BlockScript
