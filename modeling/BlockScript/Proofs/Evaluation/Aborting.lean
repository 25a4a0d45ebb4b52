import BlockScript.Catalog.Standard
import BlockScript.Proofs.Evaluation.Reaching

/-!
# Errors at any depth

A node that fails ends the whole program, wherever it stands (`ListReach.failed`).  Conversely a
program that fails has come to a node that raises the error by itself, in one of four ways
(`Raises`, `hasOrigin`).  `Effects` says of the invocations of a run that it has no other effects.
`execute_append_aborts` puts this together with the law of sequences.
-/

namespace BlockScript

variable {S κ α β : Type} [Vocabulary κ]
  {answer : (action : Action) → S → Option (action.Answer × S)} {stop : S → Bool}

def LookupsOnlyLook (answer : (action : Action) → S → Option (action.Answer × S)) : Prop :=
  ∀ name s, ∃ value : Option Value, answer (.get name) s = some (value, s)

theorem Machine.lookupsOnlyLook : LookupsOnlyLook Machine.answer :=
  fun name m => ⟨m.store.get? name, rfl⟩

namespace Evaluation

/-! ## Effects -/

/-- Invocations one after the other, each in the state that the one before it left; all but the last
have succeeded. They lead from the first state to the second. -/
inductive Effects (answer : (action : Action) → S → Option (action.Answer × S)) :
    S → List (Invocation κ S) → S → Prop where
  | nil (s : S) : Effects answer s [] s
  | last {k : κ} {args : Arguments} {s s' : S} {ending : Ending EvalError (Option Value)}
      (served : serve answer (.invoke k args) s = (ending, s')) :
      Effects answer s [⟨k, args, s, s'⟩] s'
  | cons {k : κ} {args : Arguments} {s s₁ s' : S} {output : Option Value}
      {log : List (Invocation κ S)}
      (served : serve answer (.invoke k args) s = (.done output, s₁))
      (later : Effects answer s₁ log s') : Effects answer s (⟨k, args, s, s₁⟩ :: log) s'

theorem effects_of_run (alone : Alone answer stop) (looks : LookupsOnlyLook answer)
    (t : EvalTask κ α) (s : S) :
    Effects answer s (invocations answer t s) (Task.run answer (actions t) s).2 := by
  induction t generalizing s with
  | ask request resume ih =>
      rw [run_ask, invocations]
      cases request with
      | lookup name =>
          obtain ⟨value, looked⟩ := looks name s
          have served : serve (κ := κ) answer (.lookup name) s = (.done value, s) :=
            @Task.run_answered Action.signature EvalError (Option Value) S answer (.get name) .done s
              _ looked
          rw [served]
          exact ih value s
      | poll =>
          rw [serve_poll alone]
          exact ih (stop s) s
      | invoke k args =>
          rcases served : serve answer (.invoke k args) s with ⟨ending, s'⟩
          cases ending with
          | done output => exact .cons served (ih output s')
          | failed | crashed | unfinished => exact .last served
  | _ => exact .nil s

/-! ## Where errors come from -/

theorem run_lookup (answer : (action : Action) → S → Option (action.Answer × S)) (name : String)
    (s : S) :
    (∃ (value : Option Value) (s' : S), answer (.get name) s = some (value, s') ∧
      Task.run answer (actions (EvalTask.lookup name : EvalTask κ (Option Value))) s =
        (.done value, s')) ∨
    Task.run answer (actions (EvalTask.lookup name : EvalTask κ (Option Value))) s =
      (.unfinished, s) := by
  have asked : Task.run answer (actions (EvalTask.lookup name : EvalTask κ (Option Value))) s =
      serve answer (.lookup name) s := run_request (.lookup name) s
  rcases @Task.run_ask Action.signature EvalError (Option Value) S answer (.get name) .done s with
    ⟨value, s', found, next⟩ | ⟨-, stuck⟩
  · exact .inl ⟨value, s', found, asked.trans next⟩
  · exact .inr (asked.trans stuck)

theorem failed_of_bind {t : EvalTask κ α} {f : α → EvalTask κ β} {s s' : S} {e : EvalError}
    (fails : Task.run answer (actions (t.bind f)) s = (.failed e, s')) :
    Task.run answer (actions t) s = (.failed e, s') ∨
      ∃ a s₁, Task.run answer (actions t) s = (.done a, s₁) ∧
        Task.run answer (actions (f a)) s₁ = (.failed e, s') := by
  rw [run_bind] at fails
  rcases ran : Task.run answer (actions t) s with ⟨ending, s₁⟩
  rw [ran] at fails
  cases ending with
  | done a => exact .inr ⟨a, s₁, ran, fails⟩
  | failed e' =>
      obtain ⟨failed, rfl⟩ := Prod.mk.inj fails
      cases failed
      exact .inl ran
  | crashed | unfinished => cases (Prod.mk.inj fails).1

variable {condition : EvalTask κ Bool} {body : EvalTask κ Unit} {bodies : List (EvalTask κ Unit)}
  {horizon : Nat} {flow : Flow} {s s' : S} {e : EvalError}

theorem exists_round_of_failed (alone : Alone answer stop)
    (fails : Task.run answer (actions (EvalTask.loop condition body horizon)) s = (.failed e, s')) :
    ∃ count log s₁, count < horizon ∧ Rounds answer stop condition body count s log s₁ ∧
      stop s₁ = false ∧ (Task.run answer (actions condition) s₁ = (.failed e, s') ∨
        ∃ s₂, Task.run answer (actions condition) s₁ = (.done true, s₂) ∧
          Task.run answer (actions body) s₂ = (.failed e, s')) := by
  induction horizon generalizing s with
  | zero => cases (Prod.mk.inj fails).1
  | succ horizon ih =>
      have polled := (run_poll (alone.polled s) _).symm.trans fails
      cases going : stop s with
      | true =>
          rw [going] at polled
          cases (Prod.mk.inj polled).1
      | false =>
          rw [going] at polled
          have here : 0 < horizon + 1 := Nat.succ_pos horizon
          rcases failed_of_bind polled with tested | ⟨holds, s₁, told, later⟩
          · exact ⟨0, [], s, here, .none s, going, .inl tested⟩
          · cases holds with
            | false => cases (Prod.mk.inj later).1
            | true =>
                rcases failed_of_bind later with inBody | ⟨_, s₂, ran, later⟩
                · exact ⟨0, [], s, here, .none s, going, .inr ⟨s₁, told, inBody⟩⟩
                · obtain ⟨count, log, s₃, within, rounds, last⟩ := ih later
                  exact ⟨count + 1, _, s₃, Nat.succ_lt_succ within, .more going told ran rounds, last⟩

theorem exists_test_of_failed (alone : Alone answer stop)
    (fails : Task.run answer (actions (EvalTask.flow horizon condition bodies flow)) s =
      (.failed e, s')) :
    ∃ log s₁, Tests answer stop horizon condition (bodies.getD 0 (.done ())) flow s log s₁ ∧
      (Task.run answer (actions condition) s₁ = (.failed e, s') ∨
        ∃ holds index s₂, Task.run answer (actions condition) s₁ = (.done holds, s₂) ∧
          flow.chosen? holds = some index ∧
          Task.run answer (actions (bodies.getD index (.done ()))) s₂ = (.failed e, s')) := by
  cases flow with
  | ifThen =>
      refine ⟨[], s, .once (by decide) s, ?_⟩
      rcases failed_of_bind fails with tested | ⟨holds, s₁, told, later⟩
      · exact .inl tested
      · cases holds with
        | true => exact .inr ⟨true, 0, s₁, told, rfl, later⟩
        | false => cases (Prod.mk.inj later).1
  | ifElse =>
      refine ⟨[], s, .once (by decide) s, ?_⟩
      rcases failed_of_bind fails with tested | ⟨holds, s₁, told, later⟩
      · exact .inl tested
      · cases holds with
        | true => exact .inr ⟨true, 0, s₁, told, rfl, later⟩
        | false => exact .inr ⟨false, 1, s₁, told, rfl, later⟩
  | whileLoop =>
      obtain ⟨count, log, s₁, within, rounds, going, last⟩ := exists_round_of_failed alone fails
      refine ⟨log, s₁, .round within rounds going, last.imp_right ?_⟩
      rintro ⟨s₂, told, inBody⟩
      exact ⟨true, 0, s₂, told, rfl, inBody⟩

end Evaluation

namespace Node

open Evaluation

variable {horizon : Nat} {s s' : S} {e : EvalError}

theorem exists_visited_of_failed (alone : Alone answer stop) {nodes : List (Node κ)}
    (fails : Task.run answer (actions (evaluateList horizon nodes)) s = (.failed e, s')) :
    ∃ before n after log s₁, nodes = before ++ n :: after ∧ Visits answer horizon before s log s₁ ∧
      stop s₁ = false ∧ Task.run answer (actions (evaluate horizon n)) s₁ = (.failed e, s') := by
  induction nodes generalizing s with
  | nil => cases (Prod.mk.inj fails).1
  | cons n rest ih =>
      have polled := (run_poll (alone.polled s) _).symm.trans fails
      cases going : stop s with
      | true =>
          rw [going] at polled
          cases (Prod.mk.inj polled).1
      | false =>
          rw [going] at polled
          rcases failed_of_bind polled with here | ⟨output, s₁, evaluated, later⟩
          · exact ⟨[], n, rest, [], s, rfl, .nil s, going, here⟩
          · obtain ⟨before, m, after, log, s₂, rfl, visits, last⟩ := ih later
            exact ⟨n :: before, m, after, _, s₂, rfl, .cons evaluated visits, last⟩

inductive GivesNothing (answer : (action : Action) → S → Option (action.Answer × S))
    (horizon : Nat) :
    List SlotKind → List (Input κ) → S → List (Invocation κ S) → EvalError → S → Prop where
  | among {slots : List SlotKind} {before after : List (Input κ)} {n : Node κ} {slot : SlotKind}
      {values : List Value} {s s₁ s' : S} (declared : slots[before.length]? = some slot)
      (evaluated : Task.run answer (actions (evaluateInputs horizon slots before)) s =
        (.done values, s₁))
      (nothing : Task.run answer (actions (evaluate horizon n)) s₁ = (.done none, s')) :
      GivesNothing answer horizon slots (before ++ .node n :: after) s
        (invocations answer (evaluateInputs horizon slots before) s ++
          invocations answer (evaluate horizon n) s₁)
        (.value (.nothingToConvert slot)) s'

inductive Raises (answer : (action : Action) → S → Option (action.Answer × S)) (stop : S → Bool)
    (horizon : Nat) : Node κ → S → List (Invocation κ S) → EvalError → S → Prop where
  | undefined {k : κ} {name : String} {s s' : S}
      (unknown : answer (.get name) s = some (none, s')) :
      Raises answer stop horizon (.reference k name) s [] (.undefinedVariable name) s'
  | invoked {k : κ} {inputs : List (Input κ)} {args : Arguments} {s s₁ s' : S} {e : EvalError}
      (evaluated : Task.run answer (actions (evaluateInputs horizon (describe k).slots inputs)) s =
        (.done args, s₁))
      (fails : serve answer (.invoke k args) s₁ = (.failed e, s')) :
      Raises answer stop horizon (.block k inputs) s
        (invocations answer (evaluateInputs horizon (describe k).slots inputs) s ++
          [⟨k, args, s₁, s'⟩]) e s'
  | argument {k : κ} {inputs : List (Input κ)} {s s' : S} {log : List (Invocation κ S)}
      {e : EvalError} (nothing : GivesNothing answer horizon (describe k).slots inputs s log e s') :
      Raises answer stop horizon (.block k inputs) s log e s'
  | condition {k : κ} {flow : Flow} {inputs : List (Input κ)} {bodies : List (List (Node κ))}
      {s s₁ s' : S} {log log' : List (Invocation κ S)} {e : EvalError}
      (described : (describe k).category = .control flow)
      (tests : Tests answer stop horizon (tested horizon k inputs) (bodyTask horizon bodies 0)
        flow s log s₁)
      (nothing : GivesNothing answer horizon (describe k).slots inputs s₁ log' e s') :
      Raises answer stop horizon (.control k inputs bodies) s (log ++ log') e s'

theorem GivesNothing.handsOver {slots : List SlotKind} {inputs : List (Input κ)}
    {log : List (Invocation κ S)} (nothing : GivesNothing answer horizon slots inputs s log e s') :
    HandsOver answer (evaluateInputs horizon slots inputs) s log (.fail e : EvalTask κ Value) s' := by
  cases nothing with
  | @among before after n slot _ _ s₁ _ declared evaluated nothing =>
      obtain ⟨below, rfl⟩ := List.getElem?_eq_some_iff.1 declared
      have given : HandsOver answer (evaluateInputs horizon (slots.drop before.length)
          (.node n :: after)) s₁ (invocations answer (evaluate horizon n) s₁ ++ [])
          (.fail (.value (.nothingToConvert slots[before.length])) : EvalTask κ Value) s' := by
        rw [List.drop_eq_getElem_cons below, evaluateInputs_node]
        exact .after nothing ((HandsOver.refl _ _).bind _)
      rw [List.append_nil] at given
      rw [evaluateInputs_append]
      exact .after evaluated (given.bind _)

theorem Raises.failed (alone : Alone answer stop) {n : Node κ} {log : List (Invocation κ S)}
    (raises : Raises answer stop horizon n s log e s') :
    Task.run answer (actions (evaluate horizon n)) s = (.failed e, s') ∧
      invocations answer (evaluate horizon n) s = log := by
  cases raises with
  | @undefined k name _ _ unknown =>
      have told : Task.run answer (actions (EvalTask.lookup name : EvalTask κ (Option Value))) s =
          (.done none, s') := by
        refine (run_request (.lookup name) s).trans ?_
        exact @Task.run_answered Action.signature EvalError (Option Value) S answer (.get name)
          .done s _ unknown
      have comes : HandsOver answer (evaluate horizon (.reference k name)) s
          (invocations answer (EvalTask.lookup name) s ++ [])
          (.fail (.undefinedVariable name) : EvalTask κ (Option Value)) s' := by
        rw [evaluate]
        exact .after told (.refl _ s')
      have silent : invocations (κ := κ) answer (EvalTask.lookup name) s = [] :=
        invocations_request (.lookup name) s
      rw [silent] at comes
      exact comes.failed_of_fail
  | @invoked k inputs args _ s₁ _ _ evaluated fails =>
      have comes : HandsOver answer (evaluate horizon (.block k inputs)) s
          (invocations answer (evaluateInputs horizon (describe k).slots inputs) s ++ [])
          (EvalTask.invoke k args) s₁ := by
        rw [evaluate]
        exact .after evaluated (.refl _ s₁)
      have record : invocations answer (EvalTask.invoke k args) s₁ = [⟨k, args, s₁, s'⟩] := by
        refine (invocations_request (.invoke k args) s₁).trans ?_
        rw [fails]
        rfl
      rw [List.append_nil] at comes
      rw [← record]
      exact comes.failed ((run_request (.invoke k args) s₁).trans fails)
  | argument nothing =>
      rw [evaluate]
      exact (nothing.handsOver.bind _).failed_of_fail
  | condition described tests nothing =>
      rw [evaluate_control described]
      rw [← getD_evaluateBodies] at tests
      obtain ⟨rest, comes, -⟩ := tests.handsOver alone
      exact ((comes.trans ((nothing.handsOver.bind _).bind rest)).bind _).failed_of_fail

def FailsAmong (answer : (action : Action) → S → Option (action.Answer × S)) (horizon : Nat)
    (slots : List SlotKind) (inputs : List (Input κ)) (s : S) (e : EvalError) (s' : S) : Prop :=
  ∃ before n after slot values s₁, inputs = before ++ .node n :: after ∧
    slots[before.length]? = some slot ∧
    Task.run answer (actions (evaluateInputs horizon slots before)) s = (.done values, s₁) ∧
    (Task.run answer (actions (evaluate horizon n)) s₁ = (.failed e, s') ∨
      e = .value (.nothingToConvert slot) ∧
        Task.run answer (actions (evaluate horizon n)) s₁ = (.done none, s'))

theorem FailsAmong.cons {slot : SlotKind} {slots : List SlotKind} {input : Input κ}
    {rest : List (Input κ)} {value : Value} {s₁ : S}
    (first : Task.run answer (actions (evaluateInput horizon slot input)) s = (.done value, s₁))
    (later : FailsAmong answer horizon slots rest s₁ e s') :
    FailsAmong answer horizon (slot :: slots) (input :: rest) s e s' := by
  obtain ⟨before, n, after, slot', values, s₂, rfl, declared, evaluated, last⟩ := later
  refine ⟨input :: before, n, after, slot', value :: values, s₂, rfl, declared, ?_, last⟩
  refine (run_bind (evaluateInput horizon slot input) _ s).trans ?_
  rw [first]
  refine (run_bind (evaluateInputs horizon slots before) _ s₁).trans ?_
  rw [evaluated]
  rfl

theorem failsAmong_of_failed {slots : List SlotKind} {inputs : List (Input κ)}
    (fails : Task.run answer (actions (evaluateInputs horizon slots inputs)) s = (.failed e, s')) :
    FailsAmong answer horizon slots inputs s e s' := by
  induction inputs generalizing slots s with
  | nil => cases (Prod.mk.inj fails).1
  | cons input rest ih =>
      cases slots with
      | nil => cases (Prod.mk.inj fails).1
      | cons slot slots =>
          rcases failed_of_bind fails with here | ⟨value, s₁, first, rest⟩
          · cases input with
            | literal value => cases (Prod.mk.inj here).1
            | node n =>
                rcases failed_of_bind here with inside | ⟨output, s₁, evaluated, stuck⟩
                · exact ⟨[], n, rest, slot, [], s, rfl, rfl, rfl, .inl inside⟩
                · cases output with
                  | some value => cases (Prod.mk.inj stuck).1
                  | none =>
                      obtain ⟨failed, rfl⟩ := Prod.mk.inj stuck
                      cases failed
                      exact ⟨[], n, rest, slot, [], s, rfl, rfl, rfl, .inr ⟨rfl, evaluated⟩⟩
          · rcases failed_of_bind rest with rest | ⟨values, s₂, -, ended⟩
            · exact .cons first (ih rest)
            · cases (Prod.mk.inj ended).1

def HasOrigin (answer : (action : Action) → S → Option (action.Answer × S)) (stop : S → Bool)
    (horizon : Nat) (n : Node κ) : Prop :=
  ∀ s s' e, Task.run answer (actions (evaluate horizon n)) s = (.failed e, s') →
    ∃ log m s₁ log', Reaches answer stop horizon n s log m s₁ ∧
      Raises answer stop horizon m s₁ log' e s'

theorem exists_raises_of_inputs {slots : List SlotKind} {inputs : List (Input κ)}
    (each : ∀ n, .node n ∈ inputs → HasOrigin answer stop horizon n)
    (fails : Task.run answer (actions (evaluateInputs horizon slots inputs)) s = (.failed e, s')) :
    (∃ log m s₁ log', InputsReach answer stop horizon slots inputs s log m s₁ ∧
      Raises answer stop horizon m s₁ log' e s') ∨
    ∃ log, GivesNothing answer horizon slots inputs s log e s' := by
  obtain ⟨before, n, after, slot, values, s₁, rfl, declared, evaluated, failed | ⟨rfl, nothing⟩⟩ :=
    failsAmong_of_failed fails
  · obtain ⟨log, m, s₂, log', reaches, raises⟩ := each n (by simp) s₁ s' e failed
    obtain ⟨below, -⟩ := List.getElem?_eq_some_iff.1 declared
    exact .inl ⟨_, m, s₂, log', .among _ below evaluated reaches, raises⟩
  · exact .inr ⟨_, .among declared evaluated nothing⟩

theorem exists_raises_of_list (alone : Alone answer stop) {nodes : List (Node κ)}
    (each : ∀ n ∈ nodes, HasOrigin answer stop horizon n)
    (fails : Task.run answer (actions (evaluateList horizon nodes)) s = (.failed e, s')) :
    ∃ log m s₁ log', ListReach answer stop horizon nodes s log m s₁ ∧
      Raises answer stop horizon m s₁ log' e s' := by
  obtain ⟨before, n, after, log, s₁, rfl, visits, going, failed⟩ :=
    exists_visited_of_failed alone fails
  obtain ⟨log', m, s₂, log'', reaches, raises⟩ := each n (by simp) s₁ s' e failed
  exact ⟨_, m, s₂, log'', .among _ visits going reaches, raises⟩

theorem hasOrigin_block {k : κ} {inputs : List (Input κ)}
    (each : ∀ n, .node n ∈ inputs → HasOrigin answer stop horizon n) :
    HasOrigin answer stop horizon (.block k inputs) := by
  intro s s' e fails
  rw [evaluate] at fails
  rcases failed_of_bind fails with inside | ⟨args, s₁, evaluated, failed⟩
  · rcases exists_raises_of_inputs each inside with
      ⟨log, m, s₁, log', reaches, raises⟩ | ⟨log, nothing⟩
    · exact ⟨log, m, s₁, log', .input reaches, raises⟩
    · exact ⟨[], _, s, log, .here _ s, .argument nothing⟩
  · have served := (run_request (.invoke k args) s₁).symm.trans failed
    exact ⟨[], _, s, _, .here _ s, .invoked evaluated served⟩

theorem hasOrigin_control (alone : Alone answer stop) {k : κ} {flow : Flow}
    {inputs : List (Input κ)} {bodies : List (List (Node κ))}
    (described : (describe k).category = .control flow)
    (each : ∀ n, .node n ∈ inputs → HasOrigin answer stop horizon n)
    (within : ∀ index, ∀ n ∈ bodies.getD index [], HasOrigin answer stop horizon n) :
    HasOrigin answer stop horizon (.control k inputs bodies) := by
  intro s s' e fails
  rw [evaluate_control described] at fails
  rcases failed_of_bind fails with fails | ⟨_, _, -, ended⟩
  · obtain ⟨log, s₁, tests, last⟩ := exists_test_of_failed alone fails
    rw [getD_evaluateBodies] at tests
    rcases last with fails | ⟨holds, index, s₂, told, chosen, fails⟩
    · rcases failed_of_bind fails with fails | ⟨_, _, -, ended⟩
      · rcases exists_raises_of_inputs each fails with
          ⟨log', m, s₂, log'', reaches, raises⟩ | ⟨log', nothing⟩
        · exact ⟨_, m, s₂, log'', .condition described tests reaches, raises⟩
        · exact ⟨[], _, s, _, .here _ s, .condition described tests nothing⟩
      · cases (Prod.mk.inj ended).1
    · rw [getD_evaluateBodies] at fails
      obtain ⟨log', m, s₃, log'', reaches, raises⟩ :=
        exists_raises_of_list alone (within index) fails
      exact ⟨_, m, s₃, log'', .body described tests told chosen reaches, raises⟩
  · cases (Prod.mk.inj ended).1

theorem hasOrigin_reference (k : κ) (name : String) :
    HasOrigin answer stop horizon (.reference k name) := by
  intro s s' e fails
  rw [evaluate] at fails
  rcases run_lookup (κ := κ) answer name s with ⟨value, s₁, found, told⟩ | stuck
  · rcases failed_of_bind fails with fails | ⟨_, _, told', failed⟩
    · cases (Prod.mk.inj (told.symm.trans fails)).1
    · obtain ⟨same, rfl⟩ := Prod.mk.inj (told.symm.trans told')
      cases same
      cases value with
      | some value => cases (Prod.mk.inj failed).1
      | none =>
          obtain ⟨raised, rfl⟩ := Prod.mk.inj failed
          cases raised
          exact ⟨[], _, s, [], .here _ s, .undefined found⟩
  · rcases failed_of_bind fails with fails | ⟨_, _, told, -⟩
    · cases (Prod.mk.inj (stuck.symm.trans fails)).1
    · cases (Prod.mk.inj (stuck.symm.trans told)).1

theorem hasOrigin (alone : Alone answer stop) (n : Node κ) : HasOrigin answer stop horizon n := by
  induction n using Node.induction with
  | step n ih =>
      cases n with
      | block k inputs =>
          exact hasOrigin_block fun m mem => ih m (List.mem_filterMap.2 ⟨_, mem, rfl⟩)
      | control k inputs bodies =>
          have each (m : Node κ) (mem : .node m ∈ inputs) : HasOrigin answer stop horizon m :=
            ih m (List.mem_append_left _ (List.mem_filterMap.2 ⟨_, mem, rfl⟩))
          have within (index : Nat) : ∀ m ∈ bodies.getD index [],
              HasOrigin answer stop horizon m := by
            intro m mem
            rw [List.getD_eq_getElem?_getD] at mem
            cases found : bodies[index]? with
            | none => simp [found] at mem
            | some body =>
                rw [found, Option.getD_some] at mem
                exact ih m (List.mem_append_right _
                  (List.mem_flatten.2 ⟨body, List.mem_of_getElem? found, mem⟩))
          cases category : (describe k).category with
          | control flow => exact hasOrigin_control alone category each within
          | statement | expression | reference | declaration | shadow =>
              intro s s' e fails
              simp only [evaluate, category] at fails
              cases (Prod.mk.inj fails).1
      | reference k name => exact hasOrigin_reference k name
      | declaration k =>
          intro s s' e fails
          cases (Prod.mk.inj fails).1
      | shadow k shadowed covered =>
          intro s s' e fails
          rcases covered with _ | _ | m
          · cases (Prod.mk.inj fails).1
          · cases (Prod.mk.inj fails).1
          · simp only [evaluate, evaluateCovered] at fails
            obtain ⟨log, m', s₁, log', reaches, raises⟩ := ih m (by simp [children, Input.asNode?])
              s s' e fails
            exact ⟨log, m', s₁, log', .covered reaches, raises⟩

/-! ## Programs -/

theorem ListReach.failed (alone : Alone answer stop) {roots : List (Node κ)} {m : Node κ}
    {s s₁ s' : S} {log : List (Invocation κ S)} {e : EvalError}
    (reaches : ListReach answer stop horizon roots s log m s₁)
    (fails : Task.run answer (actions (evaluate horizon m)) s₁ = (.failed e, s')) :
    Task.run answer (actions (execute horizon roots)) s = (.failed e, s') ∧
      Evaluation.invocations answer (execute horizon roots) s =
        log ++ Evaluation.invocations answer (evaluate horizon m) s₁ :=
  ((reaches.handsOver alone).bind _).failed fails

structure Aborts (answer : (action : Action) → S → Option (action.Answer × S)) (stop : S → Bool)
    (horizon : Nat) (roots : List (Node κ)) (s : S) : Prop where
  /-- A node that fails ends the run with its error and in its state. -/
  inner : ∀ {log : List (Invocation κ S)} {m : Node κ} {s₁ s' : S} {e : EvalError},
    ListReach answer stop horizon roots s log m s₁ →
    Task.run answer (actions (evaluate horizon m)) s₁ = (.failed e, s') →
    Task.run answer (actions (execute horizon roots)) s = (.failed e, s') ∧
      invocations answer (execute horizon roots) s = log ++ invocations answer (evaluate horizon m) s₁
  /-- A run fails exactly if it comes to a node that raises the error. -/
  origin : ∀ (e : EvalError) (s' : S),
    Task.run answer (actions (execute horizon roots)) s = (.failed e, s') ↔
      ∃ log m s₁ log', ListReach answer stop horizon roots s log m s₁ ∧
        Raises answer stop horizon m s₁ log' e s' ∧
        invocations answer (execute horizon roots) s = log ++ log'
  /-- What the invocations have done is all that has been done. -/
  effects : Effects answer s (invocations answer (execute horizon roots) s)
    (Task.run answer (actions (execute horizon roots)) s).2

theorem aborts (alone : Alone answer stop) (looks : LookupsOnlyLook answer) (horizon : Nat)
    (roots : List (Node κ)) (s : S) : Aborts answer stop horizon roots s where
  inner reaches fails := reaches.failed alone fails
  origin e s' := by
    constructor
    · intro fails
      have inList : Task.run answer (actions (evaluateList horizon roots)) s = (.failed e, s') := by
        rw [run_execute alone] at fails
        rcases ran : Task.run answer (actions (evaluateList horizon roots)) s with ⟨ending, s₁⟩
        rw [ran] at fails
        cases ending with
        | failed e' =>
            obtain ⟨failed, rfl⟩ := Prod.mk.inj fails
            cases failed
            exact ran
        | done | crashed | unfinished => cases (Prod.mk.inj fails).1
      obtain ⟨log, m, s₁, log', reaches, raises⟩ :=
        exists_raises_of_list alone (fun n _ => hasOrigin alone n) inList
      obtain ⟨failed, invoked⟩ := raises.failed alone
      exact ⟨log, m, s₁, log', reaches, raises, invoked ▸ (reaches.failed alone failed).2⟩
    · rintro ⟨log, m, s₁, log', reaches, raises, -⟩
      exact (reaches.failed alone (raises.failed alone).1).1
  effects := effects_of_run alone looks _ s

/-- Programs in sequence: the second part runs from where the first part ended, if that ended without
an error and no stop is requested, and has no part in the run otherwise.  The same holds of the two
parts of a statement list in a control block, so that an error at any depth ends the whole run, with
the effects of exactly what was invoked up to it. -/
theorem execute_append_aborts (alone : Alone answer stop) (looks : LookupsOnlyLook answer) :
    (∀ (roots rest : List (Node κ)) (s : S), InSequence answer stop roots rest s) ∧
    (∀ (horizon : Nat) (nodes rest : List (Node κ)) (s : S),
      Sequenced answer stop (evaluateList horizon (nodes ++ rest)) (evaluateList horizon nodes)
        (evaluateList horizon rest) () s) ∧
    (∀ (horizon : Nat) (k : κ) (flow : Flow), (describe k).category = .control flow →
      ∀ (inputs : List (Input κ)) (before after : List (List (Node κ))) (nodes rest : List (Node κ)),
      SameCourse answer
        (evaluate horizon (.control k inputs (before ++ (nodes ++ rest) :: after)))
        ((EvalTask.flow horizon (tested horizon k inputs)
          (evaluateBodies horizon before ++
            inTurn (evaluateList horizon nodes) (evaluateList horizon rest) ::
              evaluateBodies horizon after) flow).bind fun _ => .done none)) ∧
    ∀ (horizon : Nat) (roots : List (Node κ)) (s : S), Aborts answer stop horizon roots s :=
  ⟨inSequence alone, fun _ => sequenced_list alone,
    fun _ _ _ described inputs before after nodes rest =>
      sameCourse_control alone described inputs before after nodes rest,
    aborts alone looks⟩

section
open Catalog

def ghostly : List (Node Block) :=
  [.block .assign [.literal (.text "x"), .literal (.integer 5)],
    .control (.builtin (.control .ifThen)) [.literal (.boolean true)]
      [[.block .assign [.literal (.text "y"), .node (.reference (.builtin .reference) "ghost")],
        .block .assign [.literal (.text "x"), .literal (.integer 6)]]]]

theorem execute_append_aborts_ghostly : ∃ m',
    Task.run Machine.answer (actions (execute 1 (ghostly ++
        [.block .assign [.literal (.text "x"), .literal (.integer 7)]])))
      (Machine.bare (.ofList [("x", .integer 1), ("y", .integer 2)])) =
        (.failed (.undefinedVariable "ghost"), m') ∧
    m'.store.get? "x" = some (.integer 5) ∧ m'.store.get? "y" = some (.integer 2) := by
  obtain ⟨sequence, -, -, aborting⟩ :=
    execute_append_aborts (κ := Block) Machine.alone Machine.lookupsOnlyLook
  let m := Machine.bare (.ofList [("x", .integer 1), ("y", .integer 2)])
  have reaches : ListReach Machine.answer Machine.stop 1 ghostly m _
      (.reference (.builtin .reference) "ghost") _ :=
    .among [_] (.cons rfl (.nil _)) rfl
      (.body rfl (.once (by decide) _) rfl rfl
        (.among [] (.nil _) rfl
          (.input (.among [_] (by decide) rfl (.here _ _)))))
  obtain ⟨failed, -⟩ := (aborting 1 ghostly m).inner reaches rfl
  have whole := ((sequence ghostly
    [.block .assign [.literal (.text "x"), .literal (.integer 7)]] m).course 1).run
  rw [failed] at whole
  exact ⟨_, whole, rfl, rfl⟩

end

end Node

end BlockScript
