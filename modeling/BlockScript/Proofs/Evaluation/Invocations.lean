import BlockScript.Catalog.Standard
import BlockScript.Proofs.Evaluation.Alike

/-!
# Invocations and the stop signal

`invocations` lists what a run invokes, with the states before and after.  Lists and loops poll the
stop signal, but inputs and conditions are evaluated without a poll, so that a statement in a slot
could ask for a stop and be followed by more.  It is not, because it gives no value and the run
fails: `Heeds` says of an evaluation that nothing is invoked after a stop was requested, and what
its result is if one was requested in the meantime.  For a node there is none, and inputs do not
come to a result at all.

`invocations_heed_stop` puts together what this means for programs.
-/

namespace BlockScript

variable {S κ ε α β : Type}

def Ending.thenLog (next : α → S → List β) : Ending ε α × S → List β
  | (done a, s) => next a s
  | (failed _, _) => []
  | (crashed, _) => []
  | (unfinished, _) => []

structure Alone (answer : (action : Action) → S → Option (action.Answer × S)) (stop : S → Bool) :
    Prop where
  polled (s : S) : answer .stopRequested s = some (stop s, s)
  requested {s s' : S} {a : Unit} : answer .requestStop s = some (a, s') → stop s' = true
  kept {action : Action} {s s' : S} {a : action.Answer} :
    answer action s = some (a, s') → action ≠ .requestStop → stop s' = stop s

theorem Machine.alone : Alone Machine.answer Machine.stop where
  polled _ := rfl
  requested answers := by
    obtain ⟨-, rfl⟩ := Prod.mk.inj (Option.some.inj answers)
    rfl
  kept {action m m' a} answers other := by
    cases action with
    | requestStop => exact absurd rfl other
    | sleep duration =>
        simp only [Machine.answer] at answers
        split at answers
        · obtain ⟨-, rfl⟩ := Prod.mk.inj (Option.some.inj answers)
          rfl
        · split at answers
          · cases answers
          · obtain ⟨-, rfl⟩ := Prod.mk.inj (Option.some.inj answers)
            rfl
    | host | get | replace | define | stopRequested =>
        obtain ⟨-, rfl⟩ := Prod.mk.inj (Option.some.inj answers)
        rfl

namespace Evaluation

structure Invocation (κ S : Type) where
  kind : κ
  args : Arguments
  before : S
  after : S

def Request.record (request : Request κ) (s s' : S) : List (Invocation κ S) :=
  match request with
  | .invoke k args => [⟨k, args, s, s'⟩]
  | _ => []

variable [Vocabulary κ] {answer : (action : Action) → S → Option (action.Answer × S)}
  {stop : S → Bool}

def serve (answer : (action : Action) → S → Option (action.Answer × S))
    (request : (signature κ).Request) (s : S) : Ending EvalError ((signature κ).Answer request) × S :=
  Task.run answer (perform request) s

/-- The invocations of a run, in their order; the last one may have failed, or may never end. -/
def invocations (answer : (action : Action) → S → Option (action.Answer × S)) :
    EvalTask κ α → S → List (Invocation κ S)
  | .ask request resume, s =>
    Request.record request s (serve answer request s).2 ++
      Ending.thenLog (fun a s => invocations answer (resume a) s) (serve answer request s)
  | _, _ => []

theorem run_ask (request : (signature κ).Request)
    (resume : (signature κ).Answer request → EvalTask κ α) (s : S) :
    Task.run answer (actions (.ask request resume)) s =
      Ending.andThen (fun a s => Task.run answer (actions (resume a)) s) (serve answer request s) :=
  @Task.run_bind Action.signature EvalError _ α S answer (perform request)
    (fun a => actions (resume a)) s

theorem invocations_bind (t : EvalTask κ α) (f : α → EvalTask κ β) (s : S) :
    invocations answer (t.bind f) s = invocations answer t s ++
      Ending.thenLog (fun a s => invocations answer (f a) s) (Task.run answer (actions t) s) := by
  induction t generalizing s with
  | ask request resume ih =>
      rw [run_ask]
      simp only [Task.bind, invocations]
      rcases serve answer request s with ⟨ending, s'⟩
      cases ending with
      | done a => simp only [Ending.thenLog, Ending.andThen, ih, List.append_assoc]
      | failed | crashed | unfinished => simp only [Ending.thenLog, Ending.andThen, List.append_nil]
  | _ => rfl

end Evaluation

/-! ## Runs by themselves -/

namespace Alone

open Evaluation

variable [Vocabulary κ] {answer : (action : Action) → S → Option (action.Answer × S)}
  {stop : S → Bool}

theorem stays (alone : Alone answer stop) (t : ActionTask ε α) {s : S} (requested : stop s = true) :
    stop (Task.run answer t s).2 = true := by
  induction t generalizing s with
  | ask action resume ih =>
      rcases @Task.run_ask Action.signature ε α S answer action resume s with
        ⟨a, s', answered, next⟩ | ⟨-, stuck⟩
      · rw [next]
        apply ih
        cases action with
        | requestStop => exact alone.requested answered
        | _ => exact (alone.kept answered nofun).trans requested
      · rw [stuck]
        exact requested
  | _ => exact requested

theorem ofHost (alone : Alone answer stop) (t : HostTask ε α) (s : S) :
    stop (Task.run answer (ActionTask.ofHost t) s).2 = stop s := by
  induction t generalizing s with
  | ask request resume ih =>
      rcases @Task.run_ask Action.signature ε α S answer (.host request)
        (fun a => ActionTask.ofHost (resume a)) s with ⟨a, s', answered, next⟩ | ⟨-, stuck⟩
      · exact (congrArg (fun result => stop result.2) next).trans
          ((ih a s').trans (alone.kept answered nofun))
      · exact congrArg (fun result => stop result.2) stuck
  | _ => rfl

theorem stays_of_mem (alone : Alone answer stop) (t : EvalTask κ α) {s : S} {x : Invocation κ S}
    (mem : x ∈ invocations answer t s) (requested : stop x.after = true) :
    stop (Task.run answer (actions t) s).2 = true := by
  induction t generalizing s with
  | ask request resume ih =>
      rw [run_ask]
      rw [invocations] at mem
      have served : x ∈ Request.record request s (serve answer request s).2 →
          stop (serve answer request s).2 = true := by
        cases request with
        | invoke k args =>
            intro mem
            obtain rfl := List.mem_singleton.1 mem
            exact requested
        | lookup | poll => nofun
      revert mem served
      rcases serve answer request s with ⟨ending, s'⟩
      intro mem served
      cases ending with
      | done a =>
          rcases List.mem_append.1 mem with mem | mem
          · exact alone.stays _ (served mem)
          · exact ih a mem
      | failed | crashed | unfinished =>
          rw [Ending.thenLog, List.append_nil] at mem
          exact served mem
  | _ => cases mem

end Alone

/-! ## Evaluations that heed a stop -/

namespace Evaluation

variable [Vocabulary κ] {answer : (action : Action) → S → Option (action.Answer × S)}
  {stop : S → Bool} {p : α → Prop}

/-- Started without a stop being requested, nothing is invoked after an invocation that leaves one
requested, and the result is as told if there is one in the end. -/
structure Heeds (answer : (action : Action) → S → Option (action.Answer × S)) (stop : S → Bool)
    (t : EvalTask κ α) (post : α → Prop) : Prop where
  last {s : S} : stop s = false →
    (invocations answer t s).Pairwise fun x _ => stop x.after = false
  result {s s' : S} {a : α} : stop s = false →
    Task.run answer (actions t) s = (.done a, s') → stop s' = true → post a

structure Idle (answer : (action : Action) → S → Option (action.Answer × S)) (stop : S → Bool)
    (t : EvalTask κ α) (post : α → Prop) : Prop where
  silent {s : S} : stop s = true → invocations answer t s = []
  result {s s' : S} {a : α} : stop s = true →
    Task.run answer (actions t) s = (.done a, s') → post a

theorem Idle.done {a : α} (result : p a) : Idle (κ := κ) answer stop (.done a) p where
  silent _ := rfl
  result _ ran := by
    obtain ⟨ended, -⟩ := Prod.mk.inj ran
    exact Ending.done.inj ended ▸ result

theorem Idle.fail (e : EvalError) : Idle (κ := κ) answer stop (.fail e) p where
  silent _ := rfl
  result _ ran := by cases (Prod.mk.inj ran).1

namespace Heeds

theorem done (a : α) : Heeds (κ := κ) answer stop (.done a) p where
  last _ := .nil
  result unrequested ran requested := by
    obtain ⟨-, rfl⟩ := Prod.mk.inj ran
    rw [unrequested] at requested
    cases requested

theorem fail (e : EvalError) : Heeds (κ := κ) answer stop (.fail e) p where
  last _ := .nil
  result _ ran _ := by cases (Prod.mk.inj ran).1

theorem bind (alone : Alone answer stop) {t : EvalTask κ α} {f : α → EvalTask κ β}
    {r : β → Prop} (first : Heeds answer stop t p) (next : ∀ a, Heeds answer stop (f a) r)
    (idle : ∀ a, p a → Idle answer stop (f a) r) : Heeds answer stop (t.bind f) r where
  last {s} unrequested := by
    have before := first.last unrequested
    have stays {x : Invocation κ S} (mem : x ∈ invocations answer t s) := alone.stays_of_mem t mem
    rw [invocations_bind]
    rcases ran : Task.run answer (actions t) s with ⟨ending, s'⟩
    rw [ran] at stays
    rw [ran]
    cases ending with
    | done a =>
        rw [Ending.thenLog]
        cases state : stop s' with
        | false =>
            -- a stop requested on the way would still be requested
            refine List.pairwise_append.2 ⟨before, (next a).last state, fun x mem _ _ => ?_⟩
            apply Bool.eq_false_iff.2
            intro requested
            exact Bool.false_ne_true (state.symm.trans (stays mem requested))
        | true =>
            rw [(idle a (first.result unrequested ran state)).silent state, List.append_nil]
            exact before
    | failed | crashed | unfinished =>
        rw [Ending.thenLog, List.append_nil]
        exact before
  result {s s' b} unrequested ran requested := by
    rw [run_bind] at ran
    rcases started : Task.run answer (actions t) s with ⟨ending, s₁⟩
    rw [started] at ran
    cases ending with
    | done a =>
        cases state : stop s₁ with
        | false => exact (next a).result state ran requested
        | true => exact (idle a (first.result unrequested started state)).result state ran
    | failed | crashed | unfinished => cases (Prod.mk.inj ran).1

theorem andThen (alone : Alone answer stop) {t : EvalTask κ α} {f : α → EvalTask κ β}
    {r : β → Prop} (first : Heeds answer stop t fun _ => False)
    (next : ∀ a, Heeds answer stop (f a) r) : Heeds answer stop (t.bind f) r :=
  first.bind alone next fun _ never => never.elim

theorem map (alone : Alone answer stop) {t : EvalTask κ α} (f : α → β)
    (h : Heeds answer stop t fun _ => False) : Heeds answer stop (f <$> t) fun _ => False :=
  h.andThen alone fun a => done (f a)

end Heeds

/-! ## Requests -/

theorem run_request (request : (signature κ).Request) (s : S) :
    Task.run answer (actions (.ask request .done)) s = serve answer request s := by
  rw [run_ask]
  rcases serve answer request s with ⟨ending, s'⟩
  cases ending <;> rfl

theorem invocations_request (request : (signature κ).Request) (s : S) :
    invocations answer (.ask request .done) s =
      Request.record request s (serve answer request s).2 := by
  rw [invocations]
  rcases serve answer request s with ⟨ending, s'⟩
  cases ending <;> exact List.append_nil _

theorem Heeds.request {request : (signature κ).Request} {post : (signature κ).Answer request → Prop}
    (result : ∀ {s s' : S} {a : (signature κ).Answer request}, stop s = false →
      serve answer request s = (.done a, s') → stop s' = true → post a) :
    Heeds answer stop (.ask request .done) post where
  last {s} _ := by
    rw [invocations_request]
    cases request with
    | invoke k args => exact List.pairwise_singleton _ _
    | lookup | poll => exact .nil
  result unrequested ran requested := by
    rw [run_request] at ran
    exact result unrequested ran requested

theorem Heeds.lookup (alone : Alone answer stop) (name : String) {post : Option Value → Prop} :
    Heeds (κ := κ) answer stop (EvalTask.lookup name) post := by
  refine request fun {s s' a} unrequested ran requested => ?_
  rcases @Task.run_ask Action.signature EvalError (Option Value) S answer (.get name) .done s with
    ⟨told, s₁, answered, next⟩ | ⟨-, stuck⟩
  · obtain ⟨-, rfl⟩ := Prod.mk.inj (next.symm.trans ran)
    have kept := alone.kept answered nofun
    rw [unrequested, requested] at kept
    cases kept
  · cases (Prod.mk.inj (stuck.symm.trans ran)).1

theorem Heeds.invoke (alone : Alone answer stop) (k : κ) (args : Arguments) :
    Heeds answer stop (EvalTask.invoke k args) (· = none) := by
  refine request fun {s s' output} unrequested ran requested => ?_
  rcases behavior : (describe k).behavior? with _ | run | compute
  · simp only [serve, perform, behavior] at ran
    cases (Prod.mk.inj ran).1
  · simp only [serve, perform, behavior] at ran
    obtain ⟨_, _, -, ended⟩ := Task.exists_of_run_bind ran
    obtain ⟨given, -⟩ := Prod.mk.inj ended
    exact (Ending.done.inj given).symm
  · simp only [serve, perform, behavior] at ran
    obtain ⟨value, s₁, computed, ended⟩ := Task.exists_of_run_bind ran
    obtain ⟨-, rfl⟩ := Prod.mk.inj ended
    have kept := alone.ofHost ((compute args).mapError (EvalError.behavior (describe k).summary)) s
    rw [computed, unrequested, requested] at kept
    cases kept

theorem serve_poll (alone : Alone answer stop) (s : S) :
    serve (κ := κ) answer .poll s = (.done (stop s), s) := by
  exact @Task.run_answered Action.signature EvalError Bool S answer .stopRequested .done s _
    (alone.polled s)

theorem invocations_poll (alone : Alone answer stop) (f : Bool → EvalTask κ α) (s : S) :
    invocations answer (EvalTask.poll.bind f) s = invocations answer (f (stop s)) s := by
  show Request.record .poll s _ ++ Ending.thenLog _ (serve answer .poll s) = _
  rw [serve_poll alone]
  rfl

/-! ## Lists and loops -/

theorem Idle.unlessStopped (alone : Alone answer stop) (t : EvalTask κ Unit) :
    Idle answer stop (EvalTask.poll.bind fun stop => if stop then .done () else t)
      fun _ => True where
  silent {s} requested := by
    rw [invocations_poll alone, requested]
    rfl
  result _ _ := trivial

theorem Heeds.unlessStopped (alone : Alone answer stop) {t : EvalTask κ Unit}
    (rest : Heeds answer stop t fun _ => True) :
    Heeds answer stop (EvalTask.poll.bind fun stop => if stop then .done () else t)
      fun _ => True where
  last {s} unrequested := by
    rw [invocations_poll alone, unrequested]
    exact rest.last unrequested
  result _ _ _ := trivial

theorem Idle.loop (alone : Alone answer stop) (c : EvalTask κ Bool) (b : EvalTask κ Unit)
    (horizon : Nat) : Idle answer stop (EvalTask.loop c b horizon) fun _ => True := by
  cases horizon with
  | zero => exact ⟨fun _ => rfl, fun _ _ => trivial⟩
  | succ horizon => exact unlessStopped alone _

theorem Heeds.loop (alone : Alone answer stop) {c : EvalTask κ Bool} {b : EvalTask κ Unit}
    (condition : Heeds answer stop c fun _ => False) (body : Heeds answer stop b fun _ => True)
    (horizon : Nat) : Heeds answer stop (EvalTask.loop c b horizon) fun _ => True := by
  induction horizon with
  | zero => exact ⟨fun _ => .nil, fun _ _ _ => trivial⟩
  | succ horizon ih =>
      refine unlessStopped alone (condition.andThen alone fun holds => ?_)
      cases holds with
      | true => exact body.bind alone (fun _ => ih) fun _ _ => .loop alone c b horizon
      | false => exact .done ()

theorem Heeds.flow (alone : Alone answer stop) {c : EvalTask κ Bool}
    {bodies : List (EvalTask κ Unit)} (condition : Heeds answer stop c fun _ => False)
    (each : ∀ body ∈ bodies, Heeds answer stop body fun _ => True) (horizon : Nat) (flow : Flow) :
    Heeds answer stop (EvalTask.flow horizon c bodies flow) fun _ => True := by
  have body (i : Nat) : Heeds answer stop (bodies.getD i (.done ())) fun _ => True := by
    rw [List.getD_eq_getElem?_getD]
    cases found : bodies[i]? with
    | none => exact .done ()
    | some body => exact each body (List.mem_of_getElem? found)
  cases flow with
  | ifThen =>
      refine condition.andThen alone fun holds => ?_
      cases holds with
      | true => exact body 0
      | false => exact .done ()
  | ifElse =>
      refine condition.andThen alone fun holds => ?_
      cases holds with
      | true => exact body 0
      | false => exact body 1
  | whileLoop => exact .loop alone condition (body 0) horizon

end Evaluation

/-! ## Nodes -/

namespace Node

open Evaluation

variable [Vocabulary κ] {answer : (action : Action) → S → Option (action.Answer × S)}
  {stop : S → Bool} {horizon : Nat}

theorem heeds_input (alone : Alone answer stop) {input : Input κ}
    (node : ∀ n, input = .node n → Heeds answer stop (evaluate horizon n) (· = none))
    (slot : SlotKind) :
    Heeds answer stop (evaluateInput horizon slot input) fun _ => False := by
  cases input with
  | literal value => exact .done _
  | node n =>
      refine (node n rfl).bind alone (fun output => ?_) ?_
      · cases Value.convertOutput slot output with
        | ok value => exact .done value
        | error e => exact .fail _
      -- a node that requested a stop gives nothing, and nothing cannot be converted
      · rintro _ rfl
        exact .fail _

theorem heeds_inputs (alone : Alone answer stop) {inputs : List (Input κ)}
    (each : ∀ input ∈ inputs, ∀ slot,
      Heeds answer stop (evaluateInput horizon slot input) fun _ => False)
    (slots : List SlotKind) :
    Heeds answer stop (evaluateInputs horizon slots inputs) fun _ => False := by
  induction inputs generalizing slots with
  | nil => exact .done []
  | cons input rest ih =>
      cases slots with
      | nil => exact .done []
      | cons slot slots =>
          obtain ⟨first, others⟩ := List.forall_mem_cons.1 each
          exact (first slot).andThen alone fun value =>
            (ih others slots).andThen alone fun values => .done _

theorem idle_list (alone : Alone answer stop) (nodes : List (Node κ)) :
    Idle answer stop (evaluateList horizon nodes) fun _ => True := by
  cases nodes with
  | nil => exact .done trivial
  | cons n rest => exact .unlessStopped alone _

theorem heeds_list (alone : Alone answer stop) {nodes : List (Node κ)}
    (each : ∀ n ∈ nodes, Heeds answer stop (evaluate horizon n) (· = none)) :
    Heeds answer stop (evaluateList horizon nodes) fun _ => True := by
  induction nodes with
  | nil => exact .done ()
  | cons n rest ih =>
      obtain ⟨first, others⟩ := List.forall_mem_cons.1 each
      exact .unlessStopped alone
        (first.bind alone (fun _ => ih others) fun _ _ => idle_list alone rest)

theorem heeds_evaluate (alone : Alone answer stop) (n : Node κ) :
    Heeds answer stop (evaluate horizon n) (· = none) := by
  induction n using Node.induction with
  | step n ih =>
      have input (input : Input κ) (under : ∀ m, input = .node m → m ∈ n.children) :
          ∀ slot, Heeds answer stop (evaluateInput horizon slot input) fun _ => False :=
        heeds_input alone fun m eq => ih m (under m eq)
      cases n with
      | block k inputs =>
          refine (heeds_inputs alone (fun i mem => input i fun m eq => ?_) _).andThen alone
            fun args => .invoke alone k args
          exact List.mem_filterMap.2 ⟨_, eq ▸ mem, rfl⟩
      | control k inputs bodies =>
          have values := heeds_inputs alone (fun i mem => input i fun m eq =>
            List.mem_append_left _ (List.mem_filterMap.2 ⟨_, eq ▸ mem, rfl⟩)) (describe k).slots
          have lists : ∀ body ∈ evaluateBodies horizon bodies,
              Heeds answer stop body fun _ => True := by
            intro task mem
            obtain ⟨body, inside, rfl⟩ := mem_evaluateBodies mem
            exact heeds_list alone fun m mem =>
              ih m (List.mem_append_right _ (List.mem_flatten.2 ⟨body, inside, mem⟩))
          simp only [evaluate]
          cases (describe k).category with
          | control flow =>
              exact (Heeds.flow alone (values.map alone conditionHolds) lists horizon flow).bind alone
                (fun _ => .done none) fun _ _ => .done rfl
          | statement | expression | reference | declaration | shadow => exact .done none
      | reference k name =>
          refine (Heeds.lookup alone name).andThen alone fun value => ?_
          cases value with
          | none => exact .fail _
          | some value => exact .done _
      | declaration k => exact .done none
      | shadow k shadowed covered =>
          simp only [evaluate]
          rcases covered with _ | _ | m
          · exact .done none
          · exact .done _
          · exact ih m (by simp [children, Input.asNode?])

/-! ## Programs -/

/-- The nodes are evaluated one after the other, each of them once, and nothing is invoked but by
them. -/
inductive Visits (answer : (action : Action) → S → Option (action.Answer × S)) (horizon : Nat) :
    List (Node κ) → S → List (Invocation κ S) → S → Prop where
  | nil (s : S) : Visits answer horizon [] s [] s
  | cons {n : Node κ} {rest : List (Node κ)} {s s₁ s₂ : S} {output : Option Value}
      {log : List (Invocation κ S)}
      (evaluated : Task.run answer (actions (evaluate horizon n)) s = (.done output, s₁))
      (later : Visits answer horizon rest s₁ log s₂) :
      Visits answer horizon (n :: rest) s (invocations answer (evaluate horizon n) s ++ log) s₂

variable {roots : List (Node κ)} {s s' : S} {log : List (Invocation κ S)}

theorem Visits.unrequested (alone : Alone answer stop) (visits : Visits answer horizon roots s log s')
    (ends : stop s' = false) : stop s = false := by
  induction visits with
  | nil => exact ends
  | @cons n rest s s₁ s₂ output log evaluated _ ih =>
      apply Bool.eq_false_iff.2
      intro requested
      have stays := alone.stays (actions (evaluate horizon n)) requested
      rw [evaluated] at stays
      exact Bool.false_ne_true ((ih ends).symm.trans stays)

theorem run_evaluateList_cons (alone : Alone answer stop) (n : Node κ) (rest : List (Node κ))
    (unrequested : stop s = false) :
    Task.run answer (actions (evaluateList horizon (n :: rest))) s =
      Ending.andThen (fun _ s => Task.run answer (actions (evaluateList horizon rest)) s)
        (Task.run answer (actions (evaluate horizon n)) s) := by
  have polled : answer .stopRequested s = some (false, s) := unrequested ▸ alone.polled s
  exact (run_poll polled _).trans (run_bind (evaluate horizon n) _ s)

theorem invocations_evaluateList_cons (alone : Alone answer stop) (n : Node κ)
    (rest : List (Node κ)) (unrequested : stop s = false) :
    invocations answer (evaluateList horizon (n :: rest)) s =
      invocations answer (evaluate horizon n) s ++
        Ending.thenLog (fun _ s => invocations answer (evaluateList horizon rest) s)
          (Task.run answer (actions (evaluate horizon n)) s) := by
  rw [evaluateList, Task.bind_eq_bind, invocations_poll alone, unrequested]
  exact invocations_bind (evaluate horizon n) _ s

theorem visits_of_run (alone : Alone answer stop)
    (ran : Task.run answer (actions (evaluateList horizon roots)) s = (.done (), s'))
    (ends : stop s' = false) :
    Visits answer horizon roots s (invocations answer (evaluateList horizon roots) s) s' := by
  induction roots generalizing s with
  | nil =>
      obtain ⟨-, rfl⟩ := Prod.mk.inj ran
      exact .nil s
  | cons n rest ih =>
      cases requested : stop s with
      | true =>
          rw [run_evaluateList_stopped (requested ▸ alone.polled s)] at ran
          obtain ⟨-, rfl⟩ := Prod.mk.inj ran
          exact absurd (requested.symm.trans ends) nofun
      | false =>
          rw [run_evaluateList_cons alone n rest requested] at ran
          rw [invocations_evaluateList_cons alone n rest requested]
          rcases evaluated : Task.run answer (actions (evaluate horizon n)) s with ⟨ending, s₁⟩
          rw [evaluated] at ran ⊢
          cases ending with
          | done output => exact .cons evaluated (ih ran)
          | failed | crashed | unfinished => cases (Prod.mk.inj ran).1

theorem Visits.run (alone : Alone answer stop) (visits : Visits answer horizon roots s log s')
    (ends : stop s' = false) :
    Task.run answer (actions (evaluateList horizon roots)) s = (.done (), s') := by
  induction visits with
  | nil => rfl
  | @cons n rest s s₁ s₂ output log evaluated later ih =>
      have unrequested := (Visits.cons evaluated later).unrequested alone ends
      rw [run_evaluateList_cons alone n rest unrequested, evaluated]
      exact ih ends

theorem run_execute (alone : Alone answer stop) (roots : List (Node κ)) (s : S) :
    Task.run answer (actions (execute horizon roots)) s =
      Ending.andThen (fun _ s => (.done (if stop s then .stopped else .completed), s))
        (Task.run answer (actions (evaluateList horizon roots)) s) := by
  refine (run_bind (evaluateList horizon roots) _ s).trans ?_
  congr 1
  funext _ s
  refine (run_poll (alone.polled s) _).trans ?_
  cases stop s <;> rfl

theorem invocations_execute (alone : Alone answer stop) (roots : List (Node κ)) (s : S) :
    invocations answer (execute horizon roots) s =
      invocations answer (evaluateList horizon roots) s := by
  have last (s : S) : invocations (κ := κ) answer (EvalTask.poll.bind fun stop =>
      if stop then .done Outcome.stopped else .done .completed) s = [] := by
    rw [invocations_poll alone]
    cases stop s <;> rfl
  refine (invocations_bind (evaluateList horizon roots) _ s).trans ?_
  rcases ran : Task.run answer (actions (evaluateList horizon roots)) s with ⟨ending, s'⟩
  rw [ran]
  cases ending with
  | done => exact (congrArg _ (last s')).trans (List.append_nil _)
  | failed | crashed | unfinished => exact List.append_nil _

theorem run_execute_completed (alone : Alone answer stop) :
    Task.run answer (actions (execute horizon roots)) s = (.done .completed, s') ↔
      Task.run answer (actions (evaluateList horizon roots)) s = (.done (), s') ∧
        stop s' = false := by
  rw [run_execute alone]
  rcases ran : Task.run answer (actions (evaluateList horizon roots)) s with ⟨ending, s₁⟩
  rw [ran]
  cases ending with
  | done =>
      simp only [Ending.andThen, Prod.mk.injEq, Ending.done.injEq, true_and]
      constructor
      · rintro ⟨completed, rfl⟩
        cases requested : stop s₁ with
        | true => simp [requested] at completed
        | false => exact ⟨rfl, rfl⟩
      · rintro ⟨rfl, unrequested⟩
        simp [unrequested]
  | failed | crashed | unfinished => simp [Ending.andThen]

end Node

section
open Evaluation Node

/-- What a program invokes when nobody else requests a stop: nothing after an invocation that leaves
a stop requested, and nothing at all if one is requested from the start.  A program completes exactly
when all its roots have been evaluated, one after the other and once each, and no stop is requested
in the end. -/
theorem invocations_heed_stop [Vocabulary κ]
    {answer : (action : Action) → S → Option (action.Answer × S)} {stop : S → Bool}
    (alone : Alone answer stop) (horizon : Nat) (roots : List (Node κ)) (s : S) :
    (∀ before x after, invocations answer (execute horizon roots) s = before ++ x :: after →
      stop x.after = true → after = []) ∧
    (stop s = true → invocations answer (execute horizon roots) s = [] ∧
      Task.run answer (actions (execute horizon roots)) s = (.done .stopped, s)) ∧
    ∀ s', Task.run answer (actions (execute horizon roots)) s = (.done .completed, s') ↔
      Visits answer horizon roots s (invocations answer (execute horizon roots) s) s' ∧
        stop s' = false := by
  have idle : Idle answer stop (evaluateList horizon roots) fun _ => True := idle_list alone roots
  have heeds : Heeds answer stop (evaluateList horizon roots) fun _ => True :=
    heeds_list alone fun n _ => heeds_evaluate alone n
  rw [invocations_execute alone]
  refine ⟨fun before x after log requested => ?_, fun requested => ⟨idle.silent requested, ?_⟩,
    fun s' => ?_⟩
  · cases started : stop s with
    | true => simp [idle.silent started] at log
    | false =>
        have last := heeds.last started
        rw [log] at last
        obtain ⟨-, later, -⟩ := List.pairwise_append.1 last
        refine List.eq_nil_iff_forall_not_mem.2 fun y mem => ?_
        exact Bool.false_ne_true (((List.pairwise_cons.1 later).1 y mem).symm.trans requested)
  · rw [run_execute alone, run_evaluateList_stopped (requested ▸ alone.polled s)]
    simp [Ending.andThen, requested]
  · rw [run_execute_completed alone]
    constructor
    · rintro ⟨ran, ends⟩
      exact ⟨visits_of_run alone ran ends, ends⟩
    · rintro ⟨visits, ends⟩
      exact ⟨visits.run alone ends, ends⟩

open Catalog

def stopping : List (Node Block) :=
  [.control (.builtin (.control .whileLoop)) [.literal (.boolean true)]
      [[.control (.builtin (.control .ifThen))
          [.node (.block (.operation .negate) [.literal (.boolean false)])]
          [[.block (.signal .stop) [], .block .assign [.literal (.text "x"), .literal (.integer 2)]]],
        .block .assign [.literal (.text "x"), .literal (.integer 3)]]],
    .block .assign [.literal (.text "x"), .literal (.integer 4)]]

theorem invocations_heed_stop_stopping :
    ∃ before x after, invocations Machine.answer (execute 2 stopping)
        (Machine.bare (.ofList [("x", .integer 1)])) = before ++ x :: after ∧
      x.kind = .signal .stop ∧ x.after.stop = true ∧ before.length = 1 ∧ after = [] := by
  have heeds := (invocations_heed_stop Machine.alone 2 stopping
    (Machine.bare (.ofList [("x", .integer 1)]))).1
  refine ⟨[_], _, _, rfl, rfl, rfl, rfl, ?_⟩
  exact heeds [_] _ _ rfl rfl

end

end BlockScript
