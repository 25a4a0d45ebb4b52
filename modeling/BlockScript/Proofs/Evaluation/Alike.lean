import BlockScript.Proofs.Evaluation.Runs
import BlockScript.Proofs.Evaluation.Watching

/-!
# Evaluations that run alike

A `Congruence` relates evaluations that are put together in the same way from related parts; one
lemma for each form of a node and of a list says how it passes through them, and
`Congruence.evaluate` takes it from loops to whole trees.

Two evaluations are `Alike` when they end in the same way and in the same state, from every state.
The state may be anything that answers actions: a `Machine` or a console, with any surroundings.
All that has to be known of it is that a poll changes nothing; then a node that does nothing can be
left out of a list (`alike_skip`), because the poll before it is made up for by the next one.
-/

namespace BlockScript

variable {S κ α β : Type}

def PollsOnlyLook (answer : (action : Action) → S → Option (action.Answer × S)) : Prop :=
  ∀ s, ∃ stop : Bool, answer .stopRequested s = some (stop, s)

theorem Machine.pollsOnlyLook : PollsOnlyLook Machine.answer := fun m => ⟨m.stop, rfl⟩

/-! ## Congruences -/

namespace Evaluation

structure Congruence (r : (α : Type) → EvalTask κ α → EvalTask κ α → Prop) : Prop where
  done {α : Type} (a : α) : r α (.done a) (.done a)
  fail {α : Type} (e : EvalError) : r α (.fail e) (.fail e)
  poll : r Bool EvalTask.poll EvalTask.poll
  lookup (name : String) : r (Option Value) (EvalTask.lookup name) (EvalTask.lookup name)
  bind {α β : Type} {t u : EvalTask κ α} {f g : α → EvalTask κ β} :
    r α t u → (∀ a, r β (f a) (g a)) → r β (t.bind f) (u.bind g)

namespace Congruence

variable {r : (α : Type) → EvalTask κ α → EvalTask κ α → Prop} {horizon horizon' : Nat}

theorem of_refl (refl : ∀ {α : Type} (t : EvalTask κ α), r α t t)
    (bind : ∀ {α β : Type} {t u : EvalTask κ α} {f g : α → EvalTask κ β},
      r α t u → (∀ a, r β (f a) (g a)) → r β (t.bind f) (u.bind g)) : Congruence r where
  done _ := refl _
  fail _ := refl _
  poll := refl _
  lookup _ := refl _
  bind := bind

theorem map (congr : Congruence r) {t u : EvalTask κ α} (f : α → β) (same : r α t u) :
    r β (f <$> t) (f <$> u) :=
  congr.bind same fun a => congr.done (f a)

theorem unlessStopped (congr : Congruence r) {t u : EvalTask κ Unit} (rest : r Unit t u) :
    r Unit (EvalTask.poll.bind fun stop => if stop then .done () else t)
      (EvalTask.poll.bind fun stop => if stop then .done () else u) := by
  apply congr.bind congr.poll
  intro stop
  cases stop with
  | true => exact congr.done ()
  | false => exact rest

theorem round (congr : Congruence r) {c c' : EvalTask κ Bool} {b b' : EvalTask κ Unit}
    (condition : r Bool c c') (body : r Unit b b')
    (later : r Unit (EvalTask.loop c b horizon) (EvalTask.loop c' b' horizon')) :
    r Unit (EvalTask.loop c b (horizon + 1)) (EvalTask.loop c' b' (horizon' + 1)) := by
  refine congr.unlessStopped (congr.bind condition fun holds => ?_)
  cases holds with
  | true => exact congr.bind body fun _ => later
  | false => exact congr.done ()

theorem flow (congr : Congruence r) {c c' : EvalTask κ Bool} {bodies bodies' : List (EvalTask κ Unit)}
    (loops : ∀ {b b' : EvalTask κ Unit}, r Unit b b' →
      r Unit (EvalTask.loop c b horizon) (EvalTask.loop c' b' horizon'))
    (condition : r Bool c c') (each : List.Forall₂ (r Unit) bodies bodies') (flow : Flow) :
    r Unit (EvalTask.flow horizon c bodies flow) (EvalTask.flow horizon' c' bodies' flow) := by
  have body (i : Nat) : r Unit (bodies.getD i (.done ())) (bodies'.getD i (.done ())) := by
    induction each generalizing i with
    | nil => exact congr.done ()
    | cons first _ ih =>
        cases i with
        | zero => exact first
        | succ i => exact ih i
  cases flow with
  | ifThen =>
      refine congr.bind condition fun holds => ?_
      cases holds with
      | true => exact body 0
      | false => exact congr.done ()
  | ifElse =>
      refine congr.bind condition fun holds => ?_
      cases holds with
      | true => exact body 0
      | false => exact body 1
  | whileLoop => exact loops (body 0)

section
open Node

variable [Vocabulary κ]

theorem input (congr : Congruence r) {n m : Node κ}
    (same : r _ (evaluate horizon n) (evaluate horizon' m)) (slot : SlotKind) :
    r Value (evaluateInput horizon slot (.node n)) (evaluateInput horizon' slot (.node m)) := by
  refine congr.bind same fun output => ?_
  cases Value.convertOutput slot output with
  | ok value => exact congr.done value
  | error e => exact congr.fail _

theorem literal (congr : Congruence r) (slot : SlotKind) (value : Value) :
    r Value (evaluateInput horizon slot (.literal value))
      (evaluateInput horizon' slot (.literal value)) :=
  congr.done _

theorem inputs (congr : Congruence r) {inputs inputs' : List (Input κ)}
    (each : List.Forall₂ (fun input input' => ∀ slot,
      r Value (evaluateInput horizon slot input) (evaluateInput horizon' slot input'))
      inputs inputs') (slots : List SlotKind) :
    r (List Value) (evaluateInputs horizon slots inputs) (evaluateInputs horizon' slots inputs') := by
  induction each generalizing slots with
  | nil => exact congr.done []
  | cons first _ ih =>
      cases slots with
      | nil => exact congr.done []
      | cons slot slots =>
          refine congr.bind (first slot) fun value => congr.bind (ih slots) fun values => ?_
          exact congr.done (value :: values)

theorem block (congr : Congruence r) {k : κ}
    (invoke : ∀ args, r (Option Value) (EvalTask.invoke k args) (EvalTask.invoke k args))
    {inputs inputs' : List (Input κ)}
    (slots : r _ (evaluateInputs horizon (describe k).slots inputs)
      (evaluateInputs horizon' (describe k).slots inputs')) :
    r (Option Value) (evaluate horizon (.block k inputs)) (evaluate horizon' (.block k inputs')) := by
  simp only [evaluate]
  exact congr.bind slots fun args => invoke args

theorem control (congr : Congruence r)
    (loops : ∀ {c c' : EvalTask κ Bool} {b b' : EvalTask κ Unit}, r Bool c c' → r Unit b b' →
      r Unit (EvalTask.loop c b horizon) (EvalTask.loop c' b' horizon'))
    {k : κ} {inputs inputs' : List (Input κ)} {bodies bodies' : List (List (Node κ))}
    (slots : r _ (evaluateInputs horizon (describe k).slots inputs)
      (evaluateInputs horizon' (describe k).slots inputs'))
    (lists : List.Forall₂ (fun body body' =>
      r Unit (evaluateList horizon body) (evaluateList horizon' body')) bodies bodies') :
    r (Option Value) (evaluate horizon (.control k inputs bodies))
      (evaluate horizon' (.control k inputs' bodies')) := by
  have each : List.Forall₂ (r Unit) (evaluateBodies horizon bodies)
      (evaluateBodies horizon' bodies') := by
    induction lists with
    | nil => exact .nil
    | cons first _ ih => exact .cons first ih
  have condition := congr.map conditionHolds slots
  simp only [evaluate]
  cases (describe k).category with
  | control flow =>
      exact congr.bind (congr.flow (loops condition) condition each flow) fun _ => congr.done none
  | statement | expression | reference | declaration | shadow => exact congr.done none

theorem list_cons (congr : Congruence r) {n m : Node κ} {rest rest' : List (Node κ)}
    (first : r _ (evaluate horizon n) (evaluate horizon' m))
    (later : r Unit (evaluateList horizon rest) (evaluateList horizon' rest')) :
    r Unit (evaluateList horizon (n :: rest)) (evaluateList horizon' (m :: rest')) :=
  congr.unlessStopped (congr.bind first fun _ => later)

theorem execute (congr : Congruence r) {roots roots' : List (Node κ)}
    (same : r Unit (evaluateList horizon roots) (evaluateList horizon' roots')) :
    r Outcome (Node.execute horizon roots) (Node.execute horizon' roots') := by
  refine congr.bind same fun _ => congr.bind congr.poll fun stop => ?_
  cases stop <;> exact congr.done _

theorem list (congr : Congruence r) {nodes : List (Node κ)}
    (each : ∀ n ∈ nodes, r _ (evaluate horizon n) (evaluate horizon' n)) :
    r Unit (evaluateList horizon nodes) (evaluateList horizon' nodes) := by
  induction nodes with
  | nil => exact congr.done ()
  | cons n rest ih =>
      obtain ⟨first, others⟩ := List.forall_mem_cons.1 each
      exact congr.list_cons first (ih others)

/-- What relates loops at two horizons, and the invocations in a tree to themselves, relates the
evaluations of the tree. -/
theorem evaluate (congr : Congruence r)
    (loops : ∀ {c c' : EvalTask κ Bool} {b b' : EvalTask κ Unit}, r Bool c c' → r Unit b b' →
      r Unit (EvalTask.loop c b horizon) (EvalTask.loop c' b' horizon')) {n : Node κ}
    (invokes : n.Every fun m => ∀ args,
      r (Option Value) (EvalTask.invoke m.kind args) (EvalTask.invoke m.kind args)) :
    r _ (Node.evaluate horizon n) (Node.evaluate horizon' n) := by
  induction invokes with
  | @intro n here below ih =>
      have input (input : Input κ) (under : ∀ m, input = .node m → m ∈ n.children)
          (slot : SlotKind) :
          r _ (evaluateInput horizon slot input) (evaluateInput horizon' slot input) := by
        cases input with
        | literal value => exact congr.literal slot value
        | node m => exact congr.input (ih m (under m rfl)) slot
      cases n with
      | block k inputs =>
          refine congr.block here (congr.inputs (List.forall₂_same.2 fun i mem => ?_) _)
          exact input i fun m eq => List.mem_filterMap.2 ⟨_, eq ▸ mem, rfl⟩
      | control k inputs bodies =>
          refine congr.control loops (congr.inputs (List.forall₂_same.2 fun i mem => ?_) _)
            (List.forall₂_same.2 fun body mem => congr.list fun m inside => ?_)
          · exact input i fun m eq =>
              List.mem_append_left _ (List.mem_filterMap.2 ⟨_, eq ▸ mem, rfl⟩)
          · exact ih m (List.mem_append_right _ (List.mem_flatten.2 ⟨body, mem, inside⟩))
      | reference k name =>
          refine congr.bind (congr.lookup name) fun value => ?_
          cases value with
          | none => exact congr.fail _
          | some value => exact congr.done _
      | declaration k => exact congr.done none
      | shadow k shadowed covered =>
          rcases covered with _ | value | m
          · exact congr.done none
          · exact congr.done (some value)
          · exact ih m (by simp [children, Input.asNode?])

end

end Congruence

/-! ## Likeness -/

variable [Vocabulary κ] {answer : (action : Action) → S → Option (action.Answer × S)}

theorem run_bind (t : EvalTask κ α) (f : α → EvalTask κ β) (s : S) :
    Task.run answer (actions (t.bind f)) s =
      Ending.andThen (fun a s => Task.run answer (actions (f a)) s)
        (Task.run answer (actions t) s) := by
  rw [actions_bind]
  exact @Task.run_bind Action.signature EvalError α β S answer (actions t) (fun a => actions (f a)) s

theorem run_poll {s : S} {stop : Bool} (polled : answer .stopRequested s = some (stop, s))
    (f : Bool → EvalTask κ α) :
    Task.run answer (actions (EvalTask.poll.bind f)) s = Task.run answer (actions (f stop)) s := by
  exact @Task.run_answered Action.signature EvalError α S answer .stopRequested
    (fun stop => actions (f stop)) s _ polled

def Alike (answer : (action : Action) → S → Option (action.Answer × S)) (t u : EvalTask κ α) :
    Prop :=
  ∀ s, Task.run answer (actions t) s = Task.run answer (actions u) s

namespace Alike

theorem refl (t : EvalTask κ α) : Alike answer t t := fun _ => rfl

theorem bind {t u : EvalTask κ α} {f g : α → EvalTask κ β} (first : Alike answer t u)
    (next : ∀ a, Alike answer (f a) (g a)) : Alike answer (t.bind f) (u.bind g) := by
  intro s
  rw [run_bind, run_bind, first s]
  congr 1
  funext a s
  exact next a s

theorem congruence : Congruence (κ := κ) fun _ => Alike answer := .of_refl refl bind

theorem trans {t u v : EvalTask κ α} (first : Alike answer t u) (second : Alike answer u v) :
    Alike answer t v :=
  fun s => (first s).trans (second s)

theorem loop {c c' : EvalTask κ Bool} {b b' : EvalTask κ Unit} (condition : Alike answer c c')
    (body : Alike answer b b') (horizon : Nat) :
    Alike answer (EvalTask.loop c b horizon) (EvalTask.loop c' b' horizon) := by
  induction horizon with
  | zero => exact .refl _
  | succ horizon ih => exact congruence.round condition body ih

end Alike

end Evaluation

namespace Node

open Evaluation

variable [Vocabulary κ] {answer : (action : Action) → S → Option (action.Answer × S)}
  {horizon : Nat}

/-- A list at which a stop is requested already does nothing. -/
theorem run_evaluateList_stopped {s : S} (polled : answer .stopRequested s = some (true, s))
    (nodes : List (Node κ)) :
    Task.run answer (actions (evaluateList horizon nodes)) s = (.done (), s) := by
  cases nodes with
  | nil => rfl
  | cons n rest => exact run_poll polled _

theorem alike_skip (polls : PollsOnlyLook answer) {n : Node κ} {output : Option Value}
    (idle : evaluate horizon n = .done output) (rest : List (Node κ)) :
    Alike answer (evaluateList horizon (n :: rest)) (evaluateList horizon rest) := by
  intro s
  obtain ⟨stop, polled⟩ := polls s
  have first : Task.run answer (actions (evaluateList horizon (n :: rest))) s =
      Task.run answer (actions (if stop then .done () else
        (evaluate horizon n).bind fun _ => evaluateList horizon rest)) s := run_poll polled _
  rw [first, idle]
  cases stop with
  | true => exact (run_evaluateList_stopped polled rest).symm
  | false => rfl

/-- A list is evaluated part by part: the poll at the start of the second part comes again to what
ended the first one. -/
theorem alike_append (polls : PollsOnlyLook answer) (nodes rest : List (Node κ)) :
    Alike answer (evaluateList horizon (nodes ++ rest))
      ((evaluateList horizon nodes).bind fun _ => evaluateList horizon rest) := by
  induction nodes with
  | nil => exact .refl _
  | cons n later ih =>
      intro s
      obtain ⟨stop, polled⟩ := polls s
      have whole : Task.run answer (actions (evaluateList horizon (n :: later ++ rest))) s =
          Task.run answer (actions (if stop then .done () else
            (evaluate horizon n).bind fun _ => evaluateList horizon (later ++ rest))) s :=
        run_poll polled _
      have parts : Task.run answer (actions ((evaluateList horizon (n :: later)).bind
            fun _ => evaluateList horizon rest)) s =
          Task.run answer (actions ((if stop then .done () else
            (evaluate horizon n).bind fun _ => evaluateList horizon later).bind
              fun _ => evaluateList horizon rest)) s := by
        rw [run_bind, run_bind]
        exact congrArg _ (run_poll polled _)
      rw [whole, parts]
      cases stop with
      | true => exact (run_evaluateList_stopped polled rest).symm
      | false =>
          simp only [Bool.false_eq_true, if_false, Task.bind_bind]
          exact Alike.bind (.refl _) (fun _ => ih) s

end Node

end BlockScript
