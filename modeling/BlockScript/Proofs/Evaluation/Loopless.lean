import BlockScript.Catalog.Standard
import BlockScript.Proofs.Evaluation.Horizons
import BlockScript.Proofs.Evaluation.Walks

/-!
# Programs without loops

Of a loop the evaluation may come to the same nodes again and again, and may never end.  Without
loops (`Loopless`) it ends if all that it invokes ends (`Concludes`), and goes through the tree at
most once (`OnceThrough`).  `execute_loopless` puts the two together for programs.
-/

namespace BlockScript

variable {S κ α β : Type}

namespace Node

/-- The nodes that the evaluation of a node may come to next: all its children but the copy that a
preview shows. -/
def parts : Node κ → List (Node κ)
  | block _ inputs => inputs.filterMap Input.asNode?
  | control _ inputs bodies => inputs.filterMap Input.asNode? ++ bodies.flatten
  | reference _ _ => []
  | declaration _ => []
  | shadow _ _ covered => (covered.bind Input.asNode?).toList

variable [Vocabulary κ]

inductive Loopless : Node κ → Prop where
  | intro {n : Node κ} (here : n.category ≠ .control .whileLoop)
      (below : ∀ m ∈ n.parts, Loopless m) : Loopless n

end Node

theorem EvalTask.flow_eq {flow : Flow} (branches : flow ≠ .whileLoop) (horizon : Nat)
    (condition : EvalTask κ Bool) (bodies : List (EvalTask κ Unit)) :
    EvalTask.flow horizon condition bodies flow = condition.bind fun holds =>
      match flow.chosen? holds with
      | some index => bodies.getD index (.done ())
      | none => .done () := by
  cases flow with
  | ifThen =>
      refine congrArg (Task.bind · condition) (funext fun holds => ?_)
      cases holds <;> rfl
  | ifElse =>
      refine congrArg (Task.bind · condition) (funext fun holds => ?_)
      cases holds <;> rfl
  | whileLoop => exact absurd rfl branches

variable [Vocabulary κ] {answer : (action : Action) → S → Option (action.Answer × S)}

namespace Evaluation

/-! ## Coming to an end -/

def Invocation.Ends (answer : (action : Action) → S → Option (action.Answer × S))
    (x : Invocation κ S) : Prop :=
  (serve answer (.invoke x.kind x.args) x.before).1 ≠ .unfinished

def Concludes (answer : (action : Action) → S → Option (action.Answer × S)) (t : EvalTask κ α) :
    Prop :=
  ∀ s, (∀ x ∈ invocations answer t s, x.Ends answer) →
    (Task.run answer (actions t) s).1 ≠ .unfinished

theorem ended_of_isSome {action : Action} {s : S} (answered : (answer action s).isSome) :
    (Task.run answer (.ask action .done : ActionTask EvalError action.Answer) s).1 ≠
      .unfinished := by
  obtain ⟨result, eq⟩ := Option.isSome_iff_exists.1 answered
  have ran := @Task.run_answered Action.signature EvalError action.Answer S answer action .done s
    result eq
  rw [ran]
  nofun

namespace Concludes

theorem done (a : α) : Concludes (κ := κ) answer (.done a) := fun _ _ => nofun

theorem fail (e : EvalError) : Concludes (κ := κ) (α := α) answer (.fail e) := fun _ _ => nofun

theorem bind {t : EvalTask κ α} {f : α → EvalTask κ β} (first : Concludes answer t)
    (next : ∀ a, Concludes answer (f a)) : Concludes answer (t.bind f) := by
  intro s all
  rw [invocations_bind] at all
  obtain ⟨before, after⟩ := List.forall_mem_append.1 all
  have ended := first s before
  rw [run_bind]
  rcases ran : Task.run answer (actions t) s with ⟨ending, s'⟩
  rw [ran] at ended after ⊢
  cases ending with
  | done a => exact next a s' after
  | failed | crashed => nofun
  | unfinished => exact absurd rfl ended

theorem request {request : (signature κ).Request}
    (served : ∀ s, (serve answer request s).1 ≠ .unfinished) :
    Concludes answer (.ask request .done) := by
  intro s _
  rw [run_request]
  exact served s

theorem poll (polls : ∀ s, (answer .stopRequested s).isSome) :
    Concludes (κ := κ) answer EvalTask.poll :=
  .request fun s => ended_of_isSome (polls s)

theorem lookup (looks : ∀ name s, (answer (.get name) s).isSome) (name : String) :
    Concludes (κ := κ) answer (EvalTask.lookup name) :=
  .request fun s => ended_of_isSome (looks name s)

theorem invoke (k : κ) (args : Arguments) : Concludes answer (EvalTask.invoke k args) := by
  intro s all
  have invoked : invocations answer (EvalTask.invoke k args) s =
      [⟨k, args, s, (serve answer (.invoke k args) s).2⟩] := invocations_request (.invoke k args) s
  have ran : Task.run answer (actions (EvalTask.invoke k args)) s =
      serve answer (.invoke k args) s := run_request (.invoke k args) s
  rw [invoked] at all
  rw [ran]
  exact all _ (List.mem_singleton_self _)

theorem flow {c : EvalTask κ Bool} {bodies : List (EvalTask κ Unit)} {flow : Flow}
    (branches : flow ≠ .whileLoop) (condition : Concludes answer c)
    (each : ∀ body ∈ bodies, Concludes answer body) (horizon : Nat) :
    Concludes answer (EvalTask.flow horizon c bodies flow) := by
  rw [EvalTask.flow_eq branches]
  refine condition.bind fun holds => ?_
  cases flow.chosen? holds with
  | none => exact .done ()
  | some index =>
      change Concludes answer (bodies.getD index (.done ()))
      rw [List.getD_eq_getElem?_getD]
      cases found : bodies[index]? with
      | none => exact .done ()
      | some body => exact each body (List.mem_of_getElem? found)

end Concludes

end Evaluation

namespace Node

open Evaluation

variable {horizon : Nat}

theorem concludes_input {input : Input κ}
    (node : ∀ n, input = .node n → Concludes answer (evaluate horizon n)) (slot : SlotKind) :
    Concludes answer (evaluateInput horizon slot input) := by
  cases input with
  | literal value => exact .done _
  | node n =>
      refine (node n rfl).bind fun output => ?_
      cases Value.convertOutput slot output with
      | ok value => exact .done value
      | error e => exact .fail _

theorem concludes_inputs {inputs : List (Input κ)}
    (each : ∀ n, .node n ∈ inputs → Concludes answer (evaluate horizon n))
    (slots : List SlotKind) : Concludes answer (evaluateInputs horizon slots inputs) := by
  induction inputs generalizing slots with
  | nil => exact .done []
  | cons input rest ih =>
      cases slots with
      | nil => exact .done []
      | cons slot slots =>
          have first : Concludes answer (evaluateInput horizon slot input) :=
            concludes_input (fun n eq => each n (eq ▸ List.mem_cons_self)) slot
          have later := ih (fun n mem => each n (List.mem_cons_of_mem _ mem)) slots
          exact first.bind fun value => later.bind fun values => .done (value :: values)

theorem concludes_list (polls : ∀ s, (answer .stopRequested s).isSome) {nodes : List (Node κ)}
    (each : ∀ n ∈ nodes, Concludes answer (evaluate horizon n)) :
    Concludes answer (evaluateList horizon nodes) := by
  induction nodes with
  | nil => exact .done ()
  | cons n rest ih =>
      obtain ⟨first, others⟩ := List.forall_mem_cons.1 each
      refine (Concludes.poll polls).bind fun stop => ?_
      cases stop with
      | true => exact .done ()
      | false => exact first.bind fun _ => ih others

theorem Loopless.concludes (polls : ∀ s, (answer .stopRequested s).isSome)
    (looks : ∀ name s, (answer (.get name) s).isSome) {n : Node κ} (loopless : n.Loopless) :
    Concludes answer (evaluate horizon n) := by
  induction loopless with
  | @intro n here _ ih =>
      cases n with
      | block k inputs =>
          have values := concludes_inputs (fun m mem => ih m (List.mem_filterMap.2 ⟨_, mem, rfl⟩))
            (describe k).slots
          exact values.bind fun args => .invoke k args
      | control k inputs bodies =>
          obtain ⟨inInputs, inBodies⟩ := List.forall_mem_append.1 ih
          cases described : (describe k).category with
          | control flow =>
              have branches : flow ≠ .whileLoop := by
                rintro rfl
                exact here described
              have condition : Concludes answer (tested horizon k inputs) :=
                (concludes_inputs (fun m mem => inInputs m (List.mem_filterMap.2 ⟨_, mem, rfl⟩))
                  _).bind fun values => .done (conditionHolds values)
              have lists : ∀ body ∈ evaluateBodies horizon bodies, Concludes answer body := by
                intro task mem
                obtain ⟨body, inside, rfl⟩ := mem_evaluateBodies mem
                exact concludes_list polls fun m mem =>
                  inBodies m (List.mem_flatten.2 ⟨body, inside, mem⟩)
              rw [evaluate_control described]
              exact (Concludes.flow branches condition lists horizon).bind fun _ => .done none
          | statement | expression | reference | declaration | shadow =>
              simp only [evaluate, described]
              exact .done none
      | reference k name =>
          refine (Concludes.lookup looks name).bind fun value => ?_
          cases value with
          | none => exact .fail _
          | some value => exact .done _
      | declaration k => exact .done none
      | shadow k shadowed covered =>
          rcases covered with _ | _ | m
          · exact .done none
          · exact .done _
          · exact ih m (by simp [parts, Input.asNode?])

theorem concludes_execute (polls : ∀ s, (answer .stopRequested s).isSome)
    (looks : ∀ name s, (answer (.get name) s).isSome) {roots : List (Node κ)}
    (loopless : ∀ n ∈ roots, n.Loopless) : Concludes answer (execute horizon roots) := by
  refine (concludes_list polls fun n mem => (loopless n mem).concludes polls looks).bind fun _ => ?_
  refine (Concludes.poll polls).bind fun stop => ?_
  cases stop <;> exact .done _

/-! ## Going through the tree once -/

theorem Loopless.walks {n : Node κ} (loopless : n.Loopless) (s : S) :
    Walks n (entries answer (trace horizon n) s) := by
  induction loopless generalizing s with
  | @intro n here _ ih =>
      cases n with
      | block k inputs =>
          exact walks_block (fun m mem => ih m (List.mem_filterMap.2 ⟨_, mem, rfl⟩)) s
      | control k inputs bodies =>
          obtain ⟨inInputs, inBodies⟩ := List.forall_mem_append.1 ih
          cases described : (describe k).category with
          | control flow =>
              have branches : flow ≠ .whileLoop := by
                rintro rfl
                exact here described
              exact walks_control described branches
                (fun m mem => inInputs m (List.mem_filterMap.2 ⟨_, mem, rfl⟩))
                (fun body inside m mem => inBodies m (List.mem_flatten.2 ⟨body, inside, mem⟩)) s
          | statement | expression | reference | declaration | shadow =>
              simp only [trace, described]
              exact .slots .nil
      | reference k name => exact walks_reference k name s
      | declaration k => exact .slots .nil
      | shadow k shadowed covered =>
          refine walks_shadow (fun m eq => ih m ?_) s
          subst eq
          exact List.mem_singleton_self m

theorem span_execute {roots : List (Node κ)} (loopless : ∀ n ∈ roots, n.Loopless) (s : S) :
    Span (occurs? roots) .root 0 (entries answer (traceExecute horizon roots) s) := by
  -- asking for a stop at the end leaves no entry
  have list : entries answer (traceExecute horizon roots) s =
      entries answer (traceList horizon .root 0 roots) s := by
    refine entries_bind_silent (fun _ s => ?_) s
    rw [Task.bind_eq_bind, entries_bind_silent fun stop _ => by cases stop <;> rfl, entries_poll]
  rw [list]
  refine span_list (fun _ _ same => Turn.root.inj same) (fun n mem => (loopless n mem).walks) 0 ?_ s
  intro i rest
  rw [Nat.zero_add]
  rfl

end Node

namespace Evaluation

/-- What is done in a program is done at most once: the evaluation of a node, the telling of its
condition, and the invocation of its behavior.  It is only done in statement lists that were
chosen. -/
structure OnceThrough (roots : List (Node κ)) (log : List (Entry κ S)) : Prop where
  found : ∀ e ∈ log, ∃ n, Node.occurs? roots e.occurrence = some n ∧ e.deed.OfNode n
  once : (log.map Entry.key).Nodup
  chosen : ∀ e ∈ log, ∀ block index position rest,
    e.occurrence = block ++ .body index position :: rest → Chosen log block index
  untaken : ∀ block flow holds, ⟨block, .note (.test flow holds)⟩ ∈ log →
    ∀ index, flow.chosen? holds ≠ some index → ∀ e ∈ log, ∀ position rest,
      e.occurrence ≠ block ++ .body index position :: rest

theorem Span.onceThrough {roots : List (Node κ)} {log : List (Entry κ S)}
    (span : Span (Node.occurs? roots) .root 0 log) : OnceThrough roots log := by
  have chosen : ∀ e ∈ log, ∀ block index position rest,
      e.occurrence = block ++ .body index position :: rest → Chosen log block index := by
    intro e mem block index position rest eq
    refine span.chosen e mem block index position rest ?_ eq
    rintro rfl
    obtain ⟨i, rest', -, occurs⟩ := span.within e mem
    cases occurs.symm.trans eq
  refine ⟨span.found, span.once, chosen, ?_⟩
  intro block flow holds told index other e mem position rest eq
  obtain ⟨flow', holds', told', chosen'⟩ := chosen e mem block index position rest eq
  -- a condition is told once, so the two tests are the same
  have same := List.inj_on_of_nodup_map span.once told told' rfl
  cases same
  exact other chosen'

end Evaluation

namespace Node

open Evaluation

/-- A program without loops comes to its end if all that it invokes does, however often loops may go
round, and goes through its tree at most once.  The copies that previews show may hold loops. -/
theorem execute_loopless (polls : ∀ s, (answer .stopRequested s).isSome)
    (looks : ∀ name s, (answer (.get name) s).isSome) {roots : List (Node κ)}
    (loopless : ∀ n ∈ roots, n.Loopless) (s : S) :
    ((∀ x ∈ invocations answer (execute 0 roots) s, x.Ends answer) →
      ∃ result, result.1 ≠ .unfinished ∧
        ∀ horizon, Task.run answer (actions (execute horizon roots)) s = result) ∧
    ∀ horizon, (traceExecute horizon roots).bare = execute horizon roots ∧
      (entries answer (traceExecute horizon roots) s).filterMap Entry.invocation? =
        invocations answer (execute horizon roots) s ∧
      OnceThrough roots (entries answer (traceExecute horizon roots) s) := by
  refine ⟨fun ends => ?_, fun horizon => ⟨traceExecute_bare horizon roots, ?_, ?_⟩⟩
  · have ended := concludes_execute polls looks loopless s ends
    exact ⟨_, ended, fun horizon => run_execute_of_le (Nat.zero_le horizon) roots s ended⟩
  · rw [← traceExecute_bare, invocations_bare]
  · exact (span_execute loopless s).onceThrough

section

open Catalog

def branching : List (Node Block) :=
  [.control (.builtin (.control .ifElse)) [.node (.reference (.builtin .reference) "x")]
      [[.block .assign [.literal (.text "x"), .literal (.boolean false)]],
        [.block .assign [.literal (.text "x"), .literal (.boolean true)]]],
    .shadow (.builtin .shadow)
      (some (.control (.builtin (.control .whileLoop)) [.literal (.boolean true)] [[]])) none]

theorem execute_loopless_branching :
    (∀ horizon, ((Machine.bare (.ofList [("x", .boolean true)])).run
      (actions (execute horizon branching))).1 = .done .completed) ∧
    OnceThrough branching (entries Machine.answer (traceExecute 1 branching)
      (Machine.bare (.ofList [("x", .boolean true)]))) := by
  have loopless : ∀ n ∈ branching, n.Loopless := by
    have leaf {n : Node Block} (here : n.category ≠ .control .whileLoop) (none : n.parts = []) :
        n.Loopless := ⟨here, none ▸ nofun⟩
    rintro n (_ | ⟨_, _ | ⟨_, ⟨⟩⟩⟩)
    · refine ⟨nofun, ?_⟩
      rintro m (_ | ⟨_, _ | ⟨_, _ | ⟨_, ⟨⟩⟩⟩⟩)
      · exact leaf nofun rfl
      · exact leaf nofun rfl
      · exact leaf nofun rfl
    · exact leaf nofun rfl
  obtain ⟨ends, once⟩ := @execute_loopless _ _ _ Machine.answer (fun _ => rfl)
    (fun _ _ => rfl) _ loopless (Machine.bare (.ofList [("x", .boolean true)]))
  have assigned : ∀ x ∈ invocations Machine.answer (execute 0 branching)
      (Machine.bare (.ofList [("x", .boolean true)])), x.Ends Machine.answer := by
    rintro x (_ | ⟨_, ⟨⟩⟩)
    nofun
  obtain ⟨result, -, same⟩ := ends assigned
  exact ⟨fun horizon => congrArg Prod.fst ((same horizon).trans (same 0).symm), (once 1).2.2⟩

end

end Node

end BlockScript
