import BlockScript.Proofs.Evaluation.Invocations

/-!
# Evaluation with occurrences

The requests of an evaluation do not tell for which node of a program they are made, and the
evaluation of many a node asks for nothing.  `Node.trace` is evaluation that notes when each node
starts and what the condition of a control block was, and labels these notes and all requests with
the occurrence of the node: the turns that lead to it.

* `traceExecute_bare`: without labels and notes this is the evaluation itself.
* `entries`: what a run notes and invokes, each at its occurrence; leaving out the notes gives the
  invocations of the run (`invocations_bare`).
-/

namespace BlockScript

/-! ## Labels -/

def Signature.labelled (σ : Signature) (ι : Type) : Signature :=
  ⟨ι × σ.Request, fun request => σ.Answer request.2⟩

namespace Task

variable {σ : Signature} {ι ε α β : Type}

def unlabel : Task (σ.labelled ι) ε α → Task σ ε α
  | done a => done a
  | fail e => fail e
  | crash => crash
  | unfinished => unfinished
  | ask request resume => ask request.2 fun answer => unlabel (resume answer)

def label (i : ι) : Task σ ε α → Task (σ.labelled ι) ε α
  | done a => done a
  | fail e => fail e
  | crash => crash
  | unfinished => unfinished
  | ask request resume => ask (i, request) fun answer => label i (resume answer)

def relabel (f : ι → ι) : Task (σ.labelled ι) ε α → Task (σ.labelled ι) ε α
  | done a => done a
  | fail e => fail e
  | crash => crash
  | unfinished => unfinished
  | ask request resume => ask (f request.1, request.2) fun answer => relabel f (resume answer)

theorem unlabel_bind (t : Task (σ.labelled ι) ε α) (f : α → Task (σ.labelled ι) ε β) :
    (t.bind f).unlabel = t.unlabel.bind fun a => (f a).unlabel := by
  induction t with
  | ask request resume ih => exact congrArg (ask request.2) (funext fun answer => ih answer)
  | _ => rfl

theorem unlabel_label (i : ι) (t : Task σ ε α) : (t.label i).unlabel = t := by
  induction t with
  | ask request resume ih => exact congrArg (ask request) (funext fun answer => ih answer)
  | _ => rfl

theorem unlabel_relabel (f : ι → ι) (t : Task (σ.labelled ι) ε α) :
    (t.relabel f).unlabel = t.unlabel := by
  induction t with
  | ask request resume ih => exact congrArg (ask request.2) (funext fun answer => ih answer)
  | _ => rfl

end Task

/-! ## Occurrences -/

inductive Turn where
  | root (position : Nat)
  | slot (slot : Nat)
  | body (index position : Nat)
  | covered
deriving DecidableEq, Repr

abbrev Occurrence := List Turn

variable {κ : Type}

namespace Node

def turn? (n : Node κ) : Turn → Option (Node κ)
  | .root _ => none
  | .slot slot => n.inputs[slot]?.bind Input.asNode?
  | .body index position => n.bodies[index]?.bind (·[position]?)
  | .covered => n.covered?.bind Input.asNode?

def occurring? : Node κ → Occurrence → Option (Node κ)
  | n, [] => some n
  | n, turn :: rest => (n.turn? turn).bind (·.occurring? rest)

def occurs? (roots : List (Node κ)) : Occurrence → Option (Node κ)
  | .root position :: rest => roots[position]?.bind (·.occurring? rest)
  | _ => none

end Node

/-! ## Evaluation with notes -/

inductive Note (κ : Type) where
  | start (n : Node κ)
  | test (flow : Flow) (holds : Bool)

/-- The labels are relative to the node that is evaluated. -/
abbrev TraceTask (κ α : Type) :=
  Task (((Evaluation.signature κ).marked (Note κ)).labelled Occurrence) EvalError α

namespace TraceTask

variable {α β : Type}

def bare (w : TraceTask κ α) : EvalTask κ α := w.unlabel.unmark

def note (m : Note κ) : TraceTask κ Unit := (Task.mark m).label []

def here (t : EvalTask κ α) : TraceTask κ α := t.plain.label []

def below (turn : Turn) (w : TraceTask κ α) : TraceTask κ α := w.relabel (turn :: ·)

def told (flow : Flow) (condition : TraceTask κ Bool) : TraceTask κ Bool := do
  let holds ← condition
  note (.test flow holds)
  return holds

def loop (condition : TraceTask κ Bool) (body : TraceTask κ Unit) : Nat → TraceTask κ Unit
  | 0 => .unfinished
  | horizon + 1 => do
    if ← here EvalTask.poll then return ()
    else if ← told .whileLoop condition then
      body
      loop condition body horizon
    else return ()

def flow (horizon : Nat) (condition : TraceTask κ Bool) (bodies : List (TraceTask κ Unit)) :
    Flow → TraceTask κ Unit
  | .ifThen => do if ← told .ifThen condition then bodies.getD 0 (.done ()) else return ()
  | .ifElse => do
    if ← told .ifElse condition then bodies.getD 0 (.done ()) else bodies.getD 1 (.done ())
  | .whileLoop => loop condition (bodies.getD 0 (.done ())) horizon

/-! ## Leaving labels and notes out -/

@[simp] theorem bare_bind (w : TraceTask κ α) (f : α → TraceTask κ β) :
    bare (w.bind f) = (bare w).bind fun a => bare (f a) := by
  unfold bare
  rw [Task.unlabel_bind, Task.unmark_bind]

@[simp] theorem bare_here (t : EvalTask κ α) : (here t).bare = t := by
  unfold bare here
  rw [Task.unlabel_label, Task.unmark_plain]

@[simp] theorem bare_below (turn : Turn) (w : TraceTask κ α) : (w.below turn).bare = w.bare := by
  unfold bare below
  rw [Task.unlabel_relabel]

@[simp] theorem bare_told (flow : Flow) (condition : TraceTask κ Bool) :
    (told flow condition).bare = condition.bare := by
  rw [told, Task.bind_eq_bind, bare_bind]
  exact Task.bind_done _

theorem bare_map (f : α → β) (w : TraceTask κ α) : bare (f <$> w) = f <$> bare w :=
  bare_bind w fun a => .done (f a)

theorem bare_loop (condition : TraceTask κ Bool) (body : TraceTask κ Unit) (horizon : Nat) :
    (loop condition body horizon).bare = EvalTask.loop condition.bare body.bare horizon := by
  induction horizon with
  | zero => rfl
  | succ horizon ih =>
      simp only [loop, EvalTask.loop, Task.bind_eq_bind, bare_bind, bare_here]
      congr 1
      funext stop
      cases stop with
      | true => rfl
      | false =>
          simp only [Bool.false_eq_true, if_false, bare_bind, bare_told]
          congr 1
          funext holds
          cases holds with
          | true => simp only [if_true, bare_bind, ih]
          | false => rfl

theorem bare_flow (horizon : Nat) (condition : TraceTask κ Bool) (bodies : List (TraceTask κ Unit))
    (flow : Flow) : (TraceTask.flow horizon condition bodies flow).bare =
      EvalTask.flow horizon condition.bare (bodies.map bare) flow := by
  have body (i : Nat) : (bodies.getD i (.done ())).bare = (bodies.map bare).getD i (.done ()) := by
    rw [List.getD_eq_getElem?_getD, List.getD_eq_getElem?_getD, List.getElem?_map]
    cases bodies[i]? <;> rfl
  cases flow with
  | ifThen =>
      simp only [TraceTask.flow, EvalTask.flow, Task.bind_eq_bind, bare_bind, bare_told, ← body]
      congr 1
      funext holds
      cases holds <;> rfl
  | ifElse =>
      simp only [TraceTask.flow, EvalTask.flow, Task.bind_eq_bind, bare_bind, bare_told, ← body]
      congr 1
      funext holds
      cases holds <;> rfl
  | whileLoop => rw [TraceTask.flow, EvalTask.flow, bare_loop, body]

end TraceTask

variable [Vocabulary κ]

namespace Node

open TraceTask

mutual

def trace (horizon : Nat) : Node κ → TraceTask κ (Option Value)
  | n@(block k inputs) => do
    note (.start n)
    let args ← traceInputs horizon (describe k).slots 0 inputs
    here (EvalTask.invoke k args)
  | n@(control k inputs bodies) => do
    note (.start n)
    match (describe k).category with
    | .control flow =>
      let condition := conditionHolds <$> traceInputs horizon (describe k).slots 0 inputs
      TraceTask.flow horizon condition (traceBodies horizon 0 bodies) flow
      return none
    | _ => return none
  | n@(reference _ name) => do
    note (.start n)
    match ← here (EvalTask.lookup name) with
    | some value => return some value
    | none => .fail (.undefinedVariable name)
  | n@(declaration _) => do
    note (.start n)
    return none
  | n@(shadow _ _ covered) => do
    note (.start n)
    traceCovered horizon covered

def traceInput (horizon : Nat) (slot : SlotKind) : Input κ → TraceTask κ Value
  | .literal value => return value.convert slot
  | .node n => do
    match Value.convertOutput slot (← trace horizon n) with
    | .ok value => return value
    | .error e => .fail (.value e)

def traceInputs (horizon : Nat) (slots : List SlotKind) (first : Nat) :
    List (Input κ) → TraceTask κ (List Value)
  | [] => return []
  | input :: rest =>
    match slots with
    | [] => return []
    | slot :: slots => do
      let value ← (traceInput horizon slot input).below (.slot first)
      let values ← traceInputs horizon slots (first + 1) rest
      return value :: values

def traceList (horizon : Nat) (turn : Nat → Turn) (first : Nat) :
    List (Node κ) → TraceTask κ Unit
  | [] => return ()
  | n :: rest => do
    if ← here EvalTask.poll then return ()
    else
      let _ ← (trace horizon n).below (turn first)
      traceList horizon turn (first + 1) rest

def traceBodies (horizon : Nat) (first : Nat) : List (List (Node κ)) → List (TraceTask κ Unit)
  | [] => []
  | body :: rest => traceList horizon (.body first) 0 body :: traceBodies horizon (first + 1) rest

def traceCovered (horizon : Nat) : Option (Input κ) → TraceTask κ (Option Value)
  | none => return none
  | some (.literal value) => return some value
  | some (.node n) => (trace horizon n).below .covered

end

def traceExecute (horizon : Nat) (roots : List (Node κ)) : TraceTask κ Outcome := do
  traceList horizon .root 0 roots
  if ← here EvalTask.poll then return .stopped else return .completed

end Node

/-! ## Nodes without notes -/

namespace Node

variable {horizon : Nat}

theorem traceInput_bare {input : Input κ}
    (node : ∀ n, input = .node n → (trace horizon n).bare = evaluate horizon n) (slot : SlotKind) :
    (traceInput horizon slot input).bare = evaluateInput horizon slot input := by
  cases input with
  | literal value => rfl
  | node n =>
      simp only [traceInput, evaluateInput, Task.bind_eq_bind, TraceTask.bare_bind, node n rfl]
      congr 1
      funext output
      cases Value.convertOutput slot output <;> rfl

theorem traceInputs_bare {inputs : List (Input κ)}
    (each : ∀ input ∈ inputs, ∀ slot,
      (traceInput horizon slot input).bare = evaluateInput horizon slot input)
    (slots : List SlotKind) (first : Nat) :
    (traceInputs horizon slots first inputs).bare = evaluateInputs horizon slots inputs := by
  induction inputs generalizing slots first with
  | nil => rfl
  | cons input rest ih =>
      cases slots with
      | nil => rfl
      | cons slot slots =>
          obtain ⟨here, others⟩ := List.forall_mem_cons.1 each
          simp only [traceInputs, evaluateInputs, Task.bind_eq_bind, TraceTask.bare_bind,
            TraceTask.bare_below, here, ih others]
          rfl

theorem traceList_bare {nodes : List (Node κ)}
    (each : ∀ n ∈ nodes, (trace horizon n).bare = evaluate horizon n) (turn : Nat → Turn)
    (first : Nat) : (traceList horizon turn first nodes).bare = evaluateList horizon nodes := by
  induction nodes generalizing first with
  | nil => rfl
  | cons n rest ih =>
      obtain ⟨here, others⟩ := List.forall_mem_cons.1 each
      simp only [traceList, evaluateList, Task.bind_eq_bind, TraceTask.bare_bind,
        TraceTask.bare_here]
      congr 1
      funext stop
      cases stop with
      | true => rfl
      | false =>
          simp only [Bool.false_eq_true, if_false, TraceTask.bare_bind, TraceTask.bare_below, here,
            ih others]

theorem traceBodies_bare {bodies : List (List (Node κ))}
    (each : ∀ body ∈ bodies, ∀ n ∈ body, (trace horizon n).bare = evaluate horizon n)
    (first : Nat) :
    (traceBodies horizon first bodies).map TraceTask.bare = evaluateBodies horizon bodies := by
  induction bodies generalizing first with
  | nil => rfl
  | cons body rest ih =>
      obtain ⟨here, others⟩ := List.forall_mem_cons.1 each
      rw [traceBodies, evaluateBodies, List.map_cons, traceList_bare here, ih others]

theorem trace_bare (horizon : Nat) (n : Node κ) : (trace horizon n).bare = evaluate horizon n := by
  induction n using Node.induction with
  | step n ih =>
      have input (input : Input κ) (under : ∀ m, input = .node m → m ∈ n.children) :
          ∀ slot, (traceInput horizon slot input).bare = evaluateInput horizon slot input :=
        traceInput_bare fun m eq => ih m (under m eq)
      cases n with
      | block k inputs =>
          have values := traceInputs_bare (fun i mem => input i fun m eq =>
            List.mem_filterMap.2 ⟨_, eq ▸ mem, rfl⟩) (describe k).slots 0
          simp only [trace, evaluate, Task.bind_eq_bind, TraceTask.bare_bind, TraceTask.bare_here,
            values]
          rfl
      | control k inputs bodies =>
          have values := traceInputs_bare (fun i mem => input i fun m eq =>
            List.mem_append_left _ (List.mem_filterMap.2 ⟨_, eq ▸ mem, rfl⟩)) (describe k).slots 0
          have lists := traceBodies_bare (fun body mem m inside =>
            ih m (List.mem_append_right _ (List.mem_flatten.2 ⟨body, mem, inside⟩))) 0
          simp only [trace, evaluate]
          cases (describe k).category with
          | control flow =>
              simp only [Task.bind_eq_bind, TraceTask.bare_bind, TraceTask.bare_flow,
                TraceTask.bare_map, values, lists]
              rfl
          | statement | expression | reference | declaration | shadow => rfl
      | reference k name =>
          simp only [trace, evaluate, Task.bind_eq_bind, TraceTask.bare_bind, TraceTask.bare_here]
          change (EvalTask.lookup name).bind _ = _
          congr 1
          funext value
          cases value <;> rfl
      | declaration k =>
          simp only [trace, evaluate]
          rfl
      | shadow k shadowed covered =>
          simp only [trace, evaluate]
          rcases covered with _ | _ | m
          · rfl
          · rfl
          · exact (TraceTask.bare_below _ _).trans (ih m (by simp [children, Input.asNode?]))

/-- Labels and notes are all that a traced program adds. -/
theorem traceExecute_bare (horizon : Nat) (roots : List (Node κ)) :
    (traceExecute horizon roots).bare = execute horizon roots := by
  have list := traceList_bare (fun n (_ : n ∈ roots) => trace_bare horizon n) .root 0
  simp only [traceExecute, execute, Task.bind_eq_bind, TraceTask.bare_bind, TraceTask.bare_here,
    list]
  congr 1
  funext _
  congr 1
  funext stop
  cases stop <;> rfl

end Node

/-! ## What a run notes and invokes -/

namespace Evaluation

variable {S : Type}

inductive Deed (κ S : Type) where
  | note (m : Note κ)
  | invocation (x : Invocation κ S)

structure Entry (κ S : Type) where
  occurrence : Occurrence
  deed : Deed κ S

namespace Entry

def invocation? (e : Entry κ S) : Option (Invocation κ S) :=
  match e.deed with
  | .invocation x => some x
  | .note _ => none

def below (turn : Turn) (e : Entry κ S) : Entry κ S := ⟨turn :: e.occurrence, e.deed⟩

end Entry

variable {α β : Type} {answer : (action : Action) → S → Option (action.Answer × S)}

def entries (answer : (action : Action) → S → Option (action.Answer × S)) :
    TraceTask κ α → S → List (Entry κ S)
  | .ask (occurrence, .inl request) resume, s =>
    (Request.record request s (serve answer request s).2).map (⟨occurrence, .invocation ·⟩) ++
      Ending.thenLog (fun a s => entries answer (resume a) s) (serve answer request s)
  | .ask (occurrence, .inr m) resume, s => ⟨occurrence, .note m⟩ :: entries answer (resume ()) s
  | _, _ => []

theorem invocations_bare (w : TraceTask κ α) (s : S) :
    invocations answer w.bare s = (entries answer w s).filterMap Entry.invocation? := by
  induction w generalizing s with
  | ask request resume ih =>
      obtain ⟨occurrence, request | m⟩ := request
      · have records (log : List (Invocation κ S)) :
            (log.map (⟨occurrence, .invocation ·⟩)).filterMap Entry.invocation? = log := by
          rw [List.filterMap_map]
          exact List.filterMap_some
        rw [entries, List.filterMap_append, records]
        change Request.record request s _ ++ Ending.thenLog _ (serve answer request s) = _
        rcases serve answer request s with ⟨ending, s'⟩
        cases ending with
        | done a => exact congrArg _ (ih a s')
        | failed | crashed | unfinished => rfl
      · exact ih () s
  | _ => rfl

theorem entries_bind (w : TraceTask κ α) (f : α → TraceTask κ β) (s : S) :
    entries answer (w.bind f) s = entries answer w s ++
      Ending.thenLog (fun a s => entries answer (f a) s) (Task.run answer (actions w.bare) s) := by
  induction w generalizing s with
  | ask request resume ih =>
      obtain ⟨occurrence, request | m⟩ := request
      · have ran :
            Task.run answer (actions (TraceTask.bare (.ask (occurrence, .inl request) resume))) s =
              Ending.andThen (fun a s => Task.run answer (actions (TraceTask.bare (resume a))) s)
              (serve answer request s) := run_ask request _ s
        rw [ran, entries, List.append_assoc]
        change _ ++ Ending.thenLog (fun a s => entries answer (Task.bind f (resume a)) s)
          (serve answer request s) = _
        congr 1
        rcases serve answer request s with ⟨ending, s'⟩
        cases ending with
        | done a => exact ih a s'
        | failed | crashed | unfinished => rfl
      · exact congrArg (⟨occurrence, .note m⟩ :: ·) (ih () s)
  | _ => rfl

theorem entries_bind_cases (answer : (action : Action) → S → Option (action.Answer × S))
    (w : TraceTask κ α) (f : α → TraceTask κ β) (s : S) :
    entries answer (w.bind f) s = entries answer w s ∨
      ∃ a s', Task.run answer (actions w.bare) s = (.done a, s') ∧
        entries answer (w.bind f) s = entries answer w s ++ entries answer (f a) s' := by
  rw [entries_bind]
  rcases ran : Task.run answer (actions w.bare) s with ⟨ending, s'⟩
  rw [ran]
  cases ending with
  | done a => exact .inr ⟨a, s', rfl, rfl⟩
  | failed | crashed | unfinished => exact .inl (List.append_nil _)

theorem entries_bind_silent {w : TraceTask κ α} {f : α → TraceTask κ β}
    (silent : ∀ a s, entries answer (f a) s = []) (s : S) :
    entries answer (w.bind f) s = entries answer w s := by
  rcases entries_bind_cases answer w f s with none | ⟨a, s', -, next⟩
  · exact none
  · rw [next, silent, List.append_nil]

theorem entries_below (turn : Turn) (w : TraceTask κ α) (s : S) :
    entries answer (w.below turn) s = (entries answer w s).map (Entry.below turn) := by
  induction w generalizing s with
  | ask request resume ih =>
      obtain ⟨occurrence, request | m⟩ := request
      · rw [entries, List.map_append, List.map_map]
        change _ ++ Ending.thenLog (fun a s => entries answer (TraceTask.below turn (resume a)) s)
          (serve answer request s) = _
        congr 1
        rcases serve answer request s with ⟨ending, s'⟩
        cases ending with
        | done a => exact ih a s'
        | failed | crashed | unfinished => rfl
      · exact congrArg (⟨turn :: occurrence, .note m⟩ :: ·) (ih () s)
  | _ => rfl

theorem entries_request (request : (signature κ).Request) (s : S) :
    entries answer (TraceTask.here (.ask request .done)) s =
      (Request.record request s (serve answer request s).2).map (⟨[], .invocation ·⟩) := by
  change _ ++ Ending.thenLog _ (serve answer request s) = _
  rcases serve answer request s with ⟨ending, s'⟩
  cases ending <;> exact List.append_nil _

theorem entries_note_bind (m : Note κ) (f : Unit → TraceTask κ α) (s : S) :
    entries answer ((TraceTask.note m).bind f) s = ⟨[], .note m⟩ :: entries answer (f ()) s := rfl

theorem entries_told_bind (answer : (action : Action) → S → Option (action.Answer × S))
    (flow : Flow) (w : TraceTask κ α) (test : α → Bool) (f : Bool → TraceTask κ β) (s : S) :
    entries answer ((TraceTask.told flow (test <$> w)).bind f) s = entries answer w s ∨
      ∃ a s', entries answer ((TraceTask.told flow (test <$> w)).bind f) s = entries answer w s ++
        ⟨[], .note (.test flow (test a))⟩ :: entries answer (f (test a)) s' := by
  have steps : (TraceTask.told flow (test <$> w)).bind f = w.bind fun a =>
      (TraceTask.note (.test flow (test a))).bind fun _ => f (test a) := by
    rw [TraceTask.told, Task.bind_eq_bind, Task.bind_bind]
    exact Task.bind_bind w _ _
  rw [steps]
  exact (entries_bind_cases answer w _ s).imp_right fun ⟨a, s', _, next⟩ => ⟨a, s', next⟩

end Evaluation

end BlockScript
