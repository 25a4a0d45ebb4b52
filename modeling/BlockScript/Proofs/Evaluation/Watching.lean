import BlockScript.Proofs.Evaluation.Rules
import BlockScript.Run.Machine

/-!
# Evaluation with marks

The requests of an evaluation do not show where a statement starts or where the condition of a loop
is evaluated.  `Node.watch` is the evaluation of a node with a mark at these places; that nothing
else has been added is one half of `Watches`.

The other half, `Calm`, says what a stop does to the marks: a task that is under way at the time
comes to no mark as long as its polls tell of the stop, unless it stands right before one, whose
poll it has passed.  `watchExecute_unmark` and `watchExecute_settled` prove both for every program,
and `Settled.follows` says what becomes of a run that is told to stop.
-/

namespace BlockScript

def Signature.marked (σ : Signature) (μ : Type) : Signature :=
  ⟨σ.Request ⊕ μ, Sum.elim σ.Answer fun _ => Unit⟩

namespace Task

variable {σ τ : Signature} {μ ε α β : Type}

def unmark : Task (σ.marked μ) ε α → Task σ ε α
  | done a => done a
  | fail e => fail e
  | crash => crash
  | unfinished => unfinished
  | ask (.inl request) resume => ask request fun answer => unmark (resume answer)
  | ask (.inr _) resume => unmark (resume ())

def plain : Task σ ε α → Task (σ.marked μ) ε α
  | done a => done a
  | fail e => fail e
  | crash => crash
  | unfinished => unfinished
  | ask request resume => ask (Sum.inl request) fun answer => plain (resume answer)

def mark (m : μ) : Task (σ.marked μ) ε Unit := ask (Sum.inr m) done

def exchanges (log : List (Exchange (σ.marked μ))) : List (Exchange σ) :=
  log.filterMap fun
    | ⟨.inl request, answer⟩ => some ⟨request, answer⟩
    | ⟨.inr _, _⟩ => none

theorem exchanges_append (log log' : List (Exchange (σ.marked μ))) :
    exchanges (log ++ log') = exchanges log ++ exchanges log' :=
  List.filterMap_append

theorem unmark_bind (t : Task (σ.marked μ) ε α) (f : α → Task (σ.marked μ) ε β) :
    (t.bind f).unmark = t.unmark.bind fun a => (f a).unmark := by
  induction t with
  | ask request resume ih =>
      cases request with
      | inl request => exact congrArg (ask request) (funext fun answer => ih answer)
      | inr m => exact ih ()
  | _ => rfl

@[simp] theorem unmark_plain (t : Task σ ε α) : (t.plain : Task (σ.marked μ) ε α).unmark = t := by
  induction t with
  | ask request resume ih => simp only [plain, unmark, ih]
  | _ => rfl

theorem interpret_bind (handle : (r : σ.Request) → Task τ ε (σ.Answer r)) (t : Task σ ε α)
    (f : α → Task σ ε β) :
    (t.bind f).interpret handle = (t.interpret handle).bind fun a => (f a).interpret handle := by
  induction t with
  | ask request resume ih =>
      simp only [bind, interpret, bind_bind]
      exact congrArg (Task.bind · (handle request)) (funext ih)
  | _ => rfl

theorem Follows.unmark {t u : Task (σ.marked μ) ε α} {log : List (Exchange (σ.marked μ))}
    (follows : t.Follows log u) : t.unmark.Follows (exchanges log) u.unmark := by
  induction follows with
  | nil t => exact .nil _
  | @cons request _ _ _ _ _ ih =>
      cases request with
      | inl request => exact .cons ih
      | inr m => exact ih

theorem Follows.of_unmark {t : Task (σ.marked μ) ε α} {log : List (Exchange σ)} {u : Task σ ε α}
    (follows : t.unmark.Follows log u) :
    ∃ marked t', t.Follows marked t' ∧ exchanges marked = log ∧ t'.unmark = u := by
  induction t generalizing log with
  | ask request resume ih =>
      cases request with
      | inl request =>
          cases follows with
          | nil => exact ⟨[], _, .nil _, rfl, rfl⟩
          | @cons _ _ answer log _ rest =>
              obtain ⟨marked, t', start, rfl, eq⟩ := ih answer rest
              exact ⟨⟨.inl request, answer⟩ :: marked, t', .cons start, rfl, eq⟩
      | inr m =>
          obtain ⟨marked, t', rest, rfl, eq⟩ := ih () follows
          exact ⟨⟨.inr m, ()⟩ :: marked, t', .cons rest, rfl, eq⟩
  | _ =>
      cases follows
      exact ⟨[], _, .nil _, rfl, rfl⟩

theorem Follows.of_plain {t : Task σ ε α} {log : List (Exchange (σ.marked μ))}
    {u : Task (σ.marked μ) ε α} (follows : t.plain.Follows log u) :
    (∃ t' : Task σ ε α, u = t'.plain) ∧ ∀ x ∈ log, x.1.isLeft := by
  induction t generalizing log with
  | ask request resume ih =>
      cases follows with
      | nil => exact ⟨⟨.ask request resume, rfl⟩, nofun⟩
      | cons follows =>
          obtain ⟨left, none⟩ := ih _ follows
          exact ⟨left, List.forall_mem_cons.2 ⟨rfl, none⟩⟩
  | _ =>
      cases follows
      exact ⟨⟨_, rfl⟩, nofun⟩

end Task

variable {κ : Type}

inductive Mark (κ : Type) where
  | statement (n : Node κ)
  | condition (k : κ) (inputs : List (Input κ))

abbrev WatchTask (κ α : Type) := Task (Action.signature.marked (Mark κ)) EvalError α

abbrev WatchLog (κ : Type) := List (Task.Exchange (Action.signature.marked (Mark κ)))

namespace WatchTask

def poll : WatchTask κ Bool := ActionTask.stopRequested.plain

def lookup (name : String) : WatchTask κ (Option Value) := (ActionTask.get name).plain

def invoke [Vocabulary κ] (k : κ) (args : Arguments) : WatchTask κ (Option Value) :=
  (Evaluation.perform (.invoke k args)).plain

def unlessStopped (m : Mark κ) (rest : WatchTask κ Unit) : WatchTask κ Unit := do
  if ← poll then return ()
  else
    Task.mark m
    rest

def loop (m : Mark κ) (condition : WatchTask κ Bool) (body : WatchTask κ Unit) :
    Nat → WatchTask κ Unit
  | 0 => .unfinished
  | horizon + 1 => unlessStopped m do
    if ← condition then
      body
      loop m condition body horizon
    else return ()

def flow (m : Mark κ) (horizon : Nat) (condition : WatchTask κ Bool)
    (bodies : List (WatchTask κ Unit)) : Flow → WatchTask κ Unit
  | .ifThen => do if ← condition then bodies.getD 0 (.done ()) else return ()
  | .ifElse => do
    if ← condition then bodies.getD 0 (.done ()) else bodies.getD 1 (.done ())
  | .whileLoop => loop m condition (bodies.getD 0 (.done ())) horizon

end WatchTask

/-! ## Marks under a stop -/

namespace WatchTask

variable {α β : Type}

def passed : Task.Exchange (Action.signature.marked (Mark κ)) := ⟨.inl .stopRequested, false⟩

/-- Every mark comes right after a poll that tells of no stop. -/
def Polled (log : WatchLog κ) : Prop :=
  ∀ before m after, log = before ++ ⟨.inr m, ()⟩ :: after → before.getLast? = some passed

def stopping (κ : Type) : Contract (Action.signature.marked (Mark κ)) EvalError where
  asks request := request.isLeft
  answers request answer := (⟨request, answer⟩ : Task.Exchange _) ≠ passed
  fails _ := True

/-- The task comes to no mark under a stop, or stands right before the only one, or has ended. -/
def Settled (post : α → Prop) (t : WatchTask κ α) : Prop :=
  t.Obeys (stopping κ) post ∨
  (∃ m resume, t = .ask (.inr m) resume ∧ (resume ()).Obeys (stopping κ) post) ∨
  ∃ a, t = .done a

structure Calm (t : WatchTask κ α) : Prop where
  start : t.Obeys (stopping κ) fun _ => True
  polled : ∀ log u, t.Follows log u → Polled log
  settled : ∀ log u, t.Follows log u → Settled (fun _ => True) u

theorem Polled.of_isLeft {log : WatchLog κ} (none : ∀ x ∈ log, x.1.isLeft) : Polled log := by
  rintro before m after rfl
  cases none ⟨.inr m, ()⟩ (by simp)

theorem polled_mark (m : Mark κ) : Polled [passed, ⟨.inr m, ()⟩] := by
  intro before m' after eq
  rcases before with _ | ⟨x, _ | ⟨y, before⟩⟩
  · cases eq
  · cases eq
    rfl
  · simp at eq

theorem Polled.append {log log' : WatchLog κ} (first : Polled log) (second : Polled log') :
    Polled (log ++ log') := by
  intro before m after eq
  rcases List.append_eq_append_iff.1 eq with ⟨middle, rfl, rest⟩ | ⟨middle, rfl, rest⟩
  · have last := second middle m after rest
    rw [List.getLast?_append, last, Option.some_or]
  · cases middle with
    | nil => cases second [] m after rest.symm
    | cons x middle =>
        obtain ⟨rfl, rfl⟩ := List.cons.inj rest
        exact first before m middle rfl

theorem Settled.bind {t : WatchTask κ α} {f : α → WatchTask κ β} {post : β → Prop}
    (h : Settled (fun _ => True) t) (next : ∀ a, (f a).Obeys (stopping κ) post) :
    Settled post (t.bind f) := by
  rcases h with obeys | ⟨m, resume, rfl, obeys⟩ | ⟨a, rfl⟩
  · exact .inl ((Task.obeys_bind ..).2 (obeys.imp fun a _ => next a))
  · exact .inr (.inl ⟨m, _, rfl, (Task.obeys_bind ..).2 (obeys.imp fun a _ => next a)⟩)
  · exact .inl (next a)

/-- What a stop leaves of a settled task: no mark but at its very beginning, and the result that is
due under a stop, unless the task has ended before. -/
theorem Settled.follows {post : α → Prop} {t u : WatchTask κ α} {log : WatchLog κ}
    (h : Settled post t) (follows : t.Follows log u) (stop : passed ∉ log) :
    (∀ x ∈ log.tail, x.1.isLeft) ∧ ∀ a, u.unmark = .done a → post a ∨ t.unmark = .done a := by
  have quiet {t : WatchTask κ α} {log : WatchLog κ} (obeys : t.Obeys (stopping κ) post)
      (follows : t.Follows log u) (stop : passed ∉ log) :
      (∀ x ∈ log, x.1.isLeft) ∧ u.Obeys (stopping κ) post := by
    obtain ⟨rest, none⟩ := obeys.follows follows fun x mem eq => stop (eq ▸ mem)
    exact ⟨none, rest⟩
  have result {t : WatchTask κ α} {a : α} (obeys : t.Obeys (stopping κ) post)
      (ends : t.unmark = .done a) : post a := by
    cases t with
    | done b =>
        cases ends
        exact obeys
    | ask request resume =>
        cases request with
        | inl => cases ends
        | inr => cases obeys.1
    | _ => cases ends
  rcases h with obeys | ⟨m, resume, rfl, obeys⟩ | ⟨b, rfl⟩
  · obtain ⟨none, rest⟩ := quiet obeys follows stop
    exact ⟨fun x mem => none x (List.mem_of_mem_tail mem), fun a ends => .inl (result rest ends)⟩
  -- the mark that the task stands at is the first of the log, and its tail is without
  · cases follows with
    | nil => exact ⟨nofun, fun a ends => .inl (result obeys ends)⟩
    | cons follows =>
        obtain ⟨none, rest⟩ := quiet obeys follows fun mem => stop (List.mem_cons_of_mem _ mem)
        exact ⟨none, fun a ends => .inl (result rest ends)⟩
  · cases follows
    exact ⟨nofun, fun a ends => .inr ends⟩

namespace Calm

theorem plain (t : ActionTask EvalError α) : Calm (κ := κ) t.plain := by
  have obeys (t : ActionTask EvalError α) :
      (t.plain : WatchTask κ α).Obeys (stopping κ) fun _ => True := by
    induction t with
    | ask request resume ih => exact ⟨rfl, fun answer _ => ih answer⟩
    | _ => trivial
  refine ⟨obeys t, fun log u follows => ?_, fun log u follows => ?_⟩
  · exact .of_isLeft follows.of_plain.2
  · obtain ⟨⟨t', rfl⟩, -⟩ := follows.of_plain
    exact .inl (obeys t')

theorem bind {t : WatchTask κ α} {f : α → WatchTask κ β} (first : t.Calm) (next : ∀ a, (f a).Calm) :
    Calm (t.bind f) := by
  refine ⟨?_, fun log u follows => ?_, fun log u follows => ?_⟩
  · exact (Task.obeys_bind ..).2 (first.start.imp fun a _ => (next a).start)
  · rcases follows.of_bind with ⟨t', start, -⟩ | ⟨a, log, log', rfl, start, rest⟩
    · exact first.polled log t' start
    · exact (first.polled log _ start).append ((next a).polled log' u rest)
  · rcases follows.of_bind with ⟨t', start, rfl⟩ | ⟨a, log, log', rfl, start, rest⟩
    · exact (first.settled log t' start).bind fun a => (next a).start
    · exact (next a).settled log' u rest

theorem unlessStopped (m : Mark κ) {rest : WatchTask κ Unit} (h : rest.Calm) :
    Calm (WatchTask.unlessStopped m rest) := by
  have start : (WatchTask.unlessStopped m rest).Obeys (stopping κ) fun _ => True := by
    refine ⟨rfl, fun stop told => ?_⟩
    cases stop with
    | true => trivial
    | false => exact absurd rfl told
  have both (log : WatchLog κ) (u : WatchTask κ Unit)
      (follows : (WatchTask.unlessStopped m rest).Follows log u) :
      Polled log ∧ Settled (fun _ => True) u := by
    cases follows with
    | nil => exact ⟨.of_isLeft nofun, .inl start⟩
    | @cons _ _ stop log _ follows =>
        -- only an answer that tells of no stop leads on to the mark
        cases stop with
        | true =>
            cases follows
            exact ⟨.of_isLeft (List.forall_mem_singleton.2 rfl), .inr (.inr ⟨(), rfl⟩)⟩
        | false =>
            cases follows with
            | nil =>
                exact ⟨.of_isLeft (List.forall_mem_singleton.2 rfl),
                  .inr (.inl ⟨m, _, rfl, h.start⟩)⟩
            | cons follows =>
                exact ⟨(polled_mark m).append (h.polled _ u follows), h.settled _ u follows⟩
  exact ⟨start, fun log u follows => (both log u follows).1, fun log u follows =>
    (both log u follows).2⟩

end Calm

end WatchTask

/-! ## Programs with marks -/

variable [Vocabulary κ]

namespace Node

mutual

def watch (horizon : Nat) : Node κ → WatchTask κ (Option Value)
  | block k inputs => do WatchTask.invoke k (← watchInputs horizon (describe k).slots inputs)
  | control k inputs bodies =>
    match (describe k).category with
    | .control flow => do
      let condition := conditionHolds <$> watchInputs horizon (describe k).slots inputs
      WatchTask.flow (.condition k inputs) horizon condition (watchBodies horizon bodies) flow
      return none
    | _ => return none
  | reference _ name => do
    match ← WatchTask.lookup name with
    | some value => return some value
    | none => .fail (.undefinedVariable name)
  | declaration _ => return none
  | shadow _ _ covered => watchCovered horizon covered

def watchInput (horizon : Nat) (slot : SlotKind) : Input κ → WatchTask κ Value
  | .literal value => return value.convert slot
  | .node n => do
    match Value.convertOutput slot (← watch horizon n) with
    | .ok value => return value
    | .error e => .fail (.value e)

def watchInputs (horizon : Nat) (slots : List SlotKind) :
    List (Input κ) → WatchTask κ (List Value)
  | [] => return []
  | input :: rest =>
    match slots with
    | [] => return []
    | slot :: slots => do
      let value ← watchInput horizon slot input
      let values ← watchInputs horizon slots rest
      return value :: values

def watchList (horizon : Nat) : List (Node κ) → WatchTask κ Unit
  | [] => return ()
  | n :: rest => WatchTask.unlessStopped (.statement n) do
    let _ ← watch horizon n
    watchList horizon rest

def watchBodies (horizon : Nat) : List (List (Node κ)) → List (WatchTask κ Unit)
  | [] => []
  | body :: rest => watchList horizon body :: watchBodies horizon rest

def watchCovered (horizon : Nat) : Option (Input κ) → WatchTask κ (Option Value)
  | none => return none
  | some (.literal value) => return some value
  | some (.node n) => watch horizon n

end

def watchExecute (horizon : Nat) (roots : List (Node κ)) : WatchTask κ Outcome := do
  watchList horizon roots
  if ← WatchTask.poll then return .stopped else return .completed

end Node

/-! ## The evaluation and its marks -/

theorem Evaluation.actions_bind {α β : Type} (t : EvalTask κ α) (f : α → EvalTask κ β) :
    actions (t.bind f) = (actions t).bind fun a => actions (f a) := by
  unfold actions
  exact Task.interpret_bind perform t f

structure Watches {α : Type} (w : WatchTask κ α) (t : EvalTask κ α) : Prop where
  unmark : w.unmark = Evaluation.actions t
  calm : w.Calm

namespace Watches

variable {α β : Type}

theorem done (a : α) : Watches (κ := κ) (.done a) (.done a) := ⟨rfl, .plain (.done a)⟩

theorem fail (e : EvalError) : Watches (κ := κ) (α := α) (.fail e) (.fail e) :=
  ⟨rfl, .plain (.fail e)⟩

theorem bind {w : WatchTask κ α} {t : EvalTask κ α} {f : α → WatchTask κ β} {g : α → EvalTask κ β}
    (first : Watches w t) (next : ∀ a, Watches (f a) (g a)) : Watches (w.bind f) (t.bind g) where
  unmark := by
    calc (w.bind f).unmark = w.unmark.bind fun a => (f a).unmark := Task.unmark_bind w f
      _ = (Evaluation.actions t).bind fun a => Evaluation.actions (g a) := by
        rw [first.unmark, funext fun a => (next a).unmark]
      _ = Evaluation.actions (t.bind g) := (Evaluation.actions_bind t g).symm
  calm := first.calm.bind fun a => (next a).calm

theorem map {w : WatchTask κ α} {t : EvalTask κ α} (f : α → β) (first : Watches w t) :
    Watches (f <$> w) (f <$> t) :=
  first.bind fun a => .done (f a)

theorem request (r : Evaluation.Request κ) :
    Watches (Evaluation.perform r).plain (.ask r .done) :=
  ⟨(Task.unmark_plain _).trans (Task.bind_done _).symm, .plain _⟩

theorem unlessStopped (m : Mark κ) {w : WatchTask κ Unit} {t : EvalTask κ Unit}
    (rest : Watches w t) :
    Watches (WatchTask.unlessStopped m w) (do if ← EvalTask.poll then return () else t) where
  unmark := by
    have both (stop : Bool) : (if stop then .done () else (Task.mark m).bind fun _ => w).unmark =
        Evaluation.actions (if stop then .done () else t) := by
      cases stop with
      | true => rfl
      | false => exact rest.unmark
    exact congrArg (Task.ask (σ := Action.signature) Action.stopRequested) (funext both)
  calm := .unlessStopped m rest.calm

theorem loop (m : Mark κ) {c : WatchTask κ Bool} {condition : EvalTask κ Bool}
    {b : WatchTask κ Unit} {body : EvalTask κ Unit} (hc : Watches c condition)
    (hb : Watches b body) (horizon : Nat) :
    Watches (WatchTask.loop m c b horizon) (EvalTask.loop condition body horizon) := by
  induction horizon with
  | zero => exact ⟨rfl, .plain .unfinished⟩
  | succ horizon ih =>
      refine unlessStopped m (hc.bind fun holds => ?_)
      cases holds with
      | true => exact hb.bind fun _ => ih
      | false => exact .done ()

theorem flow (m : Mark κ) {c : WatchTask κ Bool} {condition : EvalTask κ Bool}
    {bs : List (WatchTask κ Unit)} {bodies : List (EvalTask κ Unit)} (hc : Watches c condition)
    (hb : List.Forall₂ Watches bs bodies) (horizon : Nat) (flow : Flow) :
    Watches (WatchTask.flow m horizon c bs flow) (EvalTask.flow horizon condition bodies flow) := by
  have body (i : Nat) : Watches (bs.getD i (.done ())) (bodies.getD i (.done ())) := by
    induction hb generalizing i with
    | nil => exact .done ()
    | cons first _ ih =>
        cases i with
        | zero => exact first
        | succ i => exact ih i
  cases flow with
  | ifThen =>
      refine hc.bind fun holds => ?_
      cases holds with
      | true => exact body 0
      | false => exact .done ()
  | ifElse =>
      refine hc.bind fun holds => ?_
      cases holds with
      | true => exact body 0
      | false => exact body 1
  | whileLoop => exact loop m hc (body 0) horizon

end Watches

namespace Node

variable {horizon : Nat}

theorem watchInputs_watches (inputs : List (Input κ))
    (each : ∀ input ∈ inputs, ∀ slot,
      Watches (watchInput horizon slot input) (evaluateInput horizon slot input))
    (slots : List SlotKind) :
    Watches (watchInputs horizon slots inputs) (evaluateInputs horizon slots inputs) := by
  induction inputs generalizing slots with
  | nil => exact .done []
  | cons input rest ih =>
      cases slots with
      | nil => exact .done []
      | cons slot slots =>
          obtain ⟨first, others⟩ := List.forall_mem_cons.1 each
          exact (first slot).bind fun value => (ih others slots).bind fun values => .done _

theorem watchInput_watches (input : Input κ)
    (node : ∀ n, input = .node n → Watches (watch horizon n) (evaluate horizon n))
    (slot : SlotKind) :
    Watches (watchInput horizon slot input) (evaluateInput horizon slot input) := by
  cases input with
  | literal value => exact .done _
  | node n =>
      refine (node n rfl).bind fun output => ?_
      cases Value.convertOutput slot output with
      | ok value => exact .done value
      | error e => exact .fail _

theorem watchList_watches (nodes : List (Node κ))
    (each : ∀ n ∈ nodes, Watches (watch horizon n) (evaluate horizon n)) :
    Watches (watchList horizon nodes) (evaluateList horizon nodes) := by
  induction nodes with
  | nil => exact .done ()
  | cons n rest ih =>
      obtain ⟨first, others⟩ := List.forall_mem_cons.1 each
      exact .unlessStopped _ (first.bind fun _ => ih others)

theorem watchBodies_watches (bodies : List (List (Node κ)))
    (each : ∀ body ∈ bodies, Watches (watchList horizon body) (evaluateList horizon body)) :
    List.Forall₂ Watches (watchBodies horizon bodies) (evaluateBodies horizon bodies) := by
  induction bodies with
  | nil => exact .nil
  | cons body rest ih =>
      obtain ⟨first, others⟩ := List.forall_mem_cons.1 each
      exact .cons first (ih others)

theorem watch_watches (horizon : Nat) (n : Node κ) :
    Watches (watch horizon n) (evaluate horizon n) := by
  induction n using Node.induction with
  | step n ih =>
      have input (input : Input κ) (under : ∀ m, input = .node m → m ∈ n.children) :
          ∀ slot, Watches (watchInput horizon slot input) (evaluateInput horizon slot input) :=
        watchInput_watches input fun m eq => ih m (under m eq)
      cases n with
      | block k inputs =>
          refine (watchInputs_watches inputs (fun i mem => input i fun m eq => ?_) _).bind
            fun args => .request (.invoke k args)
          exact List.mem_filterMap.2 ⟨_, eq ▸ mem, rfl⟩
      | control k inputs bodies =>
          have values := watchInputs_watches inputs (fun i mem => input i fun m eq =>
            List.mem_append_left _ (List.mem_filterMap.2 ⟨_, eq ▸ mem, rfl⟩)) (describe k).slots
          have lists := watchBodies_watches bodies fun body mem =>
            watchList_watches body fun m inside =>
              ih m (List.mem_append_right _ (List.mem_flatten.2 ⟨body, mem, inside⟩))
          simp only [watch, evaluate]
          cases (describe k).category with
          | control flow =>
              exact (Watches.flow _ (values.map conditionHolds) lists horizon flow).bind
                fun _ => .done none
          | _ => exact .done none
      | reference k name =>
          refine (Watches.request (.lookup name)).bind fun value => ?_
          cases value with
          | none => exact .fail _
          | some value => exact .done _
      | declaration k => exact .done none
      | shadow k shadowed covered =>
          simp only [watch, evaluate]
          rcases covered with _ | _ | m
          · exact .done none
          · exact .done _
          · exact ih m (by simp [children, Input.asNode?])

theorem watchList_watched (horizon : Nat) (roots : List (Node κ)) :
    Watches (watchList horizon roots) (evaluateList horizon roots) :=
  watchList_watches roots fun n _ => watch_watches horizon n

/-- The last thing that a run does is to ask whether it has been stopped. -/
theorem watchExecute_unmark (horizon : Nat) (roots : List (Node κ)) :
    (watchExecute horizon roots).unmark = Evaluation.actions (execute horizon roots) := by
  refine ((watchList_watched horizon roots).bind fun _ => ?_).unmark
  refine (Watches.request .poll).bind fun stop => ?_
  cases stop with
  | true => exact .done _
  | false => exact .done _

/-- At every point of a run each mark has been polled for, and a stop takes the run to its end as
stopped. -/
theorem watchExecute_settled {horizon : Nat} {roots : List (Node κ)} {log : WatchLog κ}
    {u : WatchTask κ Outcome} (follows : (watchExecute horizon roots).Follows log u) :
    WatchTask.Polled log ∧ WatchTask.Settled (· = .stopped) u := by
  have calm := (watchList_watched horizon roots).calm
  have last : (WatchTask.poll.bind fun stop => if stop = true then .done .stopped
      else .done .completed : WatchTask κ Outcome).Obeys (WatchTask.stopping κ) (· = .stopped) := by
    refine ⟨rfl, fun stop told => ?_⟩
    cases stop with
    | true => rfl
    | false => exact absurd rfl told
  rcases follows.of_bind with ⟨t, start, rfl⟩ | ⟨_, log, log', rfl, start, rest⟩
  · exact ⟨calm.polled log t start, (calm.settled log t start).bind fun _ => last⟩
  · have polled := calm.polled log _ start
    cases rest with
    | nil =>
        rw [List.append_nil]
        exact ⟨polled, .inl last⟩
    | @cons _ _ stop _ _ rest =>
        cases stop <;> cases rest
        · exact ⟨polled.append (.of_isLeft (List.forall_mem_singleton.2 rfl)), .inr (.inr ⟨_, rfl⟩)⟩
        · exact ⟨polled.append (.of_isLeft (List.forall_mem_singleton.2 rfl)), .inr (.inr ⟨_, rfl⟩)⟩

end Node

end BlockScript
