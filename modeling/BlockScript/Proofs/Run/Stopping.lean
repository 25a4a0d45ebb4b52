import BlockScript.Proofs.Catalog.Endings
import BlockScript.Proofs.Evaluation.Watching
import BlockScript.Proofs.Run.Prolonging

/-!
# Stop requests

A program has one stop signal for all its runs.  `Move.stopped` is the step lemma and `Path.stopped`
the run lemma of what becomes of a request: while the worker that it was made for is active nothing
takes it back, so that each of its polls tells of the stop.  With the marks of `Node.watchExecute`
this says which statements and loop conditions the worker still comes to.  If what it invokes ends,
it ends as well, unless a loop is left at the horizon, and then it ends at every greater one
(`exists_returned`).  A request that finds no active worker leaves no trace: `Path.unstopped`
repeats what follows it, up to the next start, without it.
-/

namespace BlockScript

variable {κ : Type}

def Worker.result? : Worker → Option (Except EvalError Outcome)
  | executing _ => none
  | leaving result | released result | ended result => some result

theorem Worker.StandsAt.result {worker : Worker} {task : ActionTask EvalError Outcome}
    {result : Except EvalError Outcome} (stands : worker.StandsAt task)
    (holds : worker.result? = some result) : Program.result? task.ending = some result := by
  cases worker with
  | executing => cases holds
  | leaving | released | ended => exact stands.trans holds

theorem Program.eq_done_of_result {task : ActionTask EvalError Outcome} {outcome : Outcome}
    (ends : result? task.ending = some (.ok outcome)) : task = .done outcome := by
  cases task <;> simp_all [Task.ending, result?]

theorem Program.Active.of_setWorker {p : Program κ} {i j : Nat} {w w' : Worker}
    (active : (p.setWorker j w').Active i) (here : p.workers[j]? = some w)
    (less : w'.isActive = true → w.isActive = true) : p.Active i := by
  rw [active_setWorker here] at active
  by_cases same : i = j
  · rw [if_pos same] at active
    exact same ▸ .of_getElem? here (less active)
  · rwa [if_neg same] at active

namespace Session

/-- The owner, or a block that a worker runs, requests a stop. -/
def Event.requestsStop : Event κ → Bool
  | stopRequested => true
  | performed _ .requestStop _ => true
  | _ => false

/-- There is a worker at the position, and a stop is requested as long as it is active. -/
structure Stopped (i : Nat) (p : Program κ) : Prop where
  bound : i < p.workers.length
  stop : p.Active i → p.stop = true

theorem exists_end_of_stopped {s : Session κ} {i : Nat} {worker : Worker}
    {task : ActionTask EvalError Outcome} (here : s.program.workers[i]? = some worker)
    (stands : worker.StandsAt task) (ends : task.Ends Told) (stopped : Stopped i s.program) :
    ∃ result, worker.end? (s.program.machine s.environment) = some result := by
  cases worker with
  | executing remaining =>
      obtain rfl := stands
      have stop := stopped.stop (.of_getElem? here rfl)
      have ended := Machine.run_ne_unfinished (m := s.program.machine s.environment) ends stop
      rw [Worker.end?]
      cases ending : ((s.program.machine s.environment).run remaining).1 with
      | unfinished => exact absurd ending ended
      | done | failed | crashed => exact ⟨_, rfl⟩
  | leaving | released | ended => exact ⟨_, rfl⟩

theorem Advances.stopped {s s' : Session κ} {i j : Nat} {event : Event κ}
    (advances : s.Advances j event s') (h : Stopped i s.program) :
    Stopped i s'.program ∧ event.exchange? i ≠ some ⟨.stopRequested, false⟩ := by
  have bound (w : Worker) : i < (s.program.setWorker j w).workers.length := by
    rw [Program.setWorker, List.length_set]
    exact h.bound
  cases advances with
  | performs here answers =>
      refine ⟨⟨bound _, fun active => ?_⟩, fun polled => ?_⟩
      · exact (Machine.answer_stop answers (h.stop (active.of_setWorker here fun _ => rfl))).1
      · rw [Event.exchange?] at polled
        split at polled
        · next same =>
          have stop := h.stop (same ▸ .of_getElem? here rfl)
          exact (Machine.answer_stop answers stop).2 (Option.some.inj polled)
        · cases polled
  | returns here _ =>
      exact ⟨⟨bound _, fun active => h.stop (active.of_setWorker here fun _ => rfl)⟩, by rintro ⟨⟩⟩
  | releases here =>
      refine ⟨⟨bound _, fun active => h.stop (active.of_setWorker here ?_)⟩, ?_⟩ <;> rintro ⟨⟩
  | exits here =>
      refine ⟨⟨bound _, fun active => h.stop (active.of_setWorker here ?_)⟩, ?_⟩ <;> rintro ⟨⟩

variable [Vocabulary κ] {horizon : Nat}

theorem Move.stopped {s s' : Session κ} {i : Nat} {event : Event κ} (move : Move horizon s event s')
    (consistent : s.program.Consistent) (h : Stopped i s.program) :
    Stopped i s'.program ∧ event.exchange? i ≠ some ⟨.stopRequested, false⟩ := by
  cases move with
  | start starts =>
      have idle := (Program.start_true_iff horizon s.program).1 (by rw [starts])
      rw [Program.start_of_idle horizon idle] at starts
      obtain ⟨-, rfl⟩ := Prod.mk.inj starts
      refine ⟨⟨?_, fun ⟨w, here, active⟩ => ?_⟩, nofun⟩
      · rw [List.length_append]
        exact Nat.lt_add_right _ h.bound
      -- an old worker that is active would have kept the run from starting
      · rw [List.getElem?_append_left h.bound] at here
        obtain ⟨-, running⟩ := consistent.active i ⟨w, here, active⟩
        cases idle.symm.trans running
  | refuse refuses =>
      obtain rfl := Program.eq_of_start_false refuses
      exact ⟨h, nofun⟩
  | stop => exact ⟨⟨h.bound, fun _ => rfl⟩, nofun⟩
  | edit roots => exact ⟨⟨h.bound, h.stop⟩, nofun⟩
  | observe => exact ⟨h, nofun⟩
  | wait takes =>
      rcases Program.take_cases takes with ⟨-, -, rfl⟩ | ⟨j, r, -, -, -, rfl⟩
      · exact ⟨h, nofun⟩
      · exact ⟨⟨h.bound, h.stop⟩, nofun⟩
  | work j seen steps => exact (advances_iff.2 ⟨seen, steps⟩).stopped h
  | change environment => exact ⟨h, nofun⟩

theorem Path.stopped {s s' : Session κ} {i : Nat} {history : List (Event κ)}
    (path : Path horizon s history s') (consistent : s.program.Consistent)
    (h : Stopped i s.program) :
    Stopped i s'.program ∧
      (⟨.stopRequested, false⟩ : Task.Exchange Action.signature) ∉ log i history := by
  induction path with
  | nil => exact ⟨h, nofun⟩
  | snoc path move ih =>
      obtain ⟨before, told⟩ := ih
      obtain ⟨after, tells⟩ := move.stopped (path.consistent consistent) before
      refine ⟨after, fun member => ?_⟩
      rw [log_snoc, List.mem_append, Option.mem_toList] at member
      exact member.elim told tells

theorem Move.requested {s s' : Session κ} {event : Event κ} (move : Move horizon s event s')
    (requests : event.requestsStop = true) : s'.program.stop = true := by
  cases move with
  | stop => rfl
  | @work _ _ p e seen steps =>
      generalize next : Session.mk p e = s'
      have advances := next ▸ advances_iff.2 ⟨seen, steps⟩
      cases advances with
      | @performs action _ _ _ here answers =>
          cases action with
          | requestStop =>
              obtain ⟨-, rfl⟩ := Prod.mk.inj (Option.some.inj answers)
              rfl
          | _ => cases requests
      | _ => cases requests
  | _ => cases requests

/-! ## Requests without a worker -/

def withStop (s : Session κ) (stop : Bool) : Session κ :=
  { s with program := { s.program with stop } }

theorem Move.withStop {s s' : Session κ} {event : Event κ} (move : Move horizon s event s')
    (idle : ∀ i, ¬ s.program.Active i) (other : ∀ roots, event ≠ .started roots) (stop : Bool) :
    ∃ stop', Move horizon (s.withStop stop) event (s'.withStop stop') := by
  cases move with
  | start starts => exact absurd rfl (other _)
  | refuse refuses =>
      obtain rfl := Program.eq_of_start_false refuses
      have running : s.program.running = true := by
        rw [← Bool.not_eq_false, ← Program.start_true_iff horizon, refuses]
        exact nofun
      exact ⟨stop, .refuse (by simp [Session.withStop, Program.start, running])⟩
  | stop => exact ⟨true, .stop (s.withStop stop)⟩
  | edit roots => exact ⟨stop, .edit (s.withStop stop) roots⟩
  | observe => exact ⟨stop, .observe (s.withStop stop)⟩
  | wait takes =>
      rcases Program.take_cases takes with ⟨latest, rfl, rfl⟩ | ⟨i, r, latest, here, rfl, rfl⟩
      · exact ⟨stop, .wait (by simp [Session.withStop, Program.take, latest])⟩
      · exact ⟨stop, .wait (by simp [Session.withStop, Program.take, latest, here])⟩
  | @work i _ p e seen steps =>
      generalize next : Session.mk p e = s'
      have advances := next ▸ advances_iff.2 ⟨seen, steps⟩
      cases advances with
      | performs here | returns here | releases here =>
          exact absurd (.of_getElem? here rfl) (idle i)
      | exits here =>
          obtain ⟨seen, steps⟩ := advances_iff.1 (.exits (s := s.withStop stop) here)
          exact ⟨stop, .work i seen steps⟩
  | change environment => exact ⟨stop, .change (s.withStop stop) environment⟩

theorem Path.withStop {s s' : Session κ} {history : List (Event κ)}
    (path : Path horizon s history s') (consistent : s.program.Consistent)
    (idle : s.program.running = false) (other : ∀ roots, .started roots ∉ history) (stop : Bool) :
    ∃ stop', Path horizon (s.withStop stop) history (s'.withStop stop') := by
  induction path with
  | nil => exact ⟨stop, .nil _⟩
  | @snoc s' _ history _ path move ih =>
      have before (roots : List (Node κ)) (mem : .started roots ∈ history) : False :=
        other roots (List.mem_append_left _ mem)
      obtain ⟨stop', path'⟩ := ih before
      have inactive (i : Nat) (active : s'.program.Active i) : False := by
        have running := ((path.consistent consistent).active i active).2
        cases (path.idle idle before).symm.trans running
      obtain ⟨stop'', move'⟩ := move.withStop inactive (fun roots eq =>
        other roots (eq ▸ List.mem_append_right _ List.mem_cons_self)) stop'
      exact ⟨stop'', .snoc path' move'⟩

theorem Path.last {s s'' : Session κ} {history : List (Event κ)} {event : Event κ}
    (path : Path horizon s (history ++ [event]) s'') :
    ∃ s', Path horizon s history s' ∧ Move horizon s' event s'' := by
  generalize all : history ++ [event] = events at path
  cases path with
  | nil => simp at all
  | snoc path move =>
      obtain ⟨rfl, same⟩ := List.append_inj' all rfl
      obtain rfl := List.singleton_inj.1 same
      exact ⟨_, path, move⟩

theorem Move.starts {s s' : Session κ} {roots : List (Node κ)}
    (move : Move horizon s (.started roots) s') : roots = s.program.roots ∧
      s.program.start horizon = (true, s'.program) ∧ s'.environment = s.environment := by
  generalize started : Event.started roots = event at move
  cases move with
  | start starts =>
      cases started
      exact ⟨rfl, starts, rfl⟩
  | work index seen steps =>
      have worker := (advances_iff.2 ⟨seen, steps⟩).worker?
      rw [← started] at worker
      cases worker
  | _ => cases started

theorem Path.unstopped {s s' : Session κ} {history : List (Event κ)} {roots : List (Node κ)}
    {stop : Bool} (path : Path horizon (s.withStop stop) (history ++ [.started roots]) s')
    (consistent : s.program.Consistent) (idle : s.program.running = false)
    (other : ∀ roots, .started roots ∉ history) :
    Path horizon s (history ++ [.started roots]) s' := by
  obtain ⟨s₁, before, move⟩ := path.last
  have steady : (s.withStop stop).program.Consistent :=
    ⟨consistent.last, consistent.active, consistent.running⟩
  obtain ⟨stop', before'⟩ := before.withStop steady idle other s.program.stop
  obtain ⟨rfl, starts, same⟩ := move.starts
  have ready := (Program.start_true_iff horizon s₁.program).1 (by rw [starts])
  have starts' : (s₁.withStop stop').program.start horizon = (true, s'.program) := by
    rw [Program.start_of_idle horizon ready] at starts
    exact (Program.start_of_idle (p := (s₁.withStop stop').program) horizon ready).trans starts
  obtain ⟨p, e⟩ := s'
  obtain rfl : e = s₁.environment := same
  exact .snoc before' (.start starts')

/-! ## The statement -/

def Watched (horizon i : Nat) (history : List (Event κ)) (watched : WatchLog κ) : Prop :=
  ∃ roots task, (runs history)[i]? = some roots ∧
    (Node.watchExecute horizon roots).Follows watched task ∧ Task.exchanges watched = log i history

/-- A worker that was told to stop at a task ends as stopped, or with an error, unless the task had
ended before. -/
def EndsTold (task : ActionTask EvalError Outcome) (result : Except EvalError Outcome) : Prop :=
  result = .ok .stopped ∨ (∃ e, result = .error e) ∨
    ∃ outcome, task = .done outcome ∧ result = .ok outcome

/-- What becomes of a request that found a worker at a task: the histories end with the request, and
start after it. -/
structure Heeded (horizon i : Nat) (task : ActionTask EvalError Outcome)
    (before after : List (Event κ)) (s : Session κ) : Prop where
  /-- The stop stays requested until the worker makes the program idle. -/
  requested : s.program.Active i → s.program.stop = true
  watched : ∃ first second, Watched horizon i (before ++ after) (first ++ second) ∧
    Task.exchanges first = log i before
  /-- The worker starts no statement and evaluates no condition of a loop any more, but for the one
  that it comes to at once, after a poll that the request came too late for. -/
  marks : ∀ first second, Watched horizon i (before ++ after) (first ++ second) →
    Task.exchanges first = log i before → (∀ x ∈ second.tail, x.1.isLeft) ∧
      ∀ m, second.head? = some ⟨.inr m, ()⟩ → first.getLast? = some WatchTask.passed
  result : ∀ worker result, s.program.workers[i]? = some worker → worker.result? = some result →
    EndsTold task result

/-- What the owner of a program can count on when it requests a stop after a history. -/
structure Stoppable (horizon : Nat) (origin : Session κ) (history : List (Event κ))
    (s : Session κ) : Prop where
  heeded : ∀ event s₁, Move horizon s event s₁ → event.requestsStop = true →
    ∀ i task, s₁.program.workers[i]? = some (.executing task) →
      ∀ after s₂, Path horizon s₁ after s₂ → Heeded horizon i task (history ++ [event]) after s₂
  /-- If what it invokes ends, the worker ends by its own steps, at every moment after the request
  and at every greater horizon. -/
  returns : ∀ event s₁, Move horizon s event s₁ → event.requestsStop = true →
    ∀ i task roots, s₁.program.workers[i]? = some (.executing task) →
      (runs history)[i]? = some roots → (∀ n ∈ roots, n.Every Node.InvokesEnding) →
        ∀ after s₂, Path horizon s₁ after s₂ → ∀ further > horizon, ∃ s' s'' result,
          Path further origin (history ++ [event] ++ after) s' ∧ Works further i s' s'' ∧
            s''.program.workers[i]? = some (.ended result) ∧ EndsTold task result
  /-- Every run starts with the signal cleared. -/
  cleared : ∀ p, s.program.start horizon = (true, p) → p.stop = false
  /-- Without an active worker a request leaves no trace in the next run. -/
  unheeded : (∀ i, ¬ s.program.Active i) → ∀ after roots s₂, (∀ roots, .started roots ∉ after) →
    Path horizon { s with program := s.program.requestStop } (after ++ [.started roots]) s₂ →
    Path horizon s (after ++ [.started roots]) s₂

theorem heeded_of_recorded {i : Nat} {task : ActionTask EvalError Outcome}
    {before after : List (Event κ)} {s : Session κ} {roots : List (Node κ)}
    (started : (runs before)[i]? = some roots)
    (stood : (Evaluation.actions (Node.execute horizon roots)).Follows (log i before) task)
    (recorded : Recorded horizon (before ++ after) s.program) (stopped : Stopped i s.program)
    (told : (⟨.stopRequested, false⟩ : Task.Exchange Action.signature) ∉ log i after) :
    Heeded horizon i task before after s := by
  have same := getElem?_runs_append started after
  have unmark := Node.watchExecute_unmark horizon roots
  -- where the worker stood when it was told, and what its polls have told it since
  have told_at {first second : WatchLog κ} {t : WatchTask κ Outcome}
      (follows : (Node.watchExecute horizon roots).Follows (first ++ second) t)
      (begun : Task.exchanges first = log i before)
      (all : Task.exchanges (first ++ second) = log i (before ++ after)) :
      ∃ u, WatchTask.Settled (· = .stopped) u ∧ u.unmark = task ∧ u.Follows second t ∧
        WatchTask.passed ∉ second := by
    obtain ⟨u, toward, onward⟩ := follows.split
    refine ⟨u, (Node.watchExecute_settled toward).2, ?_, onward, fun mem => told ?_⟩
    · have unmarked := toward.unmark
      rw [unmark, begun] at unmarked
      exact unmarked.unique stood
    · have polled : (⟨.stopRequested, false⟩ : Task.Exchange Action.signature) ∈
          Task.exchanges second := List.mem_filterMap.2 ⟨_, mem, rfl⟩
      rw [Task.exchanges_append, log_append, begun] at all
      exact List.append_cancel_left all ▸ polled
  obtain ⟨task', worker, stands_at, here, stands⟩ := recorded.follows i roots same
  rw [← unmark] at stands_at
  obtain ⟨marked, t, follows, all, rfl⟩ := stands_at.of_unmark
  obtain ⟨first, second, rfl, begun, -⟩ :=
    List.filterMap_eq_append_iff.1 (all.trans (log_append ..))
  constructor
  case requested => exact stopped.stop
  case watched => exact ⟨first, second, ⟨roots, t, same, follows, all⟩, begun⟩
  case marks =>
    rintro first second ⟨roots', t, same', follows, all⟩ begun
    obtain rfl := Option.some.inj (same.symm.trans same')
    obtain ⟨u, settled, -, onward, stop⟩ := told_at follows begun all
    refine ⟨(settled.follows onward stop).1, fun m head => ?_⟩
    obtain ⟨rest, rfl⟩ := List.head?_eq_some_iff.1 head
    exact (Node.watchExecute_settled follows).1 first m rest rfl
  case result =>
    intro worker' result here' holds
    obtain rfl := Option.some.inj (here.symm.trans here')
    have ends := stands.result holds
    cases result with
    | error e => exact .inr (.inl ⟨e, rfl⟩)
    | ok outcome =>
        obtain ⟨u, settled, rfl, onward, stop⟩ := told_at follows begun all
        rcases (settled.follows onward stop).2 outcome (Program.eq_done_of_result ends) with
          rfl | ended
        · exact .inl rfl
        · exact .inr (.inr ⟨outcome, ended, rfl⟩)

/-- A worker that was told to stop comes to its end at every greater horizon if what it invokes does,
whatever has happened since. -/
theorem exists_returned {further : Nat} {first : List (Node κ)} {e : Environment}
    {s s' : Session κ} {i : Nat} {task : ActionTask EvalError Outcome}
    {before after : List (Event κ)} {roots : List (Node κ)}
    (path : Path horizon (.ofRoots first e) before s) (later : Path horizon s after s')
    (here : s.program.workers[i]? = some (.executing task)) (stop : s.program.stop = true)
    (started : (runs before)[i]? = some roots) (ending : ∀ n ∈ roots, n.Every Node.InvokesEnding)
    (less : horizon < further) :
    ∃ t t' result, Path further (.ofRoots first e) (before ++ after) t ∧ Works further i t t' ∧
      t'.program.workers[i]? = some (.ended result) ∧ EndsTold task result := by
  have heeds := Node.lastsHeeding_execute less ending
  have startedAll := getElem?_runs_append started after
  -- the same history at the greater horizon
  obtain ⟨workers, path', lasts⟩ := path.withWorkers less .nil
  obtain ⟨workers', later', -⟩ := later.withWorkers less lasts
  have consistent := path'.consistent (Program.consistent_ofRoots first)
  obtain ⟨_, _, _, _, at_, stands, there, -, outlasts, stood⟩ :=
    path.recorded.outlasts path'.recorded started heeds
  obtain rfl := Option.some.inj (here.symm.trans at_)
  obtain rfl : task = _ := stands
  have told : Stopped i (s.withWorkers workers).program :=
    ⟨(List.getElem?_eq_some_iff.1 there).1, fun _ => stop⟩
  -- the end of the worker
  obtain ⟨_, _, _, _, -, -, here', stands', goes, -⟩ :=
    (path.append later).recorded.outlasts (path'.append later').recorded startedAll heeds
  obtain ⟨result, comes⟩ := exists_end_of_stopped here' stands'
    (goes.ends fun _ heeding => heeding.ends) (later'.stopped consistent told).1
  obtain ⟨t, ⟨own, works, alone⟩, ended, -⟩ := exists_ended further here' comes
  refine ⟨_, t, result, path'.append later', ⟨own, works, alone⟩, ended, ?_⟩
  -- what it ends with
  have whole := later'.append works
  obtain ⟨stopped, untold⟩ := whole.stopped consistent told
  have heeded := heeded_of_recorded started stood (path'.append whole).recorded stopped untold
  rcases heeded.result _ result ended rfl with stopped | failed | ⟨outcome, rfl, completed⟩
  · exact .inl stopped
  · exact .inr (.inl failed)
  · refine .inr (.inr ⟨outcome, outlasts.eq_done ?_, completed⟩)
    exact fun heeding => nomatch heeding.underway

theorem stop_requests_heeded (horizon : Nat) (roots : List (Node κ)) (e : Environment)
    (history : List (Event κ)) (s : Session κ) (path : Path horizon (.ofRoots roots e) history s) :
    Stoppable horizon (.ofRoots roots e) history s := by
  have consistent := path.consistent (Program.consistent_ofRoots roots)
  constructor
  case heeded =>
    intro event s₁ move requests i task here after s₂ later
    have begun := path.snoc move
    obtain ⟨roots', task', started, stood, stands⟩ := begun.recorded.executes here
    obtain rfl : task = task' := stands
    have stop : Stopped i s₁.program :=
      ⟨(List.getElem?_eq_some_iff.1 here).1, fun _ => move.requested requests⟩
    obtain ⟨stopped, told⟩ := later.stopped (move.consistent consistent) stop
    exact heeded_of_recorded started stood (begun.append later).recorded stopped told
  case returns =>
    intro event s₁ move requests i task roots' here started ending after s₂ later further less
    exact exists_returned (path.snoc move) later here (move.requested requests)
      (getElem?_runs_append started [event]) ending less
  case cleared =>
    intro p starts
    have idle := (Program.start_true_iff horizon s.program).1 (by rw [starts])
    rw [Program.start_of_idle horizon idle] at starts
    obtain ⟨-, rfl⟩ := Prod.mk.inj starts
    rfl
  case unheeded =>
    intro inactive after roots s₂ other later
    have idle : s.program.running = false := by
      rw [← Bool.not_eq_true, consistent.running_iff, not_exists]
      exact inactive
    exact later.unstopped consistent idle other

section
open Catalog

def worked (index : Nat) (s : Session κ) : Session κ :=
  match s.program.step index s.environment with
  | some (p, e) => ⟨p, e⟩
  | none => s

def looping : List (Node Block) :=
  [.control (.builtin (.control .whileLoop)) [.literal (.boolean true)] [assigning],
    .block (.signal .beep) []]

/-- The worker has passed the polls of the list, of the loop and of its body. -/
def interrupted : List (Event Block) :=
  [.started looping, .performed 0 .stopRequested false, .performed 0 .stopRequested false,
    .performed 0 .stopRequested false]

def midway : Session Block :=
  worked 0 (worked 0 (worked 0 ⟨(Program.start 2 (.ofRoots looping)).2, sharedVariables⟩))

def toldMidway : Session Block := { midway with program := midway.program.requestStop }

/-- It still starts the statement, but does not go round again, nor on to what is behind the loop. -/
def heeding : List (Event Block) :=
  [.performed 0 (.replace "x" (.integer 1)) true, .performed 0 .stopRequested true,
    .performed 0 .stopRequested true, .performed 0 .stopRequested true,
    .returned 0 (.ok .stopped)]

def marksBefore : WatchLog Block :=
  [WatchTask.passed, ⟨.inr (.statement looping[0]), ()⟩, WatchTask.passed,
    ⟨.inr (.condition (.builtin (.control .whileLoop)) [.literal (.boolean true)]), ()⟩,
    WatchTask.passed]

def marksAfter : WatchLog Block :=
  [⟨.inr (.statement assigning[0]), ()⟩, ⟨.inl (.replace "x" (.integer 1)), true⟩,
    ⟨.inl .stopRequested, true⟩, ⟨.inl .stopRequested, true⟩, ⟨.inl .stopRequested, true⟩]

theorem stop_requests_heeded_midway : ∃ task s,
    Path 2 (.ofRoots looping sharedVariables) interrupted midway ∧
    toldMidway.program.workers[0]? = some (.executing task) ∧ Path 2 toldMidway heeding s ∧
    Watched 2 0 (interrupted ++ [.stopRequested] ++ heeding) (marksBefore ++ marksAfter) ∧
    Heeded 2 0 task (interrupted ++ [.stopRequested]) heeding s ∧
    ∃ s' s'' result,
      Path 3 (.ofRoots looping sharedVariables) (interrupted ++ [.stopRequested] ++ []) s' ∧
      Works 3 0 s' s'' ∧ s''.program.workers[0]? = some (.ended result) ∧
      EndsTold task result := by
  have path : Path 2 (.ofRoots looping sharedVariables) interrupted midway :=
    ((((Path.nil _).snoc (.start rfl)).snoc (.work 0 rfl rfl)).snoc (.work 0 rfl rfl)).snoc
      (.work 0 rfl rfl)
  have later : Path 2 toldMidway heeding _ :=
    (((((Path.nil toldMidway).snoc (.work 0 rfl rfl)).snoc (.work 0 rfl rfl)).snoc
      (.work 0 rfl rfl)).snoc (.work 0 rfl rfl)).snoc (.work 0 rfl rfl)
  have watched : (Node.watchExecute 2 looping).Follows (marksBefore ++ marksAfter)
      (.done .stopped) :=
    .cons (.cons (.cons (.cons (.cons (.cons (.cons (.cons (.cons (.cons (.nil _))))))))))
  have stoppable := stop_requests_heeded 2 looping sharedVariables _ _ path
  have told : Move 2 midway .stopRequested toldMidway := .stop midway
  refine ⟨_, _, path, rfl, later, ⟨looping, _, rfl, watched, rfl⟩,
    stoppable.heeded _ _ told rfl 0 _ rfl _ _ later, ?_⟩
  exact stoppable.returns _ _ told rfl 0 _ looping rfl rfl
    (fun n _ => Node.every_of_forall Block.invokesEnding n) [] _ (.nil _) 3 (by decide)

end

end Session

end BlockScript
