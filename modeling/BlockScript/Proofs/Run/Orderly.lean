import BlockScript.Catalog.Standard
import BlockScript.Proofs.Run.History

/-!
# What the owner of a program can count on

`session_orderly` holds after every path of a session, in whatever order the moves of the owner, of
the workers and of others came: there is at most one active worker, the flag tells whether there is
one, a worker executes the roots that it was started on and always gives the program back, and a
wait gives the result of the latest run, at once when nothing is awaited and otherwise as soon as
the latest worker has come to its end.  `wait_path` shows that waiting, which lets a worker go to
its end at once, is one of these paths.
-/

namespace BlockScript

variable {κ : Type}

def Worker.end? (m : Machine) : Worker → Option (Except EvalError Outcome)
  | executing task => Program.result? (m.run task).1
  | leaving result | released result | ended result => some result

theorem Program.take_of_ended {p : Program κ} {i : Nat} {result : Except EvalError Outcome}
    (latest : p.latest = some i) (here : p.workers[i]? = some (.ended result)) :
    p.take = some (some result, { p with latest := none }) := by
  simp only [take, latest, here]

theorem Program.wait_of_none {p : Program κ} (latest : p.latest = none) (e : Environment) :
    p.wait e = some (none, p, e) := by
  simp [wait, finish, take, latest]

namespace Session

def Event.worker? : Event κ → Option Nat
  | performed index _ _ | returned index _ | released index | exited index => some index
  | _ => none

theorem Advances.worker? {s s' : Session κ} {index : Nat} {event : Event κ}
    (advances : s.Advances index event s') : event.worker? = some index := by
  cases advances <;> rfl

variable [Vocabulary κ] {horizon : Nat}

/-! ## Starting -/

theorem Move.idle {s s' : Session κ} {event : Event κ} (move : Move horizon s event s')
    (idle : s.program.running = false) (other : ∀ roots, event ≠ .started roots) :
    s'.program.running = false := by
  cases move with
  | start starts => exact absurd rfl (other _)
  | refuse refuses => rwa [Program.eq_of_start_false refuses]
  | stop | edit | observe | change => exact idle
  | wait takes =>
      rcases Program.take_cases takes with ⟨-, -, rfl⟩ | ⟨i, r, -, -, -, rfl⟩
      · exact idle
      · exact idle
  | @work _ _ p e seen steps =>
      generalize next : Session.mk p e = s'
      have advances := next ▸ advances_iff.2 ⟨seen, steps⟩
      cases advances with
      | performs | returns | exits => exact idle
      | releases => rfl

theorem Path.idle {s s' : Session κ} {history : List (Event κ)} (path : Path horizon s history s')
    (idle : s.program.running = false) (other : ∀ roots, .started roots ∉ history) :
    s'.program.running = false := by
  induction path with
  | nil => exact idle
  | snoc _ move ih =>
      refine move.idle (ih fun roots mem => ?_) fun roots eq => ?_
      · exact other roots (List.mem_append_left _ mem)
      · exact other roots (eq ▸ List.mem_append_right _ List.mem_cons_self)

/-! ## Leaving and waiting -/

def Works (horizon index : Nat) (s s' : Session κ) : Prop :=
  ∃ history, Path horizon s history s' ∧ ∀ event ∈ history, event.worker? = some index

namespace Works

variable {s s' s'' : Session κ} {index : Nat}

theorem refl (horizon index : Nat) (s : Session κ) : Works horizon index s s := ⟨[], .nil s, nofun⟩

theorem advance {event : Event κ} (works : Works horizon index s s')
    (advances : s'.Advances index event s'') : Works horizon index s s'' := by
  obtain ⟨history, path, alone⟩ := works
  obtain ⟨seen, steps⟩ := advances_iff.1 advances
  refine ⟨_, .snoc path (.work _ seen steps), List.forall_mem_append.2 ⟨alone, ?_⟩⟩
  exact List.forall_mem_singleton.2 advances.worker?

theorem trans (first : Works horizon index s s') (second : Works horizon index s' s'') :
    Works horizon index s s'' := by
  obtain ⟨history, path, alone⟩ := first
  obtain ⟨history', path', alone'⟩ := second
  exact ⟨_, path.append path', List.forall_mem_append.2 ⟨alone, alone'⟩⟩

end Works

def left (s : Session κ) (index : Nat) (result : Except EvalError Outcome) : Session κ :=
  ⟨{ s.program.setWorker index (.released result) with running := false }, s.environment⟩

theorem works_left {s : Session κ} {index : Nat} {task : ActionTask EvalError Outcome}
    {result : Except EvalError Outcome}
    (here : s.program.workers[index]? = some (.executing task))
    (ends : Program.result? task.ending = some result) :
    Works horizon index s (left ⟨s.program, s.environment.reportResult result⟩ index result) := by
  have there : (s.program.setWorker index (.leaving result)).workers[index]? =
      some (.leaving result) := by rw [Program.getElem?_setWorker here, if_pos rfl]
  have returned := (Works.refl horizon index s).advance (.returns here ends)
  have works := returned.advance (.releases there)
  simpa only [left, Program.setWorker_setWorker] using works

theorem works_run (horizon : Nat) (task : ActionTask EvalError Outcome) {s : Session κ}
    {index : Nat} (here : s.program.workers[index]? = some (.executing task))
    {ending : Ending EvalError Outcome} {m : Machine}
    (run : (s.program.machine s.environment).run task = (ending, m))
    {result : Except EvalError Outcome} (ends : Program.result? ending = some result) :
    ∃ last, Program.result? last.ending = some result ∧
      Works horizon index s (s.resumed index last m) := by
  have ended {s : Session κ} {task : ActionTask EvalError Outcome}
      (here : s.program.workers[index]? = some (.executing task)) :
      Works horizon index s (s.resumed index task (s.program.machine s.environment)) := by
    rw [resumed, Program.setWorker_self here]
    exact .refl horizon index s
  -- the session goes along with the task: its machine is where the run of the rest starts
  induction task generalizing s with
  | done outcome =>
      obtain ⟨rfl, rfl⟩ := Prod.mk.inj run
      exact ⟨.done outcome, ends, ended here⟩
  | fail error =>
      obtain ⟨rfl, rfl⟩ := Prod.mk.inj run
      exact ⟨.fail error, ends, ended here⟩
  | crash =>
      obtain ⟨rfl, rfl⟩ := Prod.mk.inj run
      exact ⟨.crash, ends, ended here⟩
  | unfinished =>
      obtain ⟨rfl, rfl⟩ := Prod.mk.inj run
      cases ends
  | ask action resume ih =>
      rcases Task.run_ask Machine.answer action resume (s.program.machine s.environment) with
        ⟨answer, m', answers, next⟩ | ⟨-, stuck⟩
      · have step := (Works.refl horizon index s).advance (.performs here answers)
        have there : (s.resumed index (resume answer) m').program.workers[index]? =
            some (.executing (resume answer)) :=
          (Program.getElem?_setWorker here _ _).trans (if_pos rfl)
        obtain ⟨last, ends, works⟩ := ih answer there (next.symm.trans run)
        refine ⟨last, ends, ?_⟩
        simpa only [resumed, Program.setWorker, List.set_set] using step.trans works
      · obtain ⟨rfl, rfl⟩ := Prod.mk.inj (stuck.symm.trans run)
        cases ends

theorem works_ended {s s' : Session κ} {index : Nat} {w : Worker}
    {result : Except EvalError Outcome} (here : s'.program.workers[index]? = some w)
    (works : Works horizon index s (left s' index result)) :
    Works horizon index s
      ⟨{ s'.program.setWorker index (.ended result) with running := false }, s'.environment⟩ := by
  have there : (left s' index result).program.workers[index]? = some (.released result) :=
    (Program.getElem?_setWorker here _ _).trans (if_pos rfl)
  have ended := works.advance (.exits there)
  simpa only [left, Program.setWorker, List.set_set] using ended

/-- A worker that comes to an end gets there by its own steps, as a wait for it would have it. -/
theorem exists_ended (horizon : Nat) {s : Session κ} {index : Nat} {worker : Worker}
    {result : Except EvalError Outcome} (here : s.program.workers[index]? = some worker)
    (ends : worker.end? (s.program.machine s.environment) = some result) :
    ∃ s', Works horizon index s s' ∧ s'.program.workers[index]? = some (.ended result) ∧
      s'.program.latest = s.program.latest ∧ (s.program.latest = some index →
        s.program.finish s.environment = some (s'.program, s'.environment)) := by
  have ended := (Program.getElem?_setWorker here (.ended result) index).trans (if_pos rfl)
  cases worker with
  | executing task =>
      obtain ⟨last, ending, works⟩ := works_run horizon task here rfl ends
      have there := (Program.getElem?_setWorker here (.executing last) index).trans (if_pos rfl)
      have works := works_ended there (works.trans (works_left there ending))
      simp only [resumed, Program.setWorker, List.set_set] at works
      refine ⟨_, works, ended, rfl, fun latest => ?_⟩
      simp only [Program.finish, latest, here]
      refine Option.bind_eq_some_iff.2 ⟨result, ends, ?_⟩
      simp only [Program.setWorker, latest]
      rfl
  | leaving held =>
      obtain rfl := Option.some.inj ends
      have works := works_ended here ((Works.refl horizon index s).advance (.releases here))
      exact ⟨_, works, ended, rfl, fun latest => by simp only [Program.finish, latest, here]⟩
  | released held =>
      obtain rfl := Option.some.inj ends
      have works := (Works.refl horizon index s).advance (.exits here)
      exact ⟨_, works, ended, rfl, fun latest => by simp only [Program.finish, latest, here]⟩
  | ended held =>
      obtain rfl := Option.some.inj ends
      have works := Works.refl horizon index s
      exact ⟨s, works, here, rfl, fun latest => by simp only [Program.finish, latest, here]⟩

theorem works_finish {s : Session κ} {p : Program κ} {e : Environment} {index : Nat}
    (latest : s.program.latest = some index)
    (finishes : s.program.finish s.environment = some (p, e)) : Works horizon index s ⟨p, e⟩ := by
  have finished := finishes
  simp only [Program.finish, latest] at finished
  cases here : s.program.workers[index]? with
  | none =>
      rw [here] at finished
      obtain ⟨rfl, rfl⟩ := Prod.mk.inj (Option.some.inj finished)
      exact .refl horizon index s
  | some worker =>
      obtain ⟨result, ends⟩ :
          ∃ result, worker.end? (s.program.machine s.environment) = some result := by
        cases worker with
        | executing task =>
            rw [here] at finished
            obtain ⟨result, ends, -⟩ := Option.bind_eq_some_iff.1 finished
            exact ⟨result, ends⟩
        | leaving | released | ended => exact ⟨_, rfl⟩
      obtain ⟨s', works, -, -, same⟩ := exists_ended horizon here ends
      obtain ⟨rfl, rfl⟩ := Prod.mk.inj (Option.some.inj (finishes.symm.trans (same latest)))
      exact works

theorem wait_path {s : Session κ} {result : Option (Except EvalError Outcome)} {p : Program κ}
    {e : Environment} (waits : s.program.wait s.environment = some (result, p, e)) :
    ∃ s', (∀ index, s.program.latest = some index → Works horizon index s s') ∧
      (s.program.latest = none → s' = s) ∧ Move horizon s' (.waited result) ⟨p, e⟩ := by
  obtain ⟨⟨p', e'⟩, finishes, rest⟩ := Option.bind_eq_some_iff.1 waits
  obtain ⟨⟨result', p''⟩, takes, done⟩ := Option.bind_eq_some_iff.1 rest
  obtain ⟨rfl, same⟩ := Prod.mk.inj (Option.some.inj done)
  obtain ⟨rfl, rfl⟩ := Prod.mk.inj same
  refine ⟨⟨p', e'⟩, fun index latest => works_finish latest finishes, ?_, .wait takes⟩
  intro latest
  simp only [Program.finish, latest] at finishes
  obtain ⟨rfl, rfl⟩ := Prod.mk.inj (Option.some.inj finishes)
  rfl

theorem wait_of_latest {s : Session κ} {i : Nat} {worker : Worker}
    (latest : s.program.latest = some i) (here : s.program.workers[i]? = some worker) :
    (s.program.wait s.environment).map Prod.fst =
      (worker.end? (s.program.machine s.environment)).map some := by
  cases ends : worker.end? (s.program.machine s.environment) with
  | none =>
      cases worker with
      | executing task =>
          have finishes : s.program.finish s.environment = none := by
            simp only [Program.finish, latest, here]
            exact Option.bind_eq_none_iff.2 fun result isEnd => nomatch ends.symm.trans isEnd
          rw [Program.wait, finishes]
          rfl
      | leaving | released | ended => cases ends
  | some result =>
      obtain ⟨s', -, ended, kept, finishes⟩ := exists_ended 0 here ends
      have takes := Program.take_of_ended (kept.trans latest) ended
      simp only [Program.wait, finishes latest, Option.bind_eq_bind, Option.bind_some, takes]
      rfl

theorem Move.takes {s s' : Session κ} {result : Option (Except EvalError Outcome)}
    (move : Move horizon s (.waited result) s') : s.program.take = some (result, s'.program) := by
  generalize waited : Event.waited result = event at move
  cases move with
  | wait takes =>
      cases waited
      exact takes
  | work index seen steps =>
      have worker := (advances_iff.2 ⟨seen, steps⟩).worker?
      rw [← waited] at worker
      cases worker
  | _ => cases waited

/-! ## The statement -/

/-- What the owner of a program can count on after a history. -/
structure Orderly (horizon : Nat) (history : List (Event κ)) (s : Session κ) : Prop where
  alone : ∀ i j, s.program.Active i → s.program.Active j → i = j
  running_iff : s.program.running = true ↔ ∃ i, s.program.Active i
  /-- A run starts only if no worker is active; otherwise nothing changes. -/
  starts : ∀ started p, s.program.start horizon = (started, p) →
    (started = true ↔ ∀ i, ¬ s.program.Active i) ∧ (started = false → p = s.program)
  /-- A worker stands where its log leads from the roots that its run started on. -/
  executes : ∀ i worker, s.program.workers[i]? = some worker → ∃ roots task,
    (runs history)[i]? = some roots ∧
    (Evaluation.actions (Node.execute horizon roots)).Follows (log i history) task ∧
    worker.StandsAt task
  /-- An active worker whose task has ended, in whatever way, can always leave, and then the program
  is idle. -/
  leaves : ∀ i worker task result, s.program.workers[i]? = some worker → worker.isActive = true →
    worker.StandsAt task → Program.result? task.ending = some result →
    ∃ s', Works horizon i s s' ∧ s'.program.workers[i]? = some (.released result) ∧
      s'.program.running = false
  /-- A worker that comes to an end when it is left alone gets there by its own steps, whatever the
  others did before. -/
  comes : ∀ i worker result, s.program.workers[i]? = some worker →
    worker.end? (s.program.machine s.environment) = some result →
    ∃ s', Works horizon i s s' ∧ s'.program.workers[i]? = some (.ended result)
  /-- A worker that has left ends with its next step. -/
  exits : ∀ i result, s.program.workers[i]? = some (.released result) →
    ∃ s', Move horizon s (.exited i) s' ∧ s'.program.workers[i]? = some (.ended result)
  /-- When the latest worker has left, the program is idle. -/
  left : ∀ i worker, s.program.workers[i]? = some worker → worker.isActive = false →
    i + 1 = (runs history).length → s.program.running = false
  /-- If no run has started since the last wait, a wait gives nothing, at once. -/
  unawaited : awaited history = false → Move horizon s (.waited none) s ∧
    s.program.wait s.environment = some (none, s.program, s.environment)
  /-- Otherwise there is a latest worker, and a wait gives what it comes to, if it does. -/
  awaits : awaited history = true → ∃ i worker, i + 1 = (runs history).length ∧
    s.program.workers[i]? = some worker ∧ (s.program.wait s.environment).map Prod.fst =
      (worker.end? (s.program.machine s.environment)).map some
  /-- Once the latest worker has ended, a wait gives its result. -/
  collects : awaited history = true → ∀ i result, i + 1 = (runs history).length →
    s.program.workers[i]? = some (.ended result) → ∃ s', Move horizon s (.waited (some result)) s'
  /-- A wait gives a result if a run has started since the last one. -/
  waits : ∀ result s', Move horizon s (.waited result) s' → (result.isSome ↔ awaited history = true)
  /-- The result is that of the latest run. -/
  latest : ∀ result s', Move horizon s (.waited (some result)) s' → ∃ i roots task,
    i + 1 = (runs history).length ∧ (runs history)[i]? = some roots ∧
    (Evaluation.actions (Node.execute horizon roots)).Follows (log i history) task ∧
    Program.result? task.ending = some result
  /-- After a wait the program is idle until the next start. -/
  idle : ∀ result s' history' s'', Move horizon s (.waited result) s' →
    Path horizon s' history' s'' → (∀ roots, .started roots ∉ history') →
    s''.program.running = false
  /-- Waiting at once is a path of the latest worker that ends in a wait. -/
  waiting : ∀ result p e, s.program.wait s.environment = some (result, p, e) →
    ∃ s', (∀ index, s.program.latest = some index → Works horizon index s s') ∧
      (s.program.latest = none → s' = s) ∧ Move horizon s' (.waited result) ⟨p, e⟩

theorem exists_left {s : Session κ} {i : Nat} {worker : Worker}
    {task : ActionTask EvalError Outcome} {result : Except EvalError Outcome}
    (here : s.program.workers[i]? = some worker) (active : worker.isActive = true)
    (stands : worker.StandsAt task) (ends : Program.result? task.ending = some result) :
    ∃ s', Works horizon i s s' ∧ s'.program.workers[i]? = some (.released result) ∧
      s'.program.running = false := by
  have there := (Program.getElem?_setWorker here (.released result) i).trans (if_pos rfl)
  cases worker with
  | executing remaining =>
      obtain rfl := stands
      exact ⟨_, works_left here ends, there, rfl⟩
  | leaving held =>
      obtain rfl := Option.some.inj (stands.symm.trans ends)
      exact ⟨_, (Works.refl horizon i s).advance (.releases here), there, rfl⟩
  | released | ended => cases active

theorem session_orderly (horizon : Nat) (roots : List (Node κ)) (e : Environment)
    (history : List (Event κ)) (s : Session κ) (path : Path horizon (.ofRoots roots e) history s) :
    Orderly horizon history s := by
  have consistent := path.consistent (Program.consistent_ofRoots roots)
  have recorded := path.recorded
  constructor
  case alone =>
    intro i j hi hj
    obtain ⟨first, -⟩ := consistent.active i hi
    obtain ⟨second, -⟩ := consistent.active j hj
    exact Option.some.inj (first.symm.trans second)
  case running_iff => exact consistent.running_iff
  case starts =>
    intro started p starts
    have idle : started = true ↔ s.program.running = false := by
      simpa only [starts] using Program.start_true_iff horizon s.program
    refine ⟨?_, fun refused => ?_⟩
    · rw [idle, ← Bool.not_eq_true, consistent.running_iff, not_exists]
    · subst refused
      exact Program.eq_of_start_false starts
  case executes => exact fun i worker here => recorded.executes here
  case leaves =>
    exact fun i worker task result here active stands ends => exists_left here active stands ends
  case comes =>
    intro i worker result here ends
    obtain ⟨s', works, ended, -⟩ := exists_ended horizon here ends
    exact ⟨s', works, ended⟩
  case exits =>
    intro i result here
    obtain ⟨seen, steps⟩ := advances_iff.1 (.exits here)
    exact ⟨_, .work i seen steps, (Program.getElem?_setWorker here _ i).trans (if_pos rfl)⟩
  case unawaited =>
    intro unawaited
    have latest : s.program.latest = none := by simpa [unawaited] using recorded.latest
    exact ⟨.wait (by simp only [Program.take, latest]), Program.wait_of_none latest s.environment⟩
  case awaits =>
    intro awaited
    have latest : s.program.latest = some ((runs history).length - 1) := by
      simpa [awaited] using recorded.latest
    have last := consistent.last _ latest
    have bound : (runs history).length - 1 < s.program.workers.length := by omega
    have here := List.getElem?_eq_getElem bound
    exact ⟨_, _, last.trans recorded.count.symm, here, wait_of_latest latest here⟩
  case collects =>
    intro awaited i result last here
    have latest : s.program.latest = some i := by
      simpa [awaited, ← last] using recorded.latest
    exact ⟨_, .wait (Program.take_of_ended latest here)⟩
  case left =>
    intro i worker here inactive last
    rw [← Bool.not_eq_true, consistent.running_iff]
    rintro ⟨j, active⟩
    have held := consistent.last j (consistent.active j active).1
    rw [← recorded.count, ← last] at held
    obtain rfl : j = i := by omega
    cases inactive.symm.trans (active.isActive here)
  case waits =>
    intro result s' move
    have latest := recorded.latest
    rcases Program.take_cases move.takes with ⟨none, rfl, -⟩ | ⟨i, r, some, -, rfl, -⟩
    · rw [none] at latest
      cases awaits : awaited history <;> simp [awaits] at latest ⊢
    · rw [some] at latest
      cases awaits : awaited history <;> simp [awaits] at latest ⊢
  case latest =>
    intro result s' move
    rcases Program.take_cases move.takes with ⟨-, none, -⟩ | ⟨i, r, latest, here, same, -⟩
    · cases none
    · obtain rfl := Option.some.inj same
      obtain ⟨roots, task, started, follows, ends⟩ := recorded.executes here
      exact ⟨i, roots, task, (consistent.last i latest).trans recorded.count.symm, started, follows,
        ends⟩
  case idle =>
    intro result s' history' s'' move path' other
    exact path'.idle (consistent.take move.takes).2 other
  case waiting => exact fun result p e waits => wait_path waits

section
open Catalog

def unsortable : List Value :=
  let a := Value.integer 9007199254740992
  let b := Value.integer 9007199254740993
  let r := Value.real (Binary64.ofInt 9007199254740992)
  [b, b, a, b, r, a, a, b, b, b, b, r, b, r, r, b, r, a, a, b, b]

def assigning : List (Node Block) := [.block .assign [.literal (.text "x"), .literal (.integer 1)]]

def sorting : List (Node Block) := [.block (.update .sort) [.literal (.text "L")]]

def sharedVariables : Environment :=
  ⟨Table.ofList [("L", .list unsortable), ("x", .integer 0)], (Machine.bare .empty).surroundings⟩

/-- The roots are edited while the first worker assigns to a variable, and a second run starts on
them after that worker has left and before it has ended. -/
def overtaking : List (Event Block) :=
  [.started assigning, .performed 0 .stopRequested false, .edited sorting,
    .performed 0 (.replace "x" (.integer 1)) true, .performed 0 .stopRequested false,
    .returned 0 (.ok .completed), .released 0, .started sorting]

/-- Both workers end, the second one in a panic, and two waits follow. -/
def panicking : List (Event Block) :=
  [.exited 0, .performed 1 .stopRequested false, .performed 1 (.get "L") (some (.list unsortable)),
    .returned 1 (.error .died), .released 1, .exited 1, .waited (some (.error .died)),
    .waited none]

theorem session_orderly_overtaking : ∃ s s' : Session Block,
    Path 1 (.ofRoots assigning sharedVariables) overtaking s ∧
    s.program.workers[0]? = some (.released (.ok .completed)) ∧ s.program.Active 1 ∧
    Orderly 1 overtaking s ∧
    Path 1 (.ofRoots assigning sharedVariables) (overtaking ++ panicking) s' ∧
    Orderly 1 (overtaking ++ panicking) s' := by
  have path : Path 1 (.ofRoots assigning sharedVariables) overtaking _ :=
    (((((((Path.nil _).snoc (.start rfl)).snoc (.work 0 rfl rfl)).snoc (.edit _ sorting)).snoc
      (.work 0 rfl rfl)).snoc (.work 0 rfl rfl)).snoc (.work 0 rfl rfl)).snoc
      (.work 0 rfl rfl) |>.snoc (.start rfl)
  have later : Path 1 (.ofRoots assigning sharedVariables) (overtaking ++ panicking) _ :=
    ((((((path.snoc (.work 0 rfl rfl)).snoc (.work 1 rfl rfl)).snoc (.work 1 rfl rfl)).snoc
      (.work 1 rfl rfl)).snoc (.work 1 rfl rfl)).snoc (.work 1 rfl rfl)).snoc
      (.wait rfl) |>.snoc (.wait rfl)
  exact ⟨_, _, path, rfl, ⟨_, rfl, rfl⟩, session_orderly 1 assigning sharedVariables _ _ path, later,
    session_orderly 1 assigning sharedVariables _ _ later⟩

end

end Session

end BlockScript
