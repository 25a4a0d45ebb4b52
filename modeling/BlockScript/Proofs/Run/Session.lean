import BlockScript.Proofs.Evaluation.Runs
import BlockScript.Run.Program
import Mathlib.Data.List.Basic

/-!
# Sessions of a program

A session is a program in its environment.  In a move either its owner does something (starts a run,
requests a stop, edits the roots, asks whether it is running, waits), or one of its workers takes a
step, or others change what they share with it.  `Path` lines moves up in any order and keeps the
history of events.

* `Advances` inverts a step of a worker, one form for each phase of its life.
* `Program.Consistent` is the invariant that ties the flag, the workers and the latest worker
  together; `Move.consistent` is its step lemma and `Path.consistent` its run lemma.
-/

namespace BlockScript

variable {κ : Type}

structure Session (κ : Type) where
  program : Program κ
  environment : Environment

namespace Session

inductive Event (κ : Type) where
  | started (roots : List (Node κ))
  | refused
  | stopRequested
  | edited (roots : List (Node κ))
  | observed (running : Bool)
  | waited (result : Option (Except EvalError Outcome))
  | performed (index : Nat) (action : Action) (answer : action.Answer)
  | returned (index : Nat) (result : Except EvalError Outcome)
  | released (index : Nat)
  | exited (index : Nat)
  | changed

def workerEvent? (s : Session κ) (index : Nat) : Option (Event κ) :=
  match s.program.workers[index]? with
  | some (.executing (.ask action _)) =>
    ((s.program.machine s.environment).answer action).map fun x => .performed index action x.1
  | some (.executing task) => (Program.result? task.ending).map (.returned index)
  | some (.leaving _) => some (.released index)
  | some (.released _) => some (.exited index)
  | some (.ended _) => none
  | none => none

def ofRoots (roots : List (Node κ)) (environment : Environment) : Session κ :=
  ⟨.ofRoots roots, environment⟩

section
variable [Vocabulary κ]

inductive Move (horizon : Nat) : Session κ → Event κ → Session κ → Prop where
  | start {s : Session κ} {p : Program κ} (starts : s.program.start horizon = (true, p)) :
      Move horizon s (.started s.program.roots) { s with program := p }
  | refuse {s : Session κ} {p : Program κ} (refuses : s.program.start horizon = (false, p)) :
      Move horizon s .refused { s with program := p }
  | stop (s : Session κ) :
      Move horizon s .stopRequested { s with program := s.program.requestStop }
  | edit (s : Session κ) (roots : List (Node κ)) :
      Move horizon s (.edited roots) { s with program := { s.program with roots } }
  | observe (s : Session κ) : Move horizon s (.observed s.program.running) s
  /-- Waiting goes on until the worker of the latest run has ended. -/
  | wait {s : Session κ} {result : Option (Except EvalError Outcome)} {p : Program κ}
      (takes : s.program.take = some (result, p)) :
      Move horizon s (.waited result) { s with program := p }
  | work {s : Session κ} (index : Nat) {event : Event κ} {p : Program κ} {e : Environment}
      (seen : s.workerEvent? index = some event)
      (steps : s.program.step index s.environment = some (p, e)) : Move horizon s event ⟨p, e⟩
  | change (s : Session κ) (environment : Environment) :
      Move horizon s .changed { s with environment }

/-- Moves in any order, with their events, the latest last. -/
inductive Path (horizon : Nat) : Session κ → List (Event κ) → Session κ → Prop where
  | nil (s : Session κ) : Path horizon s [] s
  | snoc {s s' s'' : Session κ} {history : List (Event κ)} {event : Event κ}
      (path : Path horizon s history s') (move : Move horizon s' event s'') :
      Path horizon s (history ++ [event]) s''

theorem Path.append {horizon : Nat} {s s' s'' : Session κ} {history history' : List (Event κ)}
    (first : Path horizon s history s') (second : Path horizon s' history' s'') :
    Path horizon s (history ++ history') s'' := by
  induction second with
  | nil => rwa [List.append_nil]
  | snoc _ move ih =>
      rw [← List.append_assoc]
      exact .snoc ih move

end

/-! ## Steps of a worker -/

def resumed (s : Session κ) (index : Nat) (task : ActionTask EvalError Outcome) (m : Machine) :
    Session κ :=
  ⟨{ s.program.setWorker index (.executing task) with stop := m.stop }, ⟨m.store, m.surroundings⟩⟩

inductive Advances (s : Session κ) (index : Nat) : Event κ → Session κ → Prop where
  | performs {action : Action} {resume : action.Answer → ActionTask EvalError Outcome}
      {answer : action.Answer} {m : Machine}
      (here : s.program.workers[index]? = some (.executing (.ask action resume)))
      (answers : (s.program.machine s.environment).answer action = some (answer, m)) :
      Advances s index (.performed index action answer) (s.resumed index (resume answer) m)
  | returns {task : ActionTask EvalError Outcome} {result : Except EvalError Outcome}
      (here : s.program.workers[index]? = some (.executing task))
      (ends : Program.result? task.ending = some result) :
      Advances s index (.returned index result)
        ⟨s.program.setWorker index (.leaving result), s.environment.reportResult result⟩
  | releases {result : Except EvalError Outcome}
      (here : s.program.workers[index]? = some (.leaving result)) :
      Advances s index (.released index)
        ⟨{ s.program.setWorker index (.released result) with running := false }, s.environment⟩
  | exits {result : Except EvalError Outcome}
      (here : s.program.workers[index]? = some (.released result)) :
      Advances s index (.exited index)
        ⟨s.program.setWorker index (.ended result), s.environment⟩

theorem advances_iff {s : Session κ} {index : Nat} {event : Event κ} {p : Program κ}
    {e : Environment} : Advances s index event ⟨p, e⟩ ↔
      s.workerEvent? index = some event ∧ s.program.step index s.environment = some (p, e) := by
  constructor
  · generalize next : Session.mk p e = s'
    rintro (⟨here, answers⟩ | ⟨here, ends⟩ | here | here)
    · cases next
      simp [workerEvent?, Program.step, here, answers]
    · cases next
      rename_i task result
      cases task <;> simp_all [workerEvent?, Program.step, Task.ending, Program.result?]
    · cases next
      simp [workerEvent?, Program.step, here]
    · cases next
      simp [workerEvent?, Program.step, here]
  · rintro ⟨seen, steps⟩
    unfold workerEvent? at seen
    cases here : s.program.workers[index]? with
    | none => simp [here] at seen
    | some worker =>
        simp only [here] at seen
        cases worker with
        | executing task =>
            cases task with
            | ask action resume =>
                obtain ⟨⟨answer, m⟩, answers, rfl⟩ := Option.map_eq_some_iff.1 seen
                simp only [Program.step, here, answers] at steps
                obtain ⟨rfl, rfl⟩ := Prod.mk.inj (Option.some.inj steps)
                exact .performs here answers
            | unfinished => simp [Task.ending, Program.result?] at seen
            | done | fail | crash =>
                simp only [Program.step, here] at steps
                obtain ⟨rfl, rfl⟩ := Prod.mk.inj (Option.some.inj steps)
                obtain rfl := Option.some.inj seen
                exact .returns here rfl
        | leaving result =>
            simp only [Program.step, here, Option.some.injEq, Prod.mk.injEq] at seen steps
            obtain ⟨rfl, rfl⟩ := steps
            exact seen ▸ .releases here
        | released result =>
            simp only [Program.step, here, Option.some.injEq, Prod.mk.injEq] at seen steps
            obtain ⟨rfl, rfl⟩ := steps
            exact seen ▸ .exits here
        | ended result => simp at seen

end Session

/-! ## The flag and the workers -/

/-- From its start until it makes the program idle a worker is active. -/
def Worker.isActive : Worker → Bool
  | executing _ | leaving _ => true
  | released _ | ended _ => false

namespace Program

def Active (p : Program κ) (index : Nat) : Prop :=
  ∃ worker, p.workers[index]? = some worker ∧ worker.isActive = true

/-- Only the worker of the latest run can be active, nobody has waited for it yet, and the flag is
up exactly as long as it is. -/
structure Consistent (p : Program κ) : Prop where
  last : ∀ i, p.latest = some i → i + 1 = p.workers.length
  active : ∀ i, p.Active i → p.latest = some i ∧ p.running = true
  running : p.running = true → ∃ i, p.Active i

theorem Consistent.running_iff {p : Program κ} (h : p.Consistent) :
    p.running = true ↔ ∃ i, p.Active i :=
  ⟨h.running, fun ⟨i, active⟩ => (h.active i active).2⟩

theorem getElem?_setWorker {p : Program κ} {i : Nat} {w : Worker}
    (here : p.workers[i]? = some w) (w' : Worker) (j : Nat) :
    (p.setWorker i w').workers[j]? = if j = i then some w' else p.workers[j]? := by
  obtain ⟨bound, -⟩ := List.getElem?_eq_some_iff.1 here
  rw [setWorker, List.getElem?_set]
  by_cases same : i = j
  · simp [← same, bound]
  · rw [if_neg same, if_neg (Ne.symm same)]

theorem setWorker_self {p : Program κ} {i : Nat} {w : Worker} (here : p.workers[i]? = some w) :
    p.setWorker i w = p := by
  have same : p.workers.set i w = p.workers := by
    refine List.ext_getElem? fun j => ?_
    change (p.setWorker i w).workers[j]? = p.workers[j]?
    rw [getElem?_setWorker here]
    by_cases eq : j = i
    · rw [if_pos eq, eq, here]
    · rw [if_neg eq]
  rw [setWorker, same]

@[simp] theorem setWorker_setWorker (p : Program κ) (index : Nat) (w w' : Worker) :
    (p.setWorker index w).setWorker index w' = p.setWorker index w' := by
  simp [setWorker]

theorem active_setWorker {p : Program κ} {i : Nat} {w : Worker} (here : p.workers[i]? = some w)
    (w' : Worker) (j : Nat) :
    (p.setWorker i w').Active j ↔ if j = i then w'.isActive = true else p.Active j := by
  unfold Active
  rw [getElem?_setWorker here]
  by_cases same : j = i
  · simp [same]
  · simp [same]

theorem Active.of_getElem? {p : Program κ} {i : Nat} {w : Worker} (here : p.workers[i]? = some w)
    (active : w.isActive = true) : p.Active i :=
  ⟨w, here, active⟩

theorem Active.isActive {p : Program κ} {i : Nat} {w : Worker} (active : p.Active i)
    (here : p.workers[i]? = some w) : w.isActive = true := by
  obtain ⟨worker, there, active⟩ := active
  obtain rfl := Option.some.inj (here.symm.trans there)
  exact active

theorem consistent_ofRoots (roots : List (Node κ)) : (ofRoots roots).Consistent where
  last i eq := by simp [ofRoots] at eq
  active i active := by
    obtain ⟨w, here, -⟩ := active
    simp [ofRoots] at here
  running up := by simp [ofRoots] at up

theorem Consistent.setWorker {p : Program κ} (h : p.Consistent) {i : Nat} {w : Worker}
    (here : p.workers[i]? = some w) (w' : Worker) (same : w'.isActive = w.isActive) :
    (p.setWorker i w').Consistent := by
  have active (j : Nat) : (p.setWorker i w').Active j ↔ p.Active j := by
    rw [active_setWorker here]
    by_cases eq : j = i
    · subst eq
      rw [if_pos rfl, same]
      exact ⟨.of_getElem? here, fun a => a.isActive here⟩
    · rw [if_neg eq]
  constructor
  · intro j eq
    rw [h.last j eq, Program.setWorker, List.length_set]
  · intro j a
    exact h.active j ((active j).1 a)
  · intro up
    obtain ⟨j, a⟩ := h.running up
    exact ⟨j, (active j).2 a⟩

theorem Consistent.release {p : Program κ} (h : p.Consistent) {i : Nat}
    {result : Except EvalError Outcome} (here : p.workers[i]? = some (.leaving result)) :
    Consistent { p.setWorker i (.released result) with running := false } := by
  obtain ⟨latest, -⟩ := h.active i (.of_getElem? here rfl)
  have none (j : Nat) : ¬ (p.setWorker i (.released result)).Active j := by
    rw [active_setWorker here]
    by_cases eq : j = i
    · simp [eq, Worker.isActive]
    · rw [if_neg eq]
      intro active
      obtain ⟨latest', -⟩ := h.active j active
      exact eq (Option.some.inj (latest'.symm.trans latest))
  constructor
  · intro j eq
    change j + 1 = (p.workers.set i _).length
    rw [h.last j eq, List.length_set]
  · intro j active
    exact absurd active (none j)
  · intro up
    cases up

theorem start_true_iff [Vocabulary κ] (horizon : Nat) (p : Program κ) :
    (p.start horizon).1 = true ↔ p.running = false := by
  unfold start
  cases p.running <;> simp

theorem start_of_idle [Vocabulary κ] {p : Program κ} (horizon : Nat) (idle : p.running = false) :
    p.start horizon = (true, { p with
      running := true
      stop := false
      workers := p.workers ++ [.executing (Evaluation.actions (Node.execute horizon p.roots))]
      latest := some p.workers.length }) := by
  simp [start, idle]

theorem eq_of_start_false [Vocabulary κ] {horizon : Nat} {p p' : Program κ}
    (refuses : p.start horizon = (false, p')) : p' = p := by
  unfold start at refuses
  split at refuses
  · exact (Prod.mk.inj refuses).2.symm
  · cases refuses

theorem Consistent.start [Vocabulary κ] {p p' : Program κ} (h : p.Consistent) {horizon : Nat}
    (starts : p.start horizon = (true, p')) : p'.Consistent := by
  have idle : p.running = false := (start_true_iff horizon p).1 (by rw [starts])
  rw [start_of_idle horizon idle] at starts
  obtain ⟨-, rfl⟩ := Prod.mk.inj starts
  constructor
  · intro i eq
    obtain rfl := Option.some.inj eq
    simp
  · rintro i ⟨w, here, active⟩
    refine ⟨?_, rfl⟩
    rw [List.getElem?_append] at here
    split at here
    · obtain ⟨-, up⟩ := h.active i ⟨w, here, active⟩
      cases idle.symm.trans up
    · have bound := (List.getElem?_eq_some_iff.1 here).1
      simp only [List.length_singleton] at bound
      exact congrArg some (by omega)
  · intro _
    exact ⟨p.workers.length, _, List.getElem?_concat_length, rfl⟩

theorem take_cases {p p' : Program κ} {result : Option (Except EvalError Outcome)}
    (takes : p.take = some (result, p')) :
    (p.latest = none ∧ result = none ∧ p' = p) ∨
    ∃ i r, p.latest = some i ∧ p.workers[i]? = some (.ended r) ∧ result = some r ∧
      p' = { p with latest := none } := by
  unfold Program.take at takes
  split at takes
  · next none =>
    obtain ⟨rfl, rfl⟩ := Prod.mk.inj (Option.some.inj takes)
    exact .inl ⟨none, rfl, rfl⟩
  · next i latest =>
    split at takes
    · next r here =>
      obtain ⟨rfl, rfl⟩ := Prod.mk.inj (Option.some.inj takes)
      exact .inr ⟨i, r, latest, here, rfl, rfl⟩
    · cases takes

theorem Consistent.take {p p' : Program κ} (h : p.Consistent)
    {result : Option (Except EvalError Outcome)} (takes : p.take = some (result, p')) :
    p'.Consistent ∧ p'.running = false := by
  have inactive (none : ∀ i, ¬ p.Active i) : p.running = false := by
    rw [← Bool.not_eq_true, h.running_iff, not_exists]
    exact none
  rcases take_cases takes with ⟨latest, -, rfl⟩ | ⟨index, r, latest, here, -, rfl⟩
  · refine ⟨h, inactive fun i active => ?_⟩
    cases latest.symm.trans (h.active i active).1
  · have none (i : Nat) : ¬ p.Active i := by
      intro active
      obtain rfl := Option.some.inj (latest.symm.trans (h.active i active).1)
      cases active.isActive here
    exact ⟨⟨nofun, fun i active => absurd active (none i), h.running⟩, inactive none⟩

end Program

namespace Session

theorem Advances.consistent {s s' : Session κ} {index : Nat} {event : Event κ}
    (advances : s.Advances index event s') (h : s.program.Consistent) : s'.program.Consistent := by
  cases advances with
  | @performs _ resume answer _ here answers =>
      have kept := h.setWorker here (.executing (resume answer)) rfl
      exact ⟨kept.last, kept.active, kept.running⟩
  | @returns _ result here ends => exact h.setWorker here (.leaving result) rfl
  | releases here => exact h.release here
  | @exits result here => exact h.setWorker here (.ended result) rfl

variable [Vocabulary κ] {horizon : Nat}

theorem Move.consistent {s s' : Session κ} {event : Event κ} (move : Move horizon s event s')
    (h : s.program.Consistent) : s'.program.Consistent := by
  cases move with
  | start starts => exact h.start starts
  | refuse refuses =>
      obtain rfl := Program.eq_of_start_false refuses
      exact h
  | stop => exact ⟨h.last, h.active, h.running⟩
  | edit roots => exact ⟨h.last, h.active, h.running⟩
  | observe => exact h
  | wait takes => exact (h.take takes).1
  | work index seen steps => exact (advances_iff.2 ⟨seen, steps⟩).consistent h
  | change environment => exact h

theorem Path.consistent {s s' : Session κ} {history : List (Event κ)}
    (path : Path horizon s history s') (h : s.program.Consistent) : s'.program.Consistent := by
  induction path with
  | nil => exact h
  | snoc _ move ih => exact move.consistent ih

end Session

end BlockScript
