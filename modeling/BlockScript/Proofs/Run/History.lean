import BlockScript.Proofs.Run.Session

/-!
# What the history of a session tells about its workers

`runs` lists the roots of the runs that have started, `log` the actions that a worker has performed,
and `awaited` tells whether a run started after the last wait.  `Recorded` ties the state to them:
every worker stands where its log leads in the task of the roots that its run started on.
`Move.recorded` is the step lemma and `Path.recorded` the run lemma.
-/

namespace BlockScript

variable {κ : Type}

def Worker.StandsAt (task : ActionTask EvalError Outcome) : Worker → Prop
  | executing remaining => remaining = task
  | leaving result | released result | ended result => Program.result? task.ending = some result

namespace Session

namespace Event

def run? : Event κ → Option (List (Node κ))
  | started roots => some roots
  | _ => none

def exchange? (index : Nat) : Event κ → Option (Task.Exchange Action.signature)
  | performed i action answer => if i = index then some ⟨action, answer⟩ else none
  | _ => none

def awaits (before : Bool) : Event κ → Bool
  | started _ => true
  | waited _ => false
  | _ => before

end Event

def runs (history : List (Event κ)) : List (List (Node κ)) := history.filterMap Event.run?

def log (index : Nat) (history : List (Event κ)) : List (Task.Exchange Action.signature) :=
  history.filterMap (Event.exchange? index)

def awaited (history : List (Event κ)) : Bool := history.foldl Event.awaits false

theorem runs_snoc (history : List (Event κ)) (event : Event κ) :
    runs (history ++ [event]) = runs history ++ event.run?.toList := by
  cases event <;> simp [runs, Event.run?]

theorem log_snoc (index : Nat) (history : List (Event κ)) (event : Event κ) :
    log index (history ++ [event]) = log index history ++ (event.exchange? index).toList := by
  simp only [log, List.filterMap_append]
  cases found : event.exchange? index <;> simp [found]

theorem runs_snoc_of_none (history : List (Event κ)) {event : Event κ} (run : event.run? = none) :
    runs (history ++ [event]) = runs history := by
  rw [runs_snoc, run, Option.toList_none, List.append_nil]

theorem log_snoc_of_none {index : Nat} (history : List (Event κ)) {event : Event κ}
    (exchange : event.exchange? index = none) :
    log index (history ++ [event]) = log index history := by
  rw [log_snoc, exchange, Option.toList_none, List.append_nil]

theorem log_append (index : Nat) (history history' : List (Event κ)) :
    log index (history ++ history') = log index history ++ log index history' :=
  List.filterMap_append

theorem getElem?_runs_append {before : List (Event κ)} {i : Nat} {roots : List (Node κ)}
    (started : (runs before)[i]? = some roots) (after : List (Event κ)) :
    (runs (before ++ after))[i]? = some roots := by
  rw [runs, List.filterMap_append]
  exact (List.getElem?_append_left (List.getElem?_eq_some_iff.1 started).1).trans started

@[simp] theorem awaited_snoc (history : List (Event κ)) (event : Event κ) :
    awaited (history ++ [event]) = event.awaits (awaited history) := by
  simp [awaited]

variable [Vocabulary κ] {horizon : Nat}

structure Recorded (horizon : Nat) (history : List (Event κ)) (p : Program κ) : Prop where
  count : (runs history).length = p.workers.length
  unstarted : ∀ i, p.workers.length ≤ i → log i history = []
  follows : ∀ i roots, (runs history)[i]? = some roots → ∃ task worker,
    (Evaluation.actions (Node.execute horizon roots)).Follows (log i history) task ∧
      p.workers[i]? = some worker ∧ worker.StandsAt task
  latest : p.latest = if awaited history then some ((runs history).length - 1) else none

theorem recorded_ofRoots (roots : List (Node κ)) : Recorded horizon [] (.ofRoots roots) where
  count := rfl
  unstarted _ _ := rfl
  follows i roots started := by simp [runs] at started
  latest := rfl

theorem Recorded.executes {history : List (Event κ)} {p : Program κ}
    (h : Recorded horizon history p) {i : Nat} {worker : Worker}
    (here : p.workers[i]? = some worker) : ∃ roots task, (runs history)[i]? = some roots ∧
      (Evaluation.actions (Node.execute horizon roots)).Follows (log i history) task ∧
      worker.StandsAt task := by
  have bound : i < (runs history).length := h.count ▸ (List.getElem?_eq_some_iff.1 here).1
  have started := List.getElem?_eq_getElem bound
  obtain ⟨task, worker', follows, there, stands⟩ := h.follows i _ started
  obtain rfl := Option.some.inj (here.symm.trans there)
  exact ⟨_, task, started, follows, stands⟩

theorem Recorded.keep {history : List (Event κ)} {p p' : Program κ} {event : Event κ}
    (h : Recorded horizon history p) (run : event.run? = none)
    (exchange : ∀ i, event.exchange? i = none) (workers : p'.workers = p.workers)
    (latest : p'.latest =
      if event.awaits (awaited history) then some ((runs history).length - 1) else none) :
    Recorded horizon (history ++ [event]) p' := by
  have sameRuns := runs_snoc_of_none history run
  have sameLog (i : Nat) := log_snoc_of_none history (exchange i)
  constructor
  · rw [sameRuns, workers, h.count]
  · intro i bound
    rw [sameLog, h.unstarted i (workers ▸ bound)]
  · intro i roots started
    rw [sameRuns] at started
    rw [sameLog, workers]
    exact h.follows i roots started
  · rw [awaited_snoc, sameRuns, latest]

theorem Recorded.silent {history : List (Event κ)} {p p' : Program κ} {event : Event κ}
    (h : Recorded horizon history p) (run : event.run? = none)
    (exchange : ∀ i, event.exchange? i = none) (awaits : ∀ b, event.awaits b = b)
    (workers : p'.workers = p.workers) (latest : p'.latest = p.latest) :
    Recorded horizon (history ++ [event]) p' :=
  h.keep run exchange workers (by rw [latest, h.latest, awaits])

theorem Recorded.advance {history : List (Event κ)} {p p' : Program κ} {event : Event κ}
    {index : Nat} {w w' : Worker} (h : Recorded horizon history p) (run : event.run? = none)
    (others : ∀ i, i ≠ index → event.exchange? i = none) (awaits : ∀ b, event.awaits b = b)
    (here : p.workers[index]? = some w) (workers : p'.workers = (p.setWorker index w').workers)
    (latest : p'.latest = p.latest)
    (onwards : ∀ task, w.StandsAt task → ∃ next, task.Follows (event.exchange? index).toList next ∧
      w'.StandsAt next) :
    Recorded horizon (history ++ [event]) p' := by
  have sameRuns := runs_snoc_of_none history run
  have sameLog (i : Nat) (other : i ≠ index) := log_snoc_of_none history (others i other)
  have length : p'.workers.length = p.workers.length := by
    rw [workers, Program.setWorker, List.length_set]
  have bound : index < p.workers.length := (List.getElem?_eq_some_iff.1 here).1
  constructor
  · rw [sameRuns, length, h.count]
  · intro i beyond
    rw [length] at beyond
    rw [sameLog i (by omega), h.unstarted i beyond]
  · intro i roots started
    rw [sameRuns] at started
    obtain ⟨task, worker, follows, there, stands⟩ := h.follows i roots started
    rw [workers, Program.getElem?_setWorker here]
    by_cases same : i = index
    · subst same
      obtain rfl := Option.some.inj (here.symm.trans there)
      obtain ⟨next, step, stands'⟩ := onwards task stands
      rw [log_snoc]
      exact ⟨next, w', follows.append step, if_pos rfl, stands'⟩
    · rw [sameLog i same, if_neg same]
      exact ⟨task, worker, follows, there, stands⟩
  · rw [awaited_snoc, awaits, sameRuns, latest, h.latest]

theorem Recorded.start {history : List (Event κ)} {p p' : Program κ}
    (h : Recorded horizon history p) (starts : p.start horizon = (true, p')) :
    Recorded horizon (history ++ [.started p.roots]) p' := by
  have idle : p.running = false := (Program.start_true_iff horizon p).1 (by rw [starts])
  rw [Program.start_of_idle horizon idle] at starts
  obtain ⟨-, rfl⟩ := Prod.mk.inj starts
  have sameLog (i : Nat) : log i (history ++ [.started p.roots]) = log i history :=
    log_snoc_of_none history rfl
  constructor
  · simp [runs_snoc, Event.run?, h.count]
  · intro i beyond
    rw [List.length_append] at beyond
    rw [sameLog, h.unstarted i (by omega)]
  · intro i roots started
    rw [sameLog]
    rw [runs_snoc, Event.run?, Option.toList_some, List.getElem?_append] at started
    split at started
    · next old =>
      obtain ⟨task, worker, follows, there, stands⟩ := h.follows i roots started
      refine ⟨task, worker, follows, ?_, stands⟩
      rwa [List.getElem?_append_left (h.count ▸ old)]
    · next new =>
      have bound := (List.getElem?_eq_some_iff.1 started).1
      simp only [List.length_singleton] at bound
      obtain rfl : i = p.workers.length := by
        rw [← h.count]
        omega
      rw [← h.count, Nat.sub_self] at started
      obtain rfl := Option.some.inj started
      refine ⟨_, _, ?_, List.getElem?_concat_length, rfl⟩
      rw [h.unstarted _ (Nat.le_refl _)]
      exact .nil _
  · simp [Event.awaits, runs_snoc, Event.run?, h.count]

theorem Recorded.wait {history : List (Event κ)} {p p' : Program κ}
    {result : Option (Except EvalError Outcome)} (h : Recorded horizon history p)
    (takes : p.take = some (result, p')) : Recorded horizon (history ++ [.waited result]) p' := by
  obtain ⟨workers, latest⟩ : p'.workers = p.workers ∧ p'.latest = none := by
    rcases Program.take_cases takes with ⟨latest, -, rfl⟩ | ⟨i, r, -, -, -, rfl⟩
    · exact ⟨rfl, latest⟩
    · exact ⟨rfl, rfl⟩
  exact h.keep rfl (fun _ => rfl) workers latest

theorem Advances.recorded {history : List (Event κ)} {s s' : Session κ} {index : Nat}
    {event : Event κ} (advances : s.Advances index event s')
    (h : Recorded horizon history s.program) :
    Recorded horizon (history ++ [event]) s'.program := by
  cases advances with
  | performs here answers =>
      refine h.advance rfl (fun i other => if_neg (Ne.symm other)) (fun _ => rfl) here rfl rfl ?_
      rintro task rfl
      refine ⟨_, ?_, rfl⟩
      rw [Event.exchange?, if_pos rfl]
      exact .cons (.nil _)
  | returns here ends =>
      refine h.advance rfl (fun _ _ => rfl) (fun _ => rfl) here rfl rfl ?_
      rintro task rfl
      exact ⟨_, .nil _, ends⟩
  | releases here =>
      exact h.advance rfl (fun _ _ => rfl) (fun _ => rfl) here rfl rfl
        fun task stands => ⟨task, .nil _, stands⟩
  | exits here =>
      exact h.advance rfl (fun _ _ => rfl) (fun _ => rfl) here rfl rfl
        fun task stands => ⟨task, .nil _, stands⟩

theorem Move.recorded {history : List (Event κ)} {s s' : Session κ} {event : Event κ}
    (move : Move horizon s event s') (h : Recorded horizon history s.program) :
    Recorded horizon (history ++ [event]) s'.program := by
  cases move with
  | start starts => exact h.start starts
  | refuse refuses =>
      obtain rfl := Program.eq_of_start_false refuses
      exact h.silent rfl (fun _ => rfl) (fun _ => rfl) rfl rfl
  | stop => exact h.silent rfl (fun _ => rfl) (fun _ => rfl) rfl rfl
  | edit roots => exact h.silent rfl (fun _ => rfl) (fun _ => rfl) rfl rfl
  | observe => exact h.silent rfl (fun _ => rfl) (fun _ => rfl) rfl rfl
  | wait takes => exact h.wait takes
  | work index seen steps => exact (advances_iff.2 ⟨seen, steps⟩).recorded h
  | change environment => exact h.silent rfl (fun _ => rfl) (fun _ => rfl) rfl rfl

theorem Path.recorded {roots : List (Node κ)} {e : Environment} {history : List (Event κ)}
    {s : Session κ} (path : Path horizon (.ofRoots roots e) history s) :
    Recorded horizon history s.program := by
  generalize begin : Session.ofRoots roots e = s₀ at path
  induction path with
  | nil => exact begin ▸ recorded_ofRoots roots
  | snoc _ move ih => exact move.recorded ih

end Session

end BlockScript
