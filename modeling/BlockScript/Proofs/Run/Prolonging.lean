import BlockScript.Proofs.Evaluation.Outlasting
import BlockScript.Proofs.Run.Orderly

/-!
# Sessions at a greater horizon

What happens in a session also happens at every greater horizon, with workers that go on where the
loops of the first ones are left: `Move.withWorkers` is the step lemma and `Path.withWorkers` the
run lemma.  How the workers of the two sessions go on, `Recorded.outlasts` has from the history that
they share.
-/

namespace BlockScript

variable {κ : Type}

inductive Worker.Lasts : Worker → Worker → Prop where
  | executing {t u : ActionTask EvalError Outcome} (lasts : t.Outlasts (fun _ => True) u) :
      Lasts (executing t) (executing u)
  | leaving (result : Except EvalError Outcome) : Lasts (leaving result) (leaving result)
  | released (result : Except EvalError Outcome) : Lasts (released result) (released result)
  | ended (result : Except EvalError Outcome) : Lasts (ended result) (ended result)

theorem Task.Outlasts.eq_of_result {on : ActionTask EvalError Outcome → Prop}
    {t u : ActionTask EvalError Outcome} (outlasts : t.Outlasts on u)
    {result : Except EvalError Outcome} (ends : Program.result? t.ending = some result) : u = t := by
  cases outlasts with
  | done | fail | crash => rfl
  | further | ask => cases ends

section
variable {α β : Type} {r : α → β → Prop} {as : List α} {bs : List β}

theorem exists_of_forall₂ (each : List.Forall₂ r as bs) {i : Nat} {a : α} (here : as[i]? = some a) :
    ∃ b, bs[i]? = some b ∧ r a b := by
  obtain ⟨bound, rfl⟩ := List.getElem?_eq_some_iff.1 here
  have bound' : i < bs.length := each.length_eq ▸ bound
  exact ⟨bs[i], List.getElem?_eq_getElem bound', each.get bound bound'⟩

theorem forall₂_set (each : List.Forall₂ r as bs) {a : α} {b : β} (related : r a b) (i : Nat) :
    List.Forall₂ r (as.set i a) (bs.set i b) := by
  induction each generalizing i with
  | nil => exact .nil
  | cons first rest ih =>
      cases i with
      | zero => exact .cons related rest
      | succ i => exact .cons first (ih i)

end

namespace Session

def withWorkers (s : Session κ) (workers : List Worker) : Session κ :=
  { s with program := { s.program with workers } }

theorem Advances.withWorkers {s s' : Session κ} {i : Nat} {event : Event κ}
    (advances : s.Advances i event s') {workers : List Worker}
    (lasts : List.Forall₂ Worker.Lasts s.program.workers workers) :
    ∃ workers', (s.withWorkers workers).Advances i event (s'.withWorkers workers') ∧
      List.Forall₂ Worker.Lasts s'.program.workers workers' := by
  cases advances with
  | @performs action resume answer m here answers =>
      obtain ⟨_, there, ⟨⟨⟩⟩⟩ := exists_of_forall₂ lasts here
      rename_i resume' each
      exact ⟨_, .performs there answers, forall₂_set lasts (.executing (each answer)) i⟩
  | @returns task result here ends =>
      obtain ⟨_, there, ⟨outlasts⟩⟩ := exists_of_forall₂ lasts here
      obtain rfl := outlasts.eq_of_result ends
      exact ⟨_, .returns there ends, forall₂_set lasts (.leaving result) i⟩
  | @releases result here =>
      obtain ⟨_, there, ⟨⟩⟩ := exists_of_forall₂ lasts here
      exact ⟨_, .releases there, forall₂_set lasts (.released result) i⟩
  | @exits result here =>
      obtain ⟨_, there, ⟨⟩⟩ := exists_of_forall₂ lasts here
      exact ⟨_, .exits there, forall₂_set lasts (.ended result) i⟩

variable [Vocabulary κ] {horizon further : Nat}

theorem Move.withWorkers {s s' : Session κ} {event : Event κ} (move : Move horizon s event s')
    (less : horizon < further) {workers : List Worker}
    (lasts : List.Forall₂ Worker.Lasts s.program.workers workers) :
    ∃ workers', Move further (s.withWorkers workers) event (s'.withWorkers workers') ∧
      List.Forall₂ Worker.Lasts s'.program.workers workers' := by
  cases move with
  | start starts =>
      have idle := (Program.start_true_iff horizon s.program).1 (by rw [starts])
      rw [Program.start_of_idle horizon idle] at starts
      obtain ⟨-, rfl⟩ := Prod.mk.inj starts
      have begun : Worker.Lasts _ _ := .executing (Node.lasts_execute less s.program.roots)
      refine ⟨_, .start ?_, List.rel_append lasts (.cons begun .nil)⟩
      rw [Program.start_of_idle (p := (s.withWorkers workers).program) further idle]
      simp only [Session.withWorkers, lasts.length_eq]
  | refuse refuses =>
      obtain rfl := Program.eq_of_start_false refuses
      have running : s.program.running = true := by
        rw [← Bool.not_eq_false, ← Program.start_true_iff horizon, refuses]
        exact nofun
      exact ⟨workers, .refuse (by simp [Session.withWorkers, Program.start, running]), lasts⟩
  | stop => exact ⟨workers, .stop _, lasts⟩
  | edit roots => exact ⟨workers, .edit _ roots, lasts⟩
  | observe => exact ⟨workers, .observe _, lasts⟩
  | wait takes =>
      rcases Program.take_cases takes with ⟨latest, rfl, rfl⟩ | ⟨i, r, latest, here, rfl, rfl⟩
      · exact ⟨workers, .wait (by simp [Session.withWorkers, Program.take, latest]), lasts⟩
      · obtain ⟨_, there, ⟨⟩⟩ := exists_of_forall₂ lasts here
        exact ⟨workers, .wait (by simp [Session.withWorkers, Program.take, latest, there]), lasts⟩
  | @work i _ p e seen steps =>
      obtain ⟨workers', advances, lasts⟩ := (advances_iff.2 ⟨seen, steps⟩).withWorkers lasts
      obtain ⟨seen, steps⟩ := advances_iff.1 advances
      exact ⟨workers', .work i seen steps, lasts⟩
  | change environment => exact ⟨workers, .change _ environment, lasts⟩

theorem Recorded.outlasts {on : ActionTask EvalError Outcome → Prop} {history : List (Event κ)}
    {p q : Program κ} (first : Recorded horizon history p) (second : Recorded further history q)
    {i : Nat} {roots : List (Node κ)} (started : (runs history)[i]? = some roots)
    (outlasts : (Evaluation.actions (Node.execute horizon roots)).Outlasts on
      (Evaluation.actions (Node.execute further roots))) :
    ∃ task task' w w', p.workers[i]? = some w ∧ w.StandsAt task ∧ q.workers[i]? = some w' ∧
      w'.StandsAt task' ∧ task.Outlasts on task' ∧
      (Evaluation.actions (Node.execute further roots)).Follows (log i history) task' := by
  obtain ⟨task, w, follows, here, stands⟩ := first.follows i roots started
  obtain ⟨task', w', follows', here', stands'⟩ := second.follows i roots started
  have goes := outlasts.along follows follows'
  exact ⟨task, task', w, w', here, stands, here', stands', goes, follows'⟩

theorem Path.withWorkers {s s' : Session κ} {history : List (Event κ)}
    (path : Path horizon s history s') (less : horizon < further) {workers : List Worker}
    (lasts : List.Forall₂ Worker.Lasts s.program.workers workers) :
    ∃ workers', Path further (s.withWorkers workers) history (s'.withWorkers workers') ∧
      List.Forall₂ Worker.Lasts s'.program.workers workers' := by
  induction path with
  | nil => exact ⟨workers, .nil _, lasts⟩
  | snoc _ move ih =>
      obtain ⟨_, path, lasts⟩ := ih
      obtain ⟨workers', move, lasts⟩ := move.withWorkers less lasts
      exact ⟨workers', .snoc path move, lasts⟩

end Session

end BlockScript
