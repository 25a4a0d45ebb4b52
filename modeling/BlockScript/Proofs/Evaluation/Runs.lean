import BlockScript.Proofs.Evaluation.Contract
import BlockScript.Run.Machine

/-!
# Runs of tasks on a machine

In a run the machine answers one action after another; at any time somebody else may request a stop,
and the surroundings may change on their own.  `Machine.Runs` relates a machine and a task to what a
run has made of them so far, so that it speaks of runs of any length, ended or not.

* `runs_of_run`: what `Machine.run` computes is one of these runs.
* `Runs.obeys`: an invariant of the machine that the actions of a contract keep holds throughout,
  and so does the contract.
-/

namespace BlockScript

def Task.ending {σ : Signature} {ε α : Type} : Task σ ε α → Ending ε α
  | done a => .done a
  | fail e => .failed e
  | crash => .crashed
  | unfinished => .unfinished
  | ask _ _ => .unfinished

theorem Task.run_ask {σ : Signature} {ε α S : Type}
    (answer : (r : σ.Request) → S → Option (σ.Answer r × S)) (request : σ.Request)
    (resume : σ.Answer request → Task σ ε α) (s : S) :
    (∃ a s', answer request s = some (a, s') ∧
      Task.run answer (ask request resume) s = Task.run answer (resume a) s') ∨
    answer request s = none ∧ Task.run answer (ask request resume) s = (.unfinished, s) := by
  cases found : answer request s with
  | none => exact .inr ⟨rfl, by rw [Task.run, found]⟩
  | some result => exact .inl ⟨result.1, result.2, rfl, by rw [Task.run, found]⟩

theorem Task.run_answered {σ : Signature} {ε α S : Type}
    {answer : (r : σ.Request) → S → Option (σ.Answer r × S)} {request : σ.Request}
    (resume : σ.Answer request → Task σ ε α) {s : S} {result : σ.Answer request × S}
    (answered : answer request s = some result) :
    Task.run answer (ask request resume) s = Task.run answer (resume result.1) result.2 := by
  rw [Task.run, answered]

theorem Task.run_stuck {σ : Signature} {ε α S : Type}
    {answer : (r : σ.Request) → S → Option (σ.Answer r × S)} {request : σ.Request}
    (resume : σ.Answer request → Task σ ε α) {s : S} (stuck : answer request s = none) :
    Task.run answer (ask request resume) s = (.unfinished, s) := by
  rw [Task.run, stuck]

theorem Task.leads_of_run {σ : Signature} {ε α S : Type}
    {answer : (r : σ.Request) → S → Option (σ.Answer r × S)} {t : Task σ ε α} {s s' : S} {a : α}
    (ran : Task.run answer t s = (.done a, s')) : t.Leads (.done a) := by
  induction t generalizing s with
  | done b =>
      rw [Ending.done.inj (Prod.mk.inj ran).1]
      exact .refl _
  | fail | crash | unfinished => cases (Prod.mk.inj ran).1
  | ask request resume ih =>
      rcases Task.run_ask answer request resume s with ⟨b, s₁, -, next⟩ | ⟨-, stuck⟩
      · exact .answered request b (ih b (next.symm.trans ran))
      · rw [stuck] at ran
        cases (Prod.mk.inj ran).1

def Ending.andThen {ε α β S : Type} (next : α → S → Ending ε β × S) :
    Ending ε α × S → Ending ε β × S
  | (done a, s) => next a s
  | (failed e, s) => (failed e, s)
  | (crashed, s) => (crashed, s)
  | (unfinished, s) => (unfinished, s)

theorem Task.run_bind {σ : Signature} {ε α β S : Type}
    (answer : (r : σ.Request) → S → Option (σ.Answer r × S)) (t : Task σ ε α)
    (f : α → Task σ ε β) (s : S) : Task.run answer (t.bind f) s =
      Ending.andThen (fun a s => Task.run answer (f a) s) (Task.run answer t s) := by
  induction t generalizing s with
  | ask request resume ih =>
      rw [Task.bind, Task.run, Task.run]
      cases answer request s with
      | none => rfl
      | some result => exact ih result.1 result.2
  | _ => rfl

theorem Task.exists_of_run_bind {σ : Signature} {ε α β S : Type}
    {answer : (r : σ.Request) → S → Option (σ.Answer r × S)} {t : Task σ ε α} {f : α → Task σ ε β}
    {s s' : S} {b : β} (ran : Task.run answer (t.bind f) s = (.done b, s')) :
    ∃ a s₁, Task.run answer t s = (.done a, s₁) ∧ Task.run answer (f a) s₁ = (.done b, s') := by
  rw [Task.run_bind] at ran
  rcases started : Task.run answer t s with ⟨ending, s₁⟩
  rw [started] at ran
  cases ending with
  | done a => exact ⟨a, s₁, rfl, ran⟩
  | failed | crashed | unfinished => cases (Prod.mk.inj ran).1

namespace Machine

variable {ε α : Type}

inductive Runs : Machine → ActionTask ε α → Machine → ActionTask ε α → Prop where
  | refl (m : Machine) (t : ActionTask ε α) : Runs m t m t
  | answered {m m' m'' : Machine} {action : Action} {resume : action.Answer → ActionTask ε α}
      {answer : action.Answer} {t : ActionTask ε α} (answers : m.answer action = some (answer, m'))
      (rest : Runs m' (resume answer) m'' t) : Runs m (.ask action resume) m'' t
  | stopped {m m' : Machine} {t t' : ActionTask ε α} (rest : Runs { m with stop := true } t m' t') :
      Runs m t m' t'
  | changed {m m' : Machine} {t t' : ActionTask ε α} (surroundings : Surroundings)
      (rest : Runs { m with surroundings } t m' t') : Runs m t m' t'

theorem runs_of_run {t : ActionTask ε α} {m m' : Machine} {ending : Ending ε α}
    (run : m.run t = (ending, m')) : ∃ t', m.Runs t m' t' ∧ t'.ending = ending := by
  induction t generalizing m with
  | done a =>
      obtain ⟨rfl, rfl⟩ := Prod.mk.inj run
      exact ⟨_, .refl _ _, rfl⟩
  | fail e =>
      obtain ⟨rfl, rfl⟩ := Prod.mk.inj run
      exact ⟨_, .refl _ _, rfl⟩
  | crash =>
      obtain ⟨rfl, rfl⟩ := Prod.mk.inj run
      exact ⟨_, .refl _ _, rfl⟩
  | unfinished =>
      obtain ⟨rfl, rfl⟩ := Prod.mk.inj run
      exact ⟨_, .refl _ _, rfl⟩
  | ask action resume ih =>
      rcases Task.run_ask answer action resume m with ⟨a, m₁, found, next⟩ | ⟨-, stuck⟩
      · obtain ⟨t', runs, ends⟩ := ih a (next.symm.trans run)
        exact ⟨t', .answered found runs, ends⟩
      · obtain ⟨rfl, rfl⟩ := Prod.mk.inj (stuck.symm.trans run)
        exact ⟨_, .refl _ _, rfl⟩

theorem Runs.leads {m m' : Machine} {t t' : ActionTask ε α} (runs : m.Runs t m' t') :
    t.Leads t' := by
  induction runs with
  | refl m t => exact .refl t
  | answered _ _ ih => exact .answered _ _ ih
  | stopped _ ih => exact ih
  | changed _ _ ih => exact ih

/-- What every allowed action keeps, and stop requests and changes of the surroundings keep as well,
a run keeps. -/
theorem Runs.obeys {m m' : Machine} {t t' : ActionTask ε α} {c : Contract Action.signature ε}
    {post : α → Prop} (runs : m.Runs t m' t') (invariant : Machine → Prop)
    (step : ∀ {m m' : Machine} {action : Action} {answer : action.Answer}, invariant m →
      c.asks action → m.answer action = some (answer, m') → c.answers action answer ∧ invariant m')
    (stop : ∀ {m : Machine}, invariant m → invariant { m with stop := true })
    (change : ∀ {m : Machine} (surroundings : Surroundings), invariant m →
      invariant { m with surroundings })
    (start : invariant m) (obeys : t.Obeys c post) : invariant m' ∧ t'.Obeys c post := by
  induction runs with
  | refl m t => exact ⟨start, obeys⟩
  | answered answers _ ih =>
      obtain ⟨allowed, kept⟩ := step start obeys.1 answers
      exact ih kept (obeys.2 _ allowed)
  | stopped _ ih => exact ih (stop start) obeys
  | changed surroundings _ ih => exact ih (change surroundings start) obeys

def bare (store : Store) : Machine where
  store := store
  stop := false
  surroundings := {
    files := .empty
    now := ⟨2000, 1, 1, 6, 0, 0, 0, 0⟩
    chance := .zero
    events := []
    bells := 0 }

end Machine

end BlockScript
