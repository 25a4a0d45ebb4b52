import BlockScript.Proofs.Evaluation.Horizons

/-!
# Going on where a loop was left

A greater horizon changes an evaluation only where a loop was left unfinished: `Task.Outlasts`
relates the tasks of two horizons answer by answer, so that every log of the first is one of the
second (`Outlasts.follows`).

`Task.Ends` says that a task comes to its end whichever of some possible answers it gets.  What goes
on in place of a loop that was left starts with a poll, so it ends once polls tell of a stop:
`Node.lastsHeeding_execute` says so of every program whose blocks come to their ends, and
`Machine.run_ne_unfinished` what this makes of the run.
-/

namespace BlockScript

namespace Task

variable {σ τ : Signature} {ε δ α β : Type}

/-! ## Coming to an end -/

def Ends (possible : Exchange σ → Prop) : Task σ ε α → Prop
  | done _ | fail _ | crash => True
  | unfinished => False
  | ask request resume => ∀ answer, possible ⟨request, answer⟩ → Ends possible (resume answer)

namespace Ends

variable {possible : Exchange σ → Prop}

theorem bind {t : Task σ ε α} {f : α → Task σ ε β} (first : t.Ends possible)
    (next : ∀ a, (f a).Ends possible) : (t.bind f).Ends possible := by
  induction t with
  | done a => exact next a
  | fail | crash => trivial
  | unfinished => exact first
  | ask request resume ih => exact fun answer allowed => ih answer (first answer allowed)

theorem mapError {t : Task σ ε α} {f : ε → δ} (h : t.Ends possible) :
    (t.mapError f).Ends possible := by
  induction t with
  | ask request resume ih => exact fun answer allowed => ih answer (h answer allowed)
  | _ => exact h

theorem interpret {possible : Exchange τ → Prop} {t : Task σ ε α}
    {handle : (r : σ.Request) → Task τ ε (σ.Answer r)} (h : t.Ends fun _ => True)
    (handled : ∀ request, (handle request).Ends possible) :
    (t.interpret handle).Ends possible := by
  induction t with
  | done | fail | crash => trivial
  | unfinished => exact h
  | ask request resume ih => exact (handled request).bind fun answer => ih answer (h answer trivial)

end Ends

/-! ## Going on -/

/-- The second task is the first one, and goes on as told where the first is left unfinished. -/
inductive Outlasts (on : Task σ ε α → Prop) : Task σ ε α → Task σ ε α → Prop where
  | done (a : α) : Outlasts on (done a) (done a)
  | fail (e : ε) : Outlasts on (fail e) (fail e)
  | crash : Outlasts on crash crash
  | further {u : Task σ ε α} (goes : on u) : Outlasts on unfinished u
  | ask (request : σ.Request) {resume resume' : σ.Answer request → Task σ ε α}
      (each : ∀ answer, Outlasts on (resume answer) (resume' answer)) :
      Outlasts on (ask request resume) (ask request resume')

namespace Outlasts

variable {on : Task σ ε α → Prop} {t u : Task σ ε α}

theorem of_ends (ends : t.Ends fun _ => True) : Outlasts on t t := by
  induction t with
  | done a => exact .done a
  | fail e => exact .fail e
  | crash => exact .crash
  | unfinished => exact ends.elim
  | ask request resume ih => exact .ask request fun answer => ih answer (ends answer trivial)

theorem refl (t : Task σ ε α) : Outlasts (fun _ => True) t t := by
  induction t with
  | done a => exact .done a
  | fail e => exact .fail e
  | crash => exact .crash
  | unfinished => exact .further trivial
  | ask request resume ih => exact .ask request ih

theorem bind {on' : Task σ ε β → Prop} {f g : α → Task σ ε β} (first : Outlasts on t u)
    (next : ∀ a, Outlasts on' (f a) (g a)) (goes : ∀ v, on v → on' (v.bind g)) :
    Outlasts on' (t.bind f) (u.bind g) := by
  induction first with
  | done a => exact next a
  | fail e => exact .fail e
  | crash => exact .crash
  | further onward => exact .further (goes _ onward)
  | ask request _ ih => exact .ask request ih

theorem follows {t' : Task σ ε α} {log : List (Exchange σ)} (outlasts : Outlasts on t u)
    (follows : t.Follows log t') : ∃ u', u.Follows log u' ∧ Outlasts on t' u' := by
  induction follows generalizing u with
  | nil t => exact ⟨u, .nil u, outlasts⟩
  | cons _ ih =>
      cases outlasts with
      | ask _ each =>
          obtain ⟨u', rest, outlasts⟩ := ih (each _)
          exact ⟨u', .cons rest, outlasts⟩

theorem along {t' u' : Task σ ε α} {log : List (Exchange σ)} (outlasts : Outlasts on t u)
    (first : t.Follows log t') (second : u.Follows log u') : Outlasts on t' u' := by
  obtain ⟨v, follows, rest⟩ := outlasts.follows first
  rwa [second.unique follows]

theorem ends {possible : Exchange σ → Prop} (outlasts : Outlasts on t u)
    (goes : ∀ v, on v → v.Ends possible) : u.Ends possible := by
  induction outlasts with
  | done | fail | crash => trivial
  | further onward => exact goes _ onward
  | ask _ _ ih => exact fun answer _ => ih answer

theorem eq_done {a : α} (outlasts : Outlasts on t (.done a)) (none : ¬ on (.done a)) :
    t = .done a := by
  cases outlasts with
  | done => rfl
  | further onward => exact absurd onward none

end Outlasts

end Task

/-! ## Told to stop -/

/-- Once a stop is requested no poll denies it. -/
def Told (x : Task.Exchange Action.signature) : Prop := x ≠ ⟨.stopRequested, false⟩

namespace Machine

theorem answer_stop {m m' : Machine} {action : Action} {answer : action.Answer}
    (answers : m.answer action = some (answer, m')) (stop : m.stop = true) :
    m'.stop = true ∧ Told ⟨action, answer⟩ := by
  cases action with
  | host | get | replace | define | requestStop =>
      obtain ⟨-, rfl⟩ := Prod.mk.inj (Option.some.inj answers)
      exact ⟨by first | exact stop | rfl, nofun⟩
  | stopRequested =>
      obtain ⟨rfl, rfl⟩ := Prod.mk.inj (Option.some.inj answers)
      refine ⟨stop, fun polled => ?_⟩
      rw [stop] at polled
      cases polled
  | sleep duration =>
      rw [Machine.answer, if_pos stop] at answers
      obtain ⟨-, rfl⟩ := Prod.mk.inj (Option.some.inj answers)
      exact ⟨stop, nofun⟩

theorem isSome_answer_of_stop {m : Machine} (stop : m.stop = true) (action : Action) :
    (m.answer action).isSome := by
  cases action with
  | sleep duration => simp [answer, stop]
  | host | get | replace | define | requestStop | stopRequested => rfl

theorem run_ne_unfinished {ε α : Type} {t : ActionTask ε α} {m : Machine} (ends : t.Ends Told)
    (stop : m.stop = true) : (m.run t).1 ≠ .unfinished := by
  induction t generalizing m with
  | done | fail | crash => nofun
  | unfinished => exact ends.elim
  | ask action resume ih =>
      obtain ⟨⟨answer, m'⟩, answers⟩ :=
        Option.isSome_iff_exists.1 (isSome_answer_of_stop stop action)
      obtain ⟨stop', told⟩ := answer_stop answers stop
      have next : m.run (.ask action resume) = m'.run (resume answer) :=
        Task.run_answered resume answers
      rw [next]
      exact ih answer (ends answer told) stop'

end Machine

/-! ## Evaluations -/

namespace Evaluation

variable {κ α β : Type} [Vocabulary κ] {horizon further : Nat}

structure Heeding (t : ActionTask EvalError α) : Prop where
  ends : t.Ends Told
  underway : t.ending = .unfinished

theorem Heeding.bind {t : ActionTask EvalError α} {f : α → ActionTask EvalError β}
    (heeding : Heeding t) (next : ∀ a, (f a).Ends Told) : Heeding (t.bind f) := by
  refine ⟨heeding.ends.bind next, ?_⟩
  have underway := heeding.underway
  cases t with
  | done | fail | crash => cases underway
  | unfinished | ask => rfl

abbrev Lasts (t u : EvalTask κ α) : Prop := (actions t).Outlasts (fun _ => True) (actions u)

abbrev LastsHeeding (t u : EvalTask κ α) : Prop := (actions t).Outlasts Heeding (actions u)

namespace Lasts

theorem bind {t u : EvalTask κ α} {f g : α → EvalTask κ β} (first : Lasts t u)
    (next : ∀ a, Lasts (f a) (g a)) : Lasts (t.bind f) (u.bind g) := by
  rw [Lasts, actions_bind, actions_bind]
  exact Task.Outlasts.bind first next fun _ _ => trivial

theorem congruence : Congruence (κ := κ) fun _ => Lasts := .of_refl (fun _ => .refl _) bind

theorem loop {c c' : EvalTask κ Bool} {b b' : EvalTask κ Unit} (less : horizon < further)
    (condition : Lasts c c') (body : Lasts b b') :
    Lasts (EvalTask.loop c b horizon) (EvalTask.loop c' b' further) := by
  induction horizon generalizing further with
  | zero => exact .further trivial
  | succ horizon ih =>
      obtain ⟨further, rfl⟩ := Nat.exists_eq_add_one_of_ne_zero (Nat.ne_zero_of_lt less)
      exact congruence.round condition body (ih (Nat.lt_of_succ_lt_succ less))

end Lasts

namespace LastsHeeding

theorem ends {t u : EvalTask κ α} (heeds : LastsHeeding t u) : (actions u).Ends Told :=
  Task.Outlasts.ends heeds fun _ heeding => heeding.ends

theorem congruence : Congruence (κ := κ) fun _ => LastsHeeding where
  done a := .done a
  fail e := .fail e
  poll := .ask _ fun stop => .done stop
  lookup name := .ask _ fun value => .done value
  bind {_ _ t u f g} first next := by
    rw [LastsHeeding, actions_bind, actions_bind]
    exact Task.Outlasts.bind first next fun v heeding => heeding.bind fun a => ends (next a)

theorem loop {c c' : EvalTask κ Bool} {b b' : EvalTask κ Unit} (less : horizon < further)
    (condition : LastsHeeding c c') (body : LastsHeeding b b') :
    LastsHeeding (EvalTask.loop c b horizon) (EvalTask.loop c' b' further) := by
  induction horizon generalizing further with
  | zero =>
      obtain ⟨further, rfl⟩ := Nat.exists_eq_add_one_of_ne_zero (Nat.ne_zero_of_lt less)
      refine .further ⟨fun stop told => ?_, rfl⟩
      cases stop with
      | true => trivial
      | false => exact absurd rfl told
  | succ horizon ih =>
      obtain ⟨further, rfl⟩ := Nat.exists_eq_add_one_of_ne_zero (Nat.ne_zero_of_lt less)
      exact congruence.round condition body (ih (Nat.lt_of_succ_lt_succ less))

end LastsHeeding

end Evaluation

namespace Node

open Evaluation

variable {κ : Type} [Vocabulary κ] {horizon further : Nat}

/-- What the block invokes comes to its end, whatever its arguments and the answers it gets. -/
def InvokesEnding (n : Node κ) : Prop :=
  ∀ args, (perform (.invoke n.kind args)).Ends fun _ => True

theorem lasts_execute (less : horizon < further) (roots : List (Node κ)) :
    Lasts (execute horizon roots) (execute further roots) :=
  Lasts.congruence.execute <| Lasts.congruence.list fun n _ =>
    Lasts.congruence.evaluate (Lasts.loop less) (every_of_forall (fun _ _ => .refl _) n)

theorem lastsHeeding_execute (less : horizon < further) {roots : List (Node κ)}
    (ending : ∀ n ∈ roots, n.Every InvokesEnding) :
    LastsHeeding (execute horizon roots) (execute further roots) := by
  refine LastsHeeding.congruence.execute (LastsHeeding.congruence.list fun n mem => ?_)
  have invoked (m : Node κ) (every : m.Every InvokesEnding) (args : Arguments) :
      LastsHeeding (EvalTask.invoke m.kind args) (EvalTask.invoke m.kind args) :=
    .of_ends (((every_iff.1 every).1 args).bind fun _ => trivial)
  exact LastsHeeding.congruence.evaluate (LastsHeeding.loop less) ((ending n mem).sub invoked)

end Node

end BlockScript
