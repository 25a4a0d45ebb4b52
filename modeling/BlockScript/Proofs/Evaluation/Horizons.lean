import BlockScript.Proofs.Evaluation.Alike

/-!
# Horizons

An evaluation is given a horizon, and is left unfinished where a loop goes on beyond it.  A run that
is over at a horizon is over in the same way at every greater one (`run_execute_of_le`), so a run
either has one ending, which it comes to at all horizons from some point on, or is `Endless`.
-/

namespace BlockScript

variable {S κ α β : Type} [Vocabulary κ]
  {answer : (action : Action) → S → Option (action.Answer × S)}

namespace Evaluation

def Prolongs (answer : (action : Action) → S → Option (action.Answer × S)) (t u : EvalTask κ α) :
    Prop :=
  ∀ s, (Task.run answer (actions t) s).1 = .unfinished ∨
    Task.run answer (actions u) s = Task.run answer (actions t) s

namespace Prolongs

theorem refl (t : EvalTask κ α) : Prolongs answer t t := fun _ => .inr rfl

theorem bind {t u : EvalTask κ α} {f g : α → EvalTask κ β} (first : Prolongs answer t u)
    (next : ∀ a, Prolongs answer (f a) (g a)) : Prolongs answer (t.bind f) (u.bind g) := by
  intro s
  rw [run_bind, run_bind]
  have start := first s
  rcases ran : Task.run answer (actions t) s with ⟨ending, s'⟩
  rw [ran] at start ⊢
  rcases start with unfinished | same
  · obtain rfl : ending = .unfinished := unfinished
    exact .inl rfl
  · rw [same]
    cases ending with
    | done a => exact next a s'
    | failed | crashed | unfinished => exact .inr rfl

theorem congruence : Congruence (κ := κ) fun _ => Prolongs answer := .of_refl refl bind

theorem loop {c c' : EvalTask κ Bool} {b b' : EvalTask κ Unit} {horizon further : Nat}
    (le : horizon ≤ further) (condition : Prolongs answer c c') (body : Prolongs answer b b') :
    Prolongs answer (EvalTask.loop c b horizon) (EvalTask.loop c' b' further) := by
  induction horizon generalizing further with
  | zero => exact fun s => .inl rfl
  | succ horizon ih =>
      obtain ⟨further, rfl⟩ : ∃ n, further = n + 1 := ⟨further - 1, by omega⟩
      exact congruence.round condition body (ih (Nat.le_of_succ_le_succ le))

theorem trans {t u v : EvalTask κ α} (first : Prolongs answer t u) (second : Prolongs answer u v) :
    Prolongs answer t v := by
  intro s
  rcases first s with unfinished | same
  · exact .inl unfinished
  · rw [← same]
    exact second s

end Prolongs

theorem Alike.prolongs {t u : EvalTask κ α} (alike : Alike answer t u) : Prolongs answer t u :=
  fun s => .inr (alike s).symm

end Evaluation

namespace Node

open Evaluation

variable {horizon further : Nat}

theorem prolongs_evaluate (le : horizon ≤ further) (n : Node κ) :
    Prolongs answer (evaluate horizon n) (evaluate further n) :=
  Prolongs.congruence.evaluate (Prolongs.loop le) (every_of_forall (fun _ _ => .refl _) n)

theorem prolongs_list_of_le (le : horizon ≤ further) (nodes : List (Node κ)) :
    Prolongs answer (evaluateList horizon nodes) (evaluateList further nodes) :=
  Prolongs.congruence.list fun n _ => prolongs_evaluate le n

theorem run_execute_of_le (le : horizon ≤ further) (roots : List (Node κ)) (s : S)
    (ended : (Task.run answer (actions (execute horizon roots)) s).1 ≠ .unfinished) :
    Task.run answer (actions (execute further roots)) s =
      Task.run answer (actions (execute horizon roots)) s :=
  (Prolongs.congruence.execute (prolongs_list_of_le le roots) s).resolve_left ended

def Endless (answer : (action : Action) → S → Option (action.Answer × S)) (roots : List (Node κ))
    (s : S) : Prop :=
  ∀ horizon, (Task.run answer (actions (execute horizon roots)) s).1 = .unfinished

theorem not_endless_iff {roots : List (Node κ)} {s : S} :
    ¬ Endless answer roots s ↔ ∃ result, result.1 ≠ .unfinished ∧ ∃ horizon,
      ∀ further ≥ horizon, Task.run answer (actions (execute further roots)) s = result := by
  constructor
  · intro ends
    obtain ⟨horizon, ended⟩ := not_forall.1 ends
    exact ⟨_, ended, horizon, fun further le => run_execute_of_le le roots s ended⟩
  · rintro ⟨result, ended, horizon, same⟩ endless
    apply ended
    rw [← same horizon (Nat.le_refl _)]
    exact endless horizon

end Node

end BlockScript
