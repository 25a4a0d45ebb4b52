import BlockScript.Proofs.Evaluation.Horizons
import BlockScript.Proofs.Evaluation.Invocations

/-!
# Lists in sequence

Evaluating two lists as one comes to evaluating the first and then the second, unless the first one
fails or leaves a stop requested (`sequenced_list`, `sequenced_execute`).  The two courses of events
agree in every invocation and not only in how they end, so that nothing of the second list is
invoked where it is skipped.  `sameCourse_control` puts this into the statement lists of control
blocks, and `ends_append` and `endless_append` say it of whole programs, whatever the horizon.
-/

namespace BlockScript

variable {S κ α β : Type} [Vocabulary κ]
  {answer : (action : Action) → S → Option (action.Answer × S)} {stop : S → Bool}

namespace Ending

variable {ε γ : Type}

theorem andThen_andThen (f : α → S → Ending ε β × S) (g : β → S → Ending ε γ × S)
    (result : Ending ε α × S) :
    andThen g (andThen f result) = andThen (fun a s => andThen g (f a s)) result := by
  rcases result with ⟨ending, s⟩
  cases ending <;> rfl

theorem thenLog_andThen (f : α → S → Ending ε β × S) (log : β → S → List γ)
    (result : Ending ε α × S) :
    thenLog log (andThen f result) = thenLog (fun a s => thenLog log (f a s)) result := by
  rcases result with ⟨ending, s⟩
  cases ending <;> rfl

theorem thenLog_append (log log' : α → S → List β) (result : Ending ε α × S) :
    thenLog (fun a s => log a s ++ log' a s) result = thenLog log result ++ thenLog log' result := by
  rcases result with ⟨ending, s⟩
  cases ending <;> rfl

end Ending

namespace Evaluation

/-- From a state, an evaluation does what a first one does and then, only if that came to a result
and no stop is requested, what a second one does from there; otherwise it ends as the first one did,
with a result of its own under a stop. -/
structure Sequenced (answer : (action : Action) → S → Option (action.Answer × S)) (stop : S → Bool)
    (whole first second : EvalTask κ α) (stopped : α) (s : S) : Prop where
  run : Task.run answer (actions whole) s =
    Ending.andThen
      (fun _ s' => if stop s' then (.done stopped, s') else Task.run answer (actions second) s')
      (Task.run answer (actions first) s)
  log : invocations answer whole s = invocations answer first s ++
    Ending.thenLog (fun _ s' => if stop s' then [] else invocations answer second s')
      (Task.run answer (actions first) s)

def inTurn (first second : EvalTask κ Unit) : EvalTask κ Unit := do
  first
  if ← EvalTask.poll then return () else second

theorem sequenced_inTurn (alone : Alone answer stop) (first second : EvalTask κ Unit) (s : S) :
    Sequenced answer stop (inTurn first second) first second () s where
  run := by
    refine (run_bind first _ s).trans ?_
    congr 1
    funext _ s'
    refine (run_poll (alone.polled s') _).trans ?_
    cases stop s' <;> rfl
  log := by
    refine (invocations_bind first _ s).trans ?_
    congr 2
    funext _ s'
    refine (invocations_poll alone _ s').trans ?_
    cases stop s' <;> rfl

/-! ## The same course of events -/

structure SameCourse (answer : (action : Action) → S → Option (action.Answer × S))
    (t u : EvalTask κ α) : Prop where
  run : ∀ s, Task.run answer (actions t) s = Task.run answer (actions u) s
  log : ∀ s, invocations answer t s = invocations answer u s

namespace SameCourse

theorem refl (t : EvalTask κ α) : SameCourse answer t t := ⟨fun _ => rfl, fun _ => rfl⟩

theorem bind {t u : EvalTask κ α} {f g : α → EvalTask κ β} (first : SameCourse answer t u)
    (next : ∀ a, SameCourse answer (f a) (g a)) : SameCourse answer (t.bind f) (u.bind g) := by
  constructor
  · exact Alike.bind first.run fun a => (next a).run
  · intro s
    have later : (fun a s => invocations answer (f a) s) = fun a s => invocations answer (g a) s :=
      funext fun a => funext (next a).log
    rw [invocations_bind, invocations_bind, first.log, first.run, later]

theorem congruence : Congruence (κ := κ) fun _ => SameCourse answer := .of_refl refl bind

theorem loop {c c' : EvalTask κ Bool} {b b' : EvalTask κ Unit} {horizon : Nat}
    (condition : SameCourse answer c c') (body : SameCourse answer b b') :
    SameCourse answer (EvalTask.loop c b horizon) (EvalTask.loop c' b' horizon) := by
  induction horizon with
  | zero => exact .refl _
  | succ horizon ih => exact congruence.round condition body ih

end SameCourse

theorem sameCourse_of_sequenced {t u first second : EvalTask κ α} {stopped : α}
    (left : ∀ s, Sequenced answer stop t first second stopped s)
    (right : ∀ s, Sequenced answer stop u first second stopped s) : SameCourse answer t u where
  run s := (left s).run.trans (right s).run.symm
  log s := (left s).log.trans (right s).log.symm

end Evaluation

namespace Node

open Evaluation

variable {horizon : Nat} {roots rest : List (Node κ)} {s : S}

/-! ## Lists -/

theorem invocations_evaluateList_append (alone : Alone answer stop) (nodes rest : List (Node κ))
    (s : S) :
    invocations answer (evaluateList horizon (nodes ++ rest)) s =
      invocations answer (evaluateList horizon nodes) s ++
        Ending.thenLog (fun _ s' => invocations answer (evaluateList horizon rest) s')
          (Task.run answer (actions (evaluateList horizon nodes)) s) := by
  induction nodes generalizing s with
  | nil => rfl
  | cons n later ih =>
      cases requested : stop s with
      | true =>
          have silent (list : List (Node κ)) :
              invocations answer (evaluateList horizon list) s = [] :=
            (idle_list alone list).silent requested
          rw [silent, silent, run_evaluateList_stopped (requested ▸ alone.polled s)]
          exact (silent rest).symm
      | false =>
          rw [List.cons_append, invocations_evaluateList_cons alone n _ requested,
            invocations_evaluateList_cons alone n _ requested,
            run_evaluateList_cons alone n _ requested, Ending.thenLog_andThen, List.append_assoc,
            ← Ending.thenLog_append]
          simp only [ih]

theorem sequenced_list (alone : Alone answer stop) (nodes rest : List (Node κ)) (s : S) :
    Sequenced answer stop (evaluateList horizon (nodes ++ rest)) (evaluateList horizon nodes)
      (evaluateList horizon rest) () s where
  run := by
    have polls : PollsOnlyLook answer := fun s => ⟨stop s, alone.polled s⟩
    rw [alike_append polls nodes rest s, run_bind]
    congr 1
    funext _ s'
    cases requested : stop s' with
    | true => exact run_evaluateList_stopped (requested ▸ alone.polled s') rest
    | false => rfl
  log := by
    rw [invocations_evaluateList_append alone]
    congr 2
    funext _ s'
    cases requested : stop s' with
    | true => exact (idle_list alone rest).silent requested
    | false => rfl

theorem evaluateBodies_append (bodies rest : List (List (Node κ))) :
    evaluateBodies horizon (bodies ++ rest) =
      evaluateBodies horizon bodies ++ evaluateBodies horizon rest := by
  induction bodies with
  | nil => rfl
  | cons body later ih => exact congrArg (evaluateList horizon body :: ·) ih

theorem sameCourse_control (alone : Alone answer stop) {k : κ} {flow : Flow}
    (described : (describe k).category = .control flow) (inputs : List (Input κ))
    (before after : List (List (Node κ))) (nodes rest : List (Node κ)) :
    SameCourse answer
      (evaluate horizon (.control k inputs (before ++ (nodes ++ rest) :: after)))
      ((EvalTask.flow horizon (conditionHolds <$> evaluateInputs horizon (describe k).slots inputs)
        (evaluateBodies horizon before ++
          inTurn (evaluateList horizon nodes) (evaluateList horizon rest) ::
            evaluateBodies horizon after) flow).bind fun _ => .done none) := by
  have same (tasks : List (EvalTask κ Unit)) : List.Forall₂ (SameCourse answer) tasks tasks :=
    List.forall₂_same.2 fun t _ => .refl t
  have parts : SameCourse answer (evaluateList horizon (nodes ++ rest))
      (inTurn (evaluateList horizon nodes) (evaluateList horizon rest)) :=
    sameCourse_of_sequenced (sequenced_list alone nodes rest) (sequenced_inTurn alone _ _)
  have bodies := List.rel_append (same (evaluateBodies horizon before))
    (.cons parts (same (evaluateBodies horizon after)))
  rw [evaluate, described]
  simp only [evaluateBodies_append, evaluateBodies]
  exact SameCourse.bind
    (SameCourse.congruence.flow (SameCourse.loop (.refl _)) (.refl _) bodies flow)
    fun _ => .refl _

/-! ## Programs -/

theorem sequenced_execute (alone : Alone answer stop) (roots rest : List (Node κ)) (s : S) :
    Sequenced answer stop (execute horizon (roots ++ rest)) (execute horizon roots)
      (execute horizon rest) .stopped s where
  run := by
    rw [run_execute alone, run_execute alone, (sequenced_list alone roots rest s).run,
      Ending.andThen_andThen, Ending.andThen_andThen]
    congr 1
    funext _ s'
    cases requested : stop s' with
    | true => simp [Ending.andThen, requested]
    | false =>
        simp only [Ending.andThen, requested, Bool.false_eq_true, if_false]
        exact (run_execute alone rest s').symm
  log := by
    rw [invocations_execute alone, invocations_execute alone, (sequenced_list alone roots rest s).log,
      run_execute alone, Ending.thenLog_andThen]
    simp only [invocations_execute alone]
    rfl

def Ends (answer : (action : Action) → S → Option (action.Answer × S)) (roots : List (Node κ))
    (s : S) (result : Ending EvalError Outcome × S) : Prop :=
  result.1 ≠ .unfinished ∧ ∃ horizon, Task.run answer (actions (execute horizon roots)) s = result

theorem ends_unique {result result' : Ending EvalError Outcome × S}
    (first : Ends answer roots s result) (second : Ends answer roots s result') :
    result = result' := by
  obtain ⟨ended, horizon, rfl⟩ := first
  obtain ⟨ended', further, rfl⟩ := second
  have le := run_execute_of_le (Nat.le_max_left horizon further) roots s ended
  have le' := run_execute_of_le (Nat.le_max_right horizon further) roots s ended'
  exact le.symm.trans le'

theorem run_execute_append (alone : Alone answer stop) (horizon : Nat) (roots rest : List (Node κ))
    (s : S) : Task.run answer (actions (execute horizon (roots ++ rest))) s =
      let first := Task.run answer (actions (execute horizon roots)) s
      if first.1 = .done .completed then Task.run answer (actions (execute horizon rest)) first.2
      else first := by
  rw [(sequenced_execute alone roots rest s).run, run_execute alone roots]
  rcases ran : Task.run answer (actions (evaluateList horizon roots)) s with ⟨ending, s'⟩
  rw [ran]
  cases ending with
  | done => cases requested : stop s' <;> simp [Ending.andThen, requested]
  | failed | crashed | unfinished => simp [Ending.andThen]

/-- A program goes on with its second part exactly when the first part completes; otherwise it ends
with what the first part came to. -/
theorem ends_append (alone : Alone answer stop) {result : Ending EvalError Outcome × S} :
    Ends answer (roots ++ rest) s result ↔ ∃ first, Ends answer roots s first ∧
      if first.1 = .done .completed then Ends answer rest first.2 result else result = first := by
  constructor
  · rintro ⟨ended, horizon, rfl⟩
    rw [run_execute_append alone] at ended ⊢
    refine ⟨_, ⟨?_, horizon, rfl⟩, ?_⟩
    · intro unfinished
      simp [unfinished] at ended
    · split
      · next completed =>
        rw [if_pos completed] at ended ⊢
        exact ⟨ended, horizon, rfl⟩
      · next other => rw [if_neg other]
  · rintro ⟨first, ⟨ended, horizon, rfl⟩, later⟩
    split at later
    · next completed =>
      obtain ⟨ended', further, rfl⟩ := later
      have first := run_execute_of_le (Nat.le_max_left horizon further) roots s ended
      have second := run_execute_of_le (Nat.le_max_right horizon further) rest _ ended'
      refine ⟨ended', max horizon further, ?_⟩
      rw [run_execute_append alone, first, if_pos completed]
      exact second
    · next other =>
      refine later ▸ ⟨ended, horizon, ?_⟩
      rw [run_execute_append alone, if_neg other]

theorem endless_iff : Endless answer roots s ↔ ¬ ∃ result, Ends answer roots s result := by
  constructor
  · rintro endless ⟨result, ended, horizon, rfl⟩
    exact ended (endless horizon)
  · intro none horizon
    by_contra ended
    exact none ⟨_, ended, horizon, rfl⟩

theorem endless_append (alone : Alone answer stop) :
    Endless answer (roots ++ rest) s ↔ Endless answer roots s ∨
      ∃ s', Ends answer roots s (.done .completed, s') ∧ Endless answer rest s' := by
  simp only [endless_iff, ends_append alone]
  constructor
  · intro none
    by_cases first : ∃ result, Ends answer roots s result
    · obtain ⟨⟨ending, s'⟩, ends⟩ := first
      by_cases completed : ending = .done .completed
      · subst completed
        exact .inr ⟨s', ends, fun ⟨result, later⟩ => none ⟨result, _, ends, by simpa using later⟩⟩
      · exact absurd ⟨_, _, ends, by rw [if_neg completed]⟩ none
    · exact .inl first
  · rintro (none | ⟨s', ends, none⟩) ⟨result, first, ends', later⟩
    · exact none ⟨first, ends'⟩
    · obtain rfl := ends_unique ends ends'
      exact none ⟨result, by simpa using later⟩

/-- Running two lists as one comes to running the first and then, only if it ended without an error
and no stop is requested, the second from where the first one ended. -/
structure InSequence (answer : (action : Action) → S → Option (action.Answer × S)) (stop : S → Bool)
    (roots rest : List (Node κ)) (s : S) : Prop where
  course : ∀ horizon, Sequenced answer stop (execute horizon (roots ++ rest))
    (execute horizon roots) (execute horizon rest) .stopped s
  ends : ∀ result, Ends answer (roots ++ rest) s result ↔ ∃ first, Ends answer roots s first ∧
    if first.1 = .done .completed then Ends answer rest first.2 result else result = first
  endless : Endless answer (roots ++ rest) s ↔ Endless answer roots s ∨
    ∃ s', Ends answer roots s (.done .completed, s') ∧ Endless answer rest s'

theorem inSequence (alone : Alone answer stop) (roots rest : List (Node κ)) (s : S) :
    InSequence answer stop roots rest s where
  course _ := sequenced_execute alone roots rest s
  ends _ := ends_append alone
  endless := endless_append alone

end Node

end BlockScript
