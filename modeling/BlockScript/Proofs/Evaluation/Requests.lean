import BlockScript.Proofs.Evaluation.Contract
import BlockScript.Run.Evaluation

/-!
# What an action is performed for

An evaluation asks for lookups, polls and invocations of blocks, and each of them is performed by
actions of its own, one request after the other.  `Performs` names the request that an action
belongs to.  Every action belongs to one (`exists_performs`), and the actions that precede it for the
same request are the last ones before it (`Performs.follows`).
-/

namespace BlockScript.Evaluation

variable {κ α : Type} [Vocabulary κ]

inductive Performs : EvalTask κ α → List (Task.Exchange Action.signature) → Request κ →
    Action → Prop where
  | now {request : Request κ} {resume : request.Answer → EvalTask κ α}
      {past : List (Task.Exchange Action.signature)} {action : Action}
      {next : action.Answer → ActionTask EvalError request.Answer}
      (follows : (perform request).Follows past (.ask action next)) :
      Performs (.ask request resume) past request action
  | later {first request : Request κ} {resume : first.Answer → EvalTask κ α}
      {past log : List (Task.Exchange Action.signature)} {answer : first.Answer} {action : Action}
      (ends : (perform first).Follows past (.done answer))
      (rest : Performs (resume answer) log request action) :
      Performs (.ask first resume) (past ++ log) request action

theorem exists_performs {t : EvalTask κ α} {log : List (Task.Exchange Action.signature)}
    {action : Action} {next : action.Answer → ActionTask EvalError α}
    (follows : (actions t).Follows log (.ask action next)) :
    ∃ request, Performs t log request action := by
  induction t generalizing log with
  | ask request resume ih =>
      have later {first second : List (Task.Exchange Action.signature)} {answer : request.Answer}
          (ends : (perform request).Follows first (.done answer))
          (after : (actions (resume answer)).Follows second (.ask action next)) :
          ∃ request', Performs (.ask request resume) (first ++ second) request' action := by
        obtain ⟨request', performs⟩ := ih answer after
        exact ⟨request', .later ends performs⟩
      rcases follows.of_bind with ⟨rest, inside, eq⟩ | ⟨answer, first, second, rfl, ends, after⟩
      · cases rest with
        | ask action' next' =>
            cases eq
            exact ⟨request, .now inside⟩
        | done answer =>
            rw [← List.append_nil log]
            exact later inside (eq ▸ .nil _)
        | _ => cases eq
      · exact later ends after
  | _ => cases follows

theorem Performs.follows {t : EvalTask κ α} {log : List (Task.Exchange Action.signature)}
    {request : Request κ} {action : Action} (performs : Performs t log request action) :
    ∃ before past next, log = before ++ past ∧
      (perform request).Follows past (.ask action next) := by
  induction performs with
  | now follows => exact ⟨[], _, _, rfl, follows⟩
  | later ends rest ih =>
      obtain ⟨before, past, next, rfl, follows⟩ := ih
      exact ⟨_ ++ before, past, next, (List.append_assoc ..).symm, follows⟩

end BlockScript.Evaluation
