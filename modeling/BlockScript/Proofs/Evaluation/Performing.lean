import BlockScript.Proofs.Evaluation.Rules

/-!
# Contracts of behaviors

A behavior keeps a contract on its arguments when the task that it starts does.  `perform_obeys`
says what the three requests of evaluation need from the actions they stand for, and
`actions_obeys` carries a contract of evaluation over to the actions of a run.
-/

namespace BlockScript

def Contract.within {σ : Signature} {ε δ : Type} (c : Contract σ δ) (wrap : ε → δ) :
    Contract σ ε where
  asks := c.asks
  answers := c.answers
  fails e := c.fails (wrap e)

def Contract.host {ε : Type} (c : Contract Action.signature ε) : Contract Host.signature ε where
  asks request := c.asks (Action.host request)
  answers request answer := c.answers (Action.host request) answer
  fails := c.fails

theorem Task.obeys_mapError {σ : Signature} {ε δ α : Type} (wrap : ε → δ) (t : Task σ ε α)
    (c : Contract σ δ) {post : α → Prop} :
    (t.mapError wrap).Obeys c post ↔ t.Obeys (c.within wrap) post := by
  induction t with
  | ask request resume ih => simp [mapError, ih, Contract.within]
  | _ => rfl

namespace ActionTask

variable {ε α : Type} {c : Contract Action.signature ε}

theorem obeys_ofHost (t : HostTask ε α) {post : α → Prop} :
    (ofHost t).Obeys c post ↔ t.Obeys c.host post := by
  induction t with
  | ask request resume ih => exact and_congr_right fun _ => forall₂_congr fun a _ => ih a
  | _ => rfl

@[simp] theorem obeys_get {name : String} {post : Option Value → Prop} :
    (get name : ActionTask ε (Option Value)).Obeys c post ↔ c.asks (Action.get name) ∧
      ∀ value : Option Value, c.answers (Action.get name) value → post value := Iff.rfl

@[simp] theorem obeys_replace {name : String} {value : Value} {post : Bool → Prop} :
    (replace name value : ActionTask ε Bool).Obeys c post ↔ c.asks (Action.replace name value) ∧
      ∀ known : Bool, c.answers (Action.replace name value) known → post known := Iff.rfl

end ActionTask

def Behavior.Obeys (c : Contract Action.signature BehaviorError) (args : Arguments) :
    Behavior → Prop
  | statement run => (run args).Obeys c fun _ => True
  | expression compute => (compute args).Obeys c.host fun _ => True

theorem Behavior.Obeys.mono {c c' : Contract Action.signature BehaviorError} {args : Arguments}
    {behavior : Behavior} (h : behavior.Obeys c args)
    (asks : ∀ action, c.asks action → c'.asks action)
    (answers : ∀ action answer, c'.answers action answer → c.answers action answer)
    (fails : ∀ e, c.fails e → c'.fails e) : behavior.Obeys c' args := by
  cases behavior with
  | statement run => exact Task.Obeys.mono h asks answers fails fun _ => id
  | expression compute =>
      exact Task.Obeys.mono h (fun request => asks (.host request))
        (fun request => answers (.host request)) fails fun _ => id

theorem Behavior.obeys_of_permissive {c : Contract Action.signature BehaviorError}
    {args : Arguments} {behavior : Behavior} (asks : ∀ action, c.asks action)
    (fails : ∀ e, c.fails e) : behavior.Obeys c args := by
  cases behavior with
  | statement run => exact Task.obeys_of_permissive asks fails (fun _ => trivial) _
  | expression compute =>
      change (compute args).Obeys c.host fun _ => True
      apply Task.obeys_of_permissive
      · exact fun request => asks (.host request)
      · exact fails
      · exact fun _ => trivial

variable {κ : Type} [Vocabulary κ] {d : Contract Action.signature EvalError}

namespace Evaluation

theorem perform_invoke_obeys {k : κ} {args : Arguments} {behavior : Behavior}
    (found : (describe k).behavior? = some behavior)
    (obeys : behavior.Obeys (d.within (.behavior (describe k).summary)) args) :
    (perform (.invoke k args)).Obeys d fun _ => True := by
  simp only [perform, found]
  cases behavior with
  | statement run =>
      have wrapped : ((run args).mapError (EvalError.behavior (describe k).summary)).Obeys d
          fun _ => True := (Task.obeys_mapError ..).2 obeys
      exact (Task.obeys_bind ..).2 (wrapped.imp fun _ _ => trivial)
  | expression compute =>
      have wrapped : ((compute args).mapError (EvalError.behavior (describe k).summary)).Obeys
          d.host fun _ => True := (Task.obeys_mapError ..).2 obeys
      have acting := (ActionTask.obeys_ofHost _).2 wrapped
      exact (Task.obeys_bind ..).2 (acting.imp fun _ _ => trivial)

/-- A contract of actions that meets a contract of evaluation: the actions of a lookup and a poll
are allowed and answered as promised, and behaviors keep the contract where they are invoked. -/
structure Meets (c : Contract (signature κ) EvalError) (d : Contract Action.signature EvalError) :
    Prop where
  fails : ∀ e, c.fails e → d.fails e
  get : ∀ {name}, c.asks (Request.lookup name) → d.asks (Action.get name)
  got : ∀ {name} {value : Option Value}, c.asks (Request.lookup name) →
    d.answers (Action.get name) value → c.answers (Request.lookup name) value
  poll : d.asks Action.stopRequested
  polled : ∀ {stop : Bool}, c.answers Request.poll stop
  behaves : ∀ {k args behavior}, c.asks (Request.invoke k args) →
    (describe k).behavior? = some behavior →
      behavior.Obeys (d.within (.behavior (describe k).summary)) args
  lacking : ∀ {k args}, c.asks (Request.invoke k args) → (describe k).behavior? = none →
    d.fails (.missingBehavior (describe k).summary)
  output : ∀ {k args} {value : Option Value}, c.answers (Request.invoke k args) value

theorem perform_obeys {c : Contract (signature κ) EvalError} (meets : Meets c d)
    (request : Request κ) (asks : c.asks request) :
    (perform request).Obeys d (c.answers request) := by
  cases request with
  | lookup name => exact ⟨meets.get asks, fun value answered => meets.got asks answered⟩
  | poll => exact ⟨meets.poll, fun _ _ => meets.polled⟩
  | invoke k args =>
      cases found : (describe k).behavior? with
      | some behavior =>
          exact (perform_invoke_obeys found (meets.behaves asks found)).imp fun _ _ => meets.output
      | none =>
          simp only [perform, found]
          exact meets.lacking asks found

theorem actions_obeys {α : Type} {c : Contract (signature κ) EvalError} (meets : Meets c d)
    {task : EvalTask κ α} {post : α → Prop} (obeys : task.Obeys c post) :
    (actions task).Obeys d post :=
  obeys.interpret meets.fails (perform_obeys meets)

end Evaluation

end BlockScript
