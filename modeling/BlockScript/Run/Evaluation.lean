import BlockScript.Node.Basic

/-!
Evaluation of programs.

`Node.evaluate` turns a node into a task that asks three things: the value of a variable, whether a
stop is requested, and the invocation of a block on its arguments.  Loops go round at most
`horizon` times before the task is left unfinished.  `Evaluation.perform` says what the three
requests mean in terms of actions.
-/

namespace BlockScript

inductive EvalError where
  | undefinedVariable (name : String)
  | value (error : ValueError)
  | behavior (summary : String) (error : BehaviorError)
  | missingBehavior (summary : String)
  | died
deriving DecidableEq, Repr

def EvalError.message : EvalError → String
  | undefinedVariable name => "undefined variable: " ++ name
  | value error => error.message
  | behavior summary error => "block '" ++ summary ++ "' failed: " ++ error.message
  | missingBehavior summary => "block '" ++ summary ++ "' has no behavior"
  | died => "program worker panicked"

inductive Outcome where
  | completed
  | stopped
deriving DecidableEq, Repr

namespace Evaluation

inductive Request (κ : Type) where
  | lookup (name : String)
  | poll
  | invoke (kind : κ) (args : Arguments)

def Request.Answer {κ : Type} : Request κ → Type
  | lookup _ => Option Value
  | poll => Bool
  | invoke _ _ => Option Value

def signature (κ : Type) : Signature := ⟨Request κ, Request.Answer⟩

end Evaluation

abbrev EvalTask (κ α : Type) := Task (Evaluation.signature κ) EvalError α

namespace EvalTask

variable {κ : Type}

def lookup (name : String) : EvalTask κ (Option Value) :=
  Task.ask (Evaluation.Request.lookup name) Task.done

def poll : EvalTask κ Bool := Task.ask Evaluation.Request.poll Task.done

def invoke (k : κ) (args : Arguments) : EvalTask κ (Option Value) :=
  Task.ask (Evaluation.Request.invoke k args) Task.done

/-- Goes round while no stop is requested and the condition holds. -/
def loop (condition : EvalTask κ Bool) (body : EvalTask κ Unit) : Nat → EvalTask κ Unit
  | 0 => .unfinished
  | horizon + 1 => do
    if ← poll then return ()
    else if ← condition then
      body
      loop condition body horizon
    else return ()

def flow (horizon : Nat) (condition : EvalTask κ Bool) (bodies : List (EvalTask κ Unit)) :
    Flow → EvalTask κ Unit
  | .ifThen => do if ← condition then bodies.getD 0 (.done ()) else return ()
  | .ifElse => do
    if ← condition then bodies.getD 0 (.done ()) else bodies.getD 1 (.done ())
  | .whileLoop => loop condition (bodies.getD 0 (.done ())) horizon

end EvalTask

def conditionHolds (values : List Value) : Bool := (values.head?.bind Value.asBoolean?).getD false

namespace Node

variable {κ : Type} [Vocabulary κ]

mutual

/-- Evaluates a node. Expressions and references give a value, a preview what the input that it
covers gives, and all else nothing. -/
def evaluate (horizon : Nat) : Node κ → EvalTask κ (Option Value)
  | block k inputs => do EvalTask.invoke k (← evaluateInputs horizon (describe k).slots inputs)
  | control k inputs bodies =>
    match (describe k).category with
    | .control flow => do
      let condition := conditionHolds <$> evaluateInputs horizon (describe k).slots inputs
      EvalTask.flow horizon condition (evaluateBodies horizon bodies) flow
      return none
    | _ => return none
  | reference _ name => do
    match ← EvalTask.lookup name with
    | some value => return some value
    | none => .fail (.undefinedVariable name)
  | declaration _ => return none
  | shadow _ _ covered => evaluateCovered horizon covered

def evaluateInput (horizon : Nat) (slot : SlotKind) : Input κ → EvalTask κ Value
  | .literal value => return value.convert slot
  | .node n => do
    match Value.convertOutput slot (← evaluate horizon n) with
    | .ok value => return value
    | .error e => .fail (.value e)

def evaluateInputs (horizon : Nat) (slots : List SlotKind) :
    List (Input κ) → EvalTask κ (List Value)
  | [] => return []
  | input :: rest =>
    match slots with
    | [] => return []
    | slot :: slots => do
      let value ← evaluateInput horizon slot input
      let values ← evaluateInputs horizon slots rest
      return value :: values

/-- Evaluates the nodes of a list in turn, as long as no stop is requested. -/
def evaluateList (horizon : Nat) : List (Node κ) → EvalTask κ Unit
  | [] => return ()
  | n :: rest => do
    if ← EvalTask.poll then return ()
    else
      let _ ← evaluate horizon n
      evaluateList horizon rest

def evaluateBodies (horizon : Nat) : List (List (Node κ)) → List (EvalTask κ Unit)
  | [] => []
  | body :: rest => evaluateList horizon body :: evaluateBodies horizon rest

def evaluateCovered (horizon : Nat) : Option (Input κ) → EvalTask κ (Option Value)
  | none => return none
  | some (.literal value) => return some value
  | some (.node n) => evaluate horizon n

end

def execute (horizon : Nat) (roots : List (Node κ)) : EvalTask κ Outcome := do
  evaluateList horizon roots
  if ← EvalTask.poll then return .stopped else return .completed

end Node

namespace Evaluation

variable {κ α : Type} [Vocabulary κ]

def perform (request : Request κ) : ActionTask EvalError request.Answer :=
  match request with
  | .lookup name => ActionTask.get name
  | .poll => ActionTask.stopRequested
  | .invoke k args =>
    match (describe k).behavior? with
    | some (.statement run) => do
      (run args).mapError (.behavior (describe k).summary)
      return none
    | some (.expression compute) => do
      let value ← ActionTask.ofHost ((compute args).mapError (.behavior (describe k).summary))
      return some value
    | none => .fail (.missingBehavior (describe k).summary)

def actions (task : EvalTask κ α) : ActionTask EvalError α := task.interpret perform

end Evaluation

end BlockScript
