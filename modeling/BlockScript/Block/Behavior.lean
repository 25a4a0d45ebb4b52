import BlockScript.Host
import BlockScript.Number.Rounding
import BlockScript.Store
import BlockScript.Value.Order

/-!
What a block does.

A statement may use the variables, the stop signal and the surroundings; an expression only the
surroundings.  `Action.signature` lists what a statement can ask; every request is one atomic
operation.
-/

namespace BlockScript

structure Duration where
  nanoseconds : Nat
deriving DecidableEq, Repr

namespace Duration

/-- From here on no clock can represent the end of a wait. -/
def endlessFrom : Nat := Nat.pow 2 63 * 1000000000

def isEndless (d : Duration) : Bool := endlessFrom ≤ d.nanoseconds

/-- Not-a-number and negative numbers wait for no time, infinity forever. -/
def ofSeconds (x : Binary64) : Duration :=
  if x.isNaN || x.negative then ⟨0⟩
  else if x.isFinite then
    let (num, den) := scaledBy x.exponent (x.significand * 1000000000) 1
    ⟨roundDiv num den⟩
  else ⟨endlessFrom⟩

def hours (n : Nat) : Duration := ⟨n * 3600 * 1000000000⟩

end Duration

inductive Failure where
  | indexOutOfRange (index : Int64) (length : Nat)
  | noListVariable (name : String)
  | unsortable (cause : Value.SortError)
  | other (message : String)
deriving DecidableEq, Repr

def Failure.message : Failure → String
  | indexOutOfRange index length =>
    "index " ++ toString index.toInt ++ " out of range for length " ++ toString length
  | noListVariable name => "no list variable named '" ++ name ++ "'"
  | unsortable cause => cause.message
  | other message => message

inductive BehaviorError where
  | argumentKind (index : Nat) (expected found : ValueKind)
  | missingArgument (index : Nat)
  | failed (failure : Failure)
deriving DecidableEq, Repr

def BehaviorError.message : BehaviorError → String
  | argumentKind index expected found =>
    "argument " ++ toString index ++ ": expected " ++ expected.name ++ ", got " ++ found.name
  | missingArgument index => "missing argument " ++ toString index
  | failed failure => failure.message

inductive Action where
  | host (request : Host.Request)
  | get (name : String)
  | replace (name : String) (value : Value)
  | define (name : String) (value : Value)
  | requestStop
  | stopRequested
  | sleep (duration : Duration)

namespace Action

/-- `replace` tells whether the variable exists, and `sleep` whether the whole time has passed. -/
def Answer : Action → Type
  | host request => request.Answer
  | get _ => Option Value
  | replace _ _ | stopRequested | sleep _ => Bool
  | define _ _ | requestStop => Unit

def signature : Signature := ⟨Action, Answer⟩

end Action

abbrev ActionTask (ε α : Type) := Task Action.signature ε α

namespace ActionTask

variable {ε α : Type}

def get (name : String) : ActionTask ε (Option Value) :=
  Task.ask (Action.get name) Task.done

def replace (name : String) (value : Value) : ActionTask ε Bool :=
  Task.ask (Action.replace name value) Task.done

def define (name : String) (value : Value) : ActionTask ε Unit :=
  Task.ask (Action.define name value) Task.done

def requestStop : ActionTask ε Unit := Task.ask Action.requestStop Task.done

def stopRequested : ActionTask ε Bool := Task.ask Action.stopRequested Task.done

def sleep (duration : Duration) : ActionTask ε Bool := Task.ask (Action.sleep duration) Task.done

def ofHost : HostTask ε α → ActionTask ε α :=
  Task.interpret fun request => Task.ask (Action.host request) Task.done

end ActionTask

abbrev Arguments := List Value

inductive Behavior where
  | statement (run : Arguments → ActionTask BehaviorError Unit)
  | expression (compute : Arguments → HostTask BehaviorError Value)

end BlockScript
