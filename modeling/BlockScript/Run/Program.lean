import BlockScript.Node.Document
import BlockScript.Run.Evaluation
import BlockScript.Run.Machine

/-!
Programs and their runs.

A program is idle or running.  `start` makes it run: a worker takes the roots as they are and
performs one action after another (`step`), on variables and surroundings that it shares with
others.  When its task has ended the worker holds the result, then makes the program idle again,
and then ends; a new run may start in between.  `wait` lets the worker of the latest run go to its
end.
-/

namespace BlockScript

structure Environment where
  store : Store
  surroundings : Surroundings

inductive Worker where
  | executing (task : ActionTask EvalError Outcome)
  /-- The task has ended, and the program still counts as running. -/
  | leaving (result : Except EvalError Outcome)
  /-- The program is idle again, and the worker is about to end. -/
  | released (result : Except EvalError Outcome)
  | ended (result : Except EvalError Outcome)

structure Program (κ : Type) where
  roots : List (Node κ)
  running : Bool
  stop : Bool
  workers : List Worker
  /-- The position of the latest run's worker, until somebody has waited for it. -/
  latest : Option Nat

namespace Environment

def reportResult (e : Environment) : Except EvalError Outcome → Environment
  | .ok _ | .error .died => e
  | .error _ =>
    { e with surroundings := (e.surroundings.answer (.report .runAborted)).2 }

end Environment

namespace Program

variable {κ : Type}

def ofRoots (roots : List (Node κ)) : Program κ :=
  { roots, running := false, stop := false, workers := [], latest := none }

def machine (p : Program κ) (e : Environment) : Machine :=
  { store := e.store, stop := p.stop, surroundings := e.surroundings }

def setWorker (p : Program κ) (index : Nat) (worker : Worker) : Program κ :=
  { p with workers := p.workers.set index worker }

def result? : Ending EvalError Outcome → Option (Except EvalError Outcome)
  | .done outcome => some (.ok outcome)
  | .failed error => some (.error error)
  | .crashed => some (.error .died)
  | .unfinished => none

def start [Vocabulary κ] (horizon : Nat) (p : Program κ) : Bool × Program κ :=
  if p.running then (false, p)
  else
    let task := Evaluation.actions (Node.execute horizon p.roots)
    (true, { p with
      running := true
      stop := false
      workers := p.workers ++ [.executing task]
      latest := some p.workers.length })

def requestStop (p : Program κ) : Program κ := { p with stop := true }

/-- One step of a worker; there is none when it has ended, or waits without end. -/
def step (index : Nat) (p : Program κ) (e : Environment) : Option (Program κ × Environment) :=
  let leave (result : Except EvalError Outcome) :=
    some (p.setWorker index (.leaving result), e.reportResult result)
  match p.workers[index]? with
  | some (.executing (.done outcome)) => leave (.ok outcome)
  | some (.executing (.fail error)) => leave (.error error)
  | some (.executing .crash) => leave (.error .died)
  | some (.executing .unfinished) => none
  | some (.executing (.ask action resume)) => do
    let (answer, m) ← (p.machine e).answer action
    return ({ p.setWorker index (.executing (resume answer)) with stop := m.stop },
      { store := m.store, surroundings := m.surroundings })
  | some (.leaving result) =>
    some ({ p.setWorker index (.released result) with running := false }, e)
  | some (.released result) => some (p.setWorker index (.ended result), e)
  | some (.ended _) => none
  | none => none

def finish (p : Program κ) (e : Environment) : Option (Program κ × Environment) :=
  match p.latest with
  | none => some (p, e)
  | some index =>
    match p.workers[index]? with
    | some (.executing task) => do
      let (ending, m) := (p.machine e).run task
      let result ← result? ending
      return ({ p.setWorker index (.ended result) with running := false, stop := m.stop },
        Environment.reportResult ⟨m.store, m.surroundings⟩ result)
    | some (.leaving result) =>
      some ({ p.setWorker index (.ended result) with running := false }, e)
    | some (.released result) => some (p.setWorker index (.ended result), e)
    | some (.ended _) | none => some (p, e)

/-- Takes the result of the latest run, if nobody has taken it before; as long as its worker has
not ended there is nothing to take. -/
def take (p : Program κ) : Option (Option (Except EvalError Outcome) × Program κ) :=
  match p.latest with
  | none => some (none, p)
  | some index =>
    match p.workers[index]? with
    | some (.ended result) => some (some result, { p with latest := none })
    | _ => none

def wait (p : Program κ) (e : Environment) :
    Option (Option (Except EvalError Outcome) × Program κ × Environment) := do
  let (p, e) ← p.finish e
  let (result, p) ← p.take
  return (result, p, e)

end Program

end BlockScript
