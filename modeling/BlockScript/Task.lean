/-!
Tasks: computations that ask questions.

A `Task` over a signature either has ended or asks a request and resumes with its answer.  What a
request means is left to whoever runs the task: `interpret` expands requests into tasks over
another signature, and `run` answers them from a state.
-/

namespace BlockScript

structure Signature where
  Request : Type
  Answer : Request → Type

inductive Task (σ : Signature) (ε α : Type) where
  | done (result : α)
  | fail (error : ε)
  /-- Ends abruptly, with neither result nor error. -/
  | crash
  /-- Goes on beyond what is observed. -/
  | unfinished
  | ask (request : σ.Request) (resume : σ.Answer request → Task σ ε α)

inductive Ending (ε α : Type) where
  | done (result : α)
  | failed (error : ε)
  | crashed
  | unfinished
deriving DecidableEq, Repr

namespace Task

variable {σ τ : Signature} {ε δ α β γ S : Type}

def bind (f : α → Task σ ε β) : Task σ ε α → Task σ ε β
  | done a => f a
  | fail e => fail e
  | crash => crash
  | unfinished => unfinished
  | ask r k => ask r fun answer => bind f (k answer)

instance : Monad (Task σ ε) where
  pure := done
  bind t f := bind f t

@[simp] theorem pure_eq_done (a : α) : (pure a : Task σ ε α) = done a := rfl

@[simp] theorem bind_eq_bind (t : Task σ ε α) (f : α → Task σ ε β) : t >>= f = bind f t := rfl

theorem bind_done (t : Task σ ε α) : bind done t = t := by
  induction t with
  | ask r k ih => simp [bind, ih]
  | _ => rfl

theorem bind_bind (t : Task σ ε α) (f : α → Task σ ε β) (g : β → Task σ ε γ) :
    bind g (bind f t) = bind (fun a => bind g (f a)) t := by
  induction t with
  | ask r k ih => simp [bind, ih]
  | _ => rfl

instance : LawfulMonad (Task σ ε) :=
  LawfulMonad.mk' (Task σ ε) bind_done (fun _ _ => rfl) bind_bind

def ofExcept : Except ε α → Task σ ε α
  | .ok a => done a
  | .error e => fail e

def mapError (f : ε → δ) : Task σ ε α → Task σ δ α
  | done a => done a
  | fail e => fail (f e)
  | crash => crash
  | unfinished => unfinished
  | ask r k => ask r fun answer => mapError f (k answer)

def interpret (handle : (r : σ.Request) → Task τ ε (σ.Answer r)) : Task σ ε α → Task τ ε α
  | done a => done a
  | fail e => fail e
  | crash => crash
  | unfinished => unfinished
  | ask r k => bind (fun answer => interpret handle (k answer)) (handle r)

/-- Runs a task, answering requests from a state. A request without an answer is never left. -/
def run (answer : (r : σ.Request) → S → Option (σ.Answer r × S)) :
    Task σ ε α → S → Ending ε α × S
  | done a, s => (.done a, s)
  | fail e, s => (.failed e, s)
  | crash, s => (.crashed, s)
  | unfinished, s => (.unfinished, s)
  | ask r k, s =>
    match answer r s with
    | some (a, s) => run answer (k a) s
    | none => (.unfinished, s)

end Task

end BlockScript
