import BlockScript.Run.Evaluation
import BlockScript.Run.Surroundings

/-!
The console: the surroundings of a program, two streams of lines, and time that passes.

`ConsoleTask.runAlone` runs a task whose variables and stop signal are nobody else's.
-/

namespace BlockScript

namespace Console

inductive Request where
  | host (request : Host.Request)
  | print (line : String)
  | complain (line : String)
  | pause (duration : Duration)

def Request.Answer : Request → Type
  | host request => request.Answer
  | print _ | complain _ | pause _ => Unit

def signature : Signature := ⟨Request, Request.Answer⟩

end Console

abbrev ConsoleTask (ε α : Type) := Task Console.signature ε α

namespace ConsoleTask

variable {ε δ α : Type}

def print (line : String) : ConsoleTask ε Unit := Task.ask (Console.Request.print line) Task.done

def complain (line : String) : ConsoleTask ε Unit :=
  Task.ask (Console.Request.complain line) Task.done

def pause (duration : Duration) : ConsoleTask ε Unit :=
  Task.ask (Console.Request.pause duration) Task.done

def ofHost : HostTask ε α → ConsoleTask ε α :=
  Task.interpret fun request => Task.ask (Console.Request.host request) Task.done

def runAlone (store : Store) (stop : Bool) :
    ActionTask ε α → ConsoleTask δ (Ending ε α × Store)
  | .done a => .done (.done a, store)
  | .fail e => .done (.failed e, store)
  | .crash => .done (.crashed, store)
  | .unfinished => .unfinished
  | .ask (.host request) resume =>
    .ask (.host request) fun answer => runAlone store stop (resume answer)
  | .ask (.get name) resume => runAlone store stop (resume (store.get? name))
  | .ask (.replace name value) resume =>
    runAlone (store.replace name value) stop (resume (store.contains name))
  | .ask (.define name value) resume => runAlone (store.set name value) stop (resume ())
  | .ask .requestStop resume => runAlone store true (resume ())
  | .ask .stopRequested resume => runAlone store stop (resume stop)
  | .ask (.sleep duration) resume =>
    if stop then runAlone store stop (resume false)
    else .ask (.pause duration) fun _ => runAlone store stop (resume true)

end ConsoleTask

structure Console where
  surroundings : Surroundings
  output : String
  errors : String

namespace Console

def bell : String := "\x07"

def answer (request : Request) (c : Console) : Option (request.Answer × Console) :=
  match request with
  | .host .ring => some (none, { c with errors := c.errors ++ bell })
  | .host request =>
    let (result, surroundings) := c.surroundings.answer request
    some (result, { c with surroundings })
  | .print line => some ((), { c with output := c.output ++ line ++ "\n" })
  | .complain line => some ((), { c with errors := c.errors ++ line ++ "\n" })
  | .pause duration => if duration.isEndless then none else some ((), c)

def run {ε α : Type} (task : ConsoleTask ε α) (c : Console) : Ending ε α × Console :=
  Task.run answer task c

end Console

end BlockScript
