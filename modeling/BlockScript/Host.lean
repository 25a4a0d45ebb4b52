import BlockScript.Number.Binary64
import BlockScript.Task

/-!
The surroundings of a program: files, the clock, chance, a bell and the event log.

`Host.signature` lists what a program can ask of them.  Files are read and written whole, as text;
only the bell tells the reason when it fails.
-/

namespace BlockScript

inductive Severity where
  | info
  | warning
deriving DecidableEq, Repr

def Severity.name : Severity → String
  | info => "INFO"
  | warning => "WARN"

inductive Event where
  | notification (text : String)
  | assignmentIgnored
  | readFailed
  | createFileFailed
  | createFolderFailed
  | cannotRead
  | cannotWrite
  | runAborted
  | documentMissing
  | documentLoaded
  | documentSaved
  | documentKept
deriving DecidableEq, Repr

namespace Event

def severity : Event → Severity
  | notification _ | documentMissing | documentLoaded | documentSaved | documentKept => .info
  | _ => .warning

def message : Event → String
  | notification text => "notification: " ++ text
  | assignmentIgnored => "set variable ignored: not declared"
  | readFailed => "read file failed"
  | createFileFailed => "create file failed"
  | createFolderFailed => "create folder failed"
  | cannotRead => "cannot read file"
  | cannotWrite => "cannot write file"
  | runAborted => "run aborted"
  | documentMissing => "no application document, starting empty"
  | documentLoaded => "loaded application document"
  | documentSaved => "saved application document"
  | documentKept => "dry run, document not saved"

def render (event : Event) : String := event.severity.name ++ " " ++ event.message

end Event

/-- A reading of the local clock; `weekday` counts from Monday, which is `0`. -/
structure Moment where
  year : Nat
  month : Nat
  day : Nat
  weekday : Nat
  hour : Nat
  minute : Nat
  second : Nat
  millisecond : Nat
deriving DecidableEq, Repr

namespace Host

inductive Request where
  | readText (path : String)
  | pathExists (path : String)
  | createFile (path : String)
  | createFolder (path : String)
  | writeText (path content : String)
  | report (event : Event)
  | ring
  | now
  | chance
deriving DecidableEq, Repr

namespace Request

/-- Creating and writing tell whether they succeeded; `chance` is a real of the unit interval. -/
def Answer : Request → Type
  | readText _ => Option String
  | pathExists _ | createFile _ | createFolder _ | writeText _ _ => Bool
  | report _ => Unit
  | ring => Option String
  | now => Moment
  | chance => Binary64

end Request

def signature : Signature := ⟨Request, Request.Answer⟩

end Host

abbrev HostTask (ε α : Type) := Task Host.signature ε α

namespace HostTask

variable {ε : Type}

def readText (path : String) : HostTask ε (Option String) :=
  Task.ask (Host.Request.readText path) Task.done

def pathExists (path : String) : HostTask ε Bool :=
  Task.ask (Host.Request.pathExists path) Task.done

def createFile (path : String) : HostTask ε Bool :=
  Task.ask (Host.Request.createFile path) Task.done

def createFolder (path : String) : HostTask ε Bool :=
  Task.ask (Host.Request.createFolder path) Task.done

def writeText (path content : String) : HostTask ε Bool :=
  Task.ask (Host.Request.writeText path content) Task.done

def report (event : Event) : HostTask ε Unit := Task.ask (Host.Request.report event) Task.done

def ring : HostTask ε (Option String) := Task.ask Host.Request.ring Task.done

def now : HostTask ε Moment := Task.ask Host.Request.now Task.done

def chance : HostTask ε Binary64 := Task.ask Host.Request.chance Task.done

end HostTask

end BlockScript
