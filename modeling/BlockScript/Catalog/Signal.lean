import BlockScript.Catalog.Argument

/-!
Statements that act on the run itself or on whoever watches it.
-/

namespace BlockScript.Catalog

inductive Signal where
  | stop
  | wait
  | beep
  | notify
deriving DecidableEq, Repr

namespace Signal

def behavior : Signal → Behavior
  | stop => .statement fun _ => ActionTask.requestStop
  | wait => .statement fun args => do
    let seconds ← Task.ofExcept (args.real 0)
    let _ ← ActionTask.sleep (.ofSeconds seconds)
    return ()
  | beep => .statement fun _ => ActionTask.ofHost do
    match ← HostTask.ring with
    | none => return ()
    | some reason => .fail (.failed (.other ("beep: " ++ reason)))
  | notify => .statement fun args => do
    let text ← Task.ofExcept (args.text 0)
    ActionTask.ofHost (HostTask.report (.notification text))

def kind (signal : Signal) : Kind :=
  let behavior := signal.behavior
  match signal with
  | stop => { role := .block behavior, slots := [], labels := ["stop"] }
  | wait => { role := .block behavior, slots := [.real], labels := ["wait", "seconds"] }
  | beep => { role := .block behavior, slots := [], labels := ["beep"] }
  | notify => { role := .block behavior, slots := [.text], labels := ["notify", ""] }

end Signal

end BlockScript.Catalog
