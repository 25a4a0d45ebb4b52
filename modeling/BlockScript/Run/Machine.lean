import BlockScript.Block.Behavior
import BlockScript.Run.Surroundings

/-!
The state that a running program acts on: its variables, its stop signal and its surroundings.
-/

namespace BlockScript

structure Machine where
  store : Store
  stop : Bool
  surroundings : Surroundings

namespace Machine

/-- The answer to an action and the machine afterwards. A wait ends at once when a stop is
requested; otherwise it takes its time, and an endless one is never answered. -/
def answer (action : Action) (m : Machine) : Option (action.Answer × Machine) :=
  match action with
  | .host request =>
    let (result, surroundings) := m.surroundings.answer request
    some (result, { m with surroundings })
  | .get name => some (m.store.get? name, m)
  | .replace name value =>
    some (m.store.contains name, { m with store := m.store.replace name value })
  | .define name value => some ((), { m with store := m.store.set name value })
  | .requestStop => some ((), { m with stop := true })
  | .stopRequested => some (m.stop, m)
  | .sleep duration =>
    if m.stop then some (false, m)
    else if duration.isEndless then none
    else some (true, m)

def run {ε α : Type} (task : ActionTask ε α) (m : Machine) : Ending ε α × Machine :=
  Task.run answer task m

end Machine

end BlockScript
