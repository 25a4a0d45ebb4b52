import BlockScript.Catalog.Standard
import BlockScript.Proofs.Evaluation.Outlasting

/-!
# Every block of the catalog comes to its end

No block of the catalog goes round a loop of its own: after finitely many requests, whatever their
answers, it has ended (`Block.invokesEnding`).  A wait is a single request.
-/

namespace BlockScript

def Behavior.Ends (args : Arguments) : Behavior → Prop
  | statement run => (run args).Ends fun _ => True
  | expression compute => (compute args).Ends fun _ => True

theorem ActionTask.ends_ofHost {ε α : Type} {t : HostTask ε α} (ends : t.Ends fun _ => True) :
    (ActionTask.ofHost t).Ends fun _ => True :=
  ends.interpret fun _ _ _ => trivial

theorem Evaluation.ends_perform {κ : Type} [Vocabulary κ] {k : κ} {args : Arguments}
    (ends : ∀ behavior, (describe k).behavior? = some behavior → behavior.Ends args) :
    (perform (.invoke k args)).Ends fun _ => True := by
  rw [perform]
  cases found : (describe k).behavior? with
  | none => trivial
  | some behavior =>
      have ends := ends behavior found
      cases behavior with
      | statement run => exact (Task.Ends.mapError ends).bind fun _ => trivial
      | expression compute =>
          exact (ActionTask.ends_ofHost (Task.Ends.mapError ends)).bind fun _ => trivial

namespace Catalog

variable {σ : Signature} {α β : Type}

theorem ends_ofExcept (x : Except BehaviorError α) :
    (Task.ofExcept x : Task σ BehaviorError α).Ends fun _ => True := by
  cases x <;> trivial

theorem ends_reading (x : Except BehaviorError α) {f : α → Task σ BehaviorError β}
    (rest : ∀ a, (f a).Ends fun _ => True) : ((Task.ofExcept x).bind f).Ends fun _ => True :=
  (ends_ofExcept x).bind rest

theorem ends_computing (f : Arguments → Except BehaviorError Value) (args : Arguments) :
    (computing f).Ends args :=
  ends_ofExcept (f args)

theorem Operation.behavior_ends (op : Operation) (args : Arguments) : op.behavior.Ends args := by
  cases op with
  | random =>
      exact ends_reading _ fun low => ends_reading _ fun high => fun share _ => trivial
  | add | subtract | multiply | divide | remainder | greater | less | round | equal | both | either
    | negate => exact ends_computing _ args

theorem Signal.behavior_ends (signal : Signal) (args : Arguments) : signal.behavior.Ends args := by
  cases signal with
  | stop => exact fun _ _ => trivial
  | wait => exact ends_reading _ fun seconds => fun passed _ => trivial
  | beep =>
      refine ActionTask.ends_ofHost fun answer _ => ?_
      cases answer <;> trivial
  | notify => exact ends_reading _ fun text => ActionTask.ends_ofHost fun _ _ => trivial

namespace FileBlock

theorem ends_reportUnless (event : Event) (success : Bool) :
    (reportUnless event success).Ends fun _ => True := by
  cases success with
  | false => exact fun _ _ => trivial
  | true => trivial

theorem ends_readFile (path : String) : (readFile path).Ends fun _ => True := by
  intro content _
  cases content with
  | none => exact fun _ _ => trivial
  | some content => trivial

theorem ends_editFile (path : String) (edit : LineEdit) :
    (editFile path edit).Ends fun _ => True := by
  intro content _
  cases content with
  | none => exact fun _ _ => trivial
  | some content =>
      exact ends_reading _ fun lines => fun success _ => ends_reportUnless .cannotWrite success

theorem behavior_ends (block : FileBlock) (args : Arguments) : block.behavior.Ends args := by
  cases block with
  | read => exact ends_reading _ fun path => ends_readFile path
  | createFile | createFolder =>
      exact ActionTask.ends_ofHost (ends_reading _ fun path => fun success _ =>
        ends_reportUnless _ success)
  | exists? => exact ends_reading _ fun path => fun found _ => trivial
  | removeLines | addLines =>
      exact ActionTask.ends_ofHost (ends_reading _ fun _ => ends_reading _ fun _ =>
        ends_reading _ fun path => ends_editFile path _)

end FileBlock

namespace ListUpdate

theorem ends_apply (items : List Value) (change : ListChange) :
    (change.apply items).Ends fun _ => True := by
  cases change with
  | append | combine => trivial
  | insert | delete => exact ends_reading _ fun place => trivial
  | sort =>
      simp only [ListChange.apply]
      split <;> trivial

theorem behavior_ends (update : ListUpdate) (args : Arguments) : update.behavior.Ends args := by
  refine ends_reading _ fun (change, name) => fun value _ => ?_
  cases value with
  | none => trivial
  | some value => exact (ends_apply _ change).bind fun items => fun known _ => trivial

end ListUpdate

theorem assignment_ends (args : Arguments) : assignment.Ends args := by
  refine ends_reading _ fun name => ends_reading _ fun value => fun known _ => ?_
  cases known with
  | false => exact ActionTask.ends_ofHost fun _ _ => trivial
  | true => trivial

theorem Block.behavior_ends (block : Block) (args : Arguments) {behavior : Behavior}
    (found : (describe block).behavior? = some behavior) : behavior.Ends args := by
  cases block with
  | operation op =>
      obtain rfl : op.behavior = behavior := by cases op <;> exact Option.some.inj found
      exact op.behavior_ends args
  | signal signal =>
      obtain rfl : signal.behavior = behavior := by cases signal <;> exact Option.some.inj found
      exact signal.behavior_ends args
  | reading reading =>
      cases found
      exact fun moment _ => trivial
  | file block =>
      cases found
      exact block.behavior_ends args
  | text | query =>
      cases found
      exact ends_computing _ args
  | update update =>
      cases found
      exact update.behavior_ends args
  | assign =>
      cases found
      exact assignment_ends args
  | builtin builtin => rcases builtin with (_ | _ | _) | _ | _ | _ <;> cases found

theorem Block.invokesEnding (n : Node Block) : n.InvokesEnding := fun args =>
  Evaluation.ends_perform fun _ found => n.kind.behavior_ends args found

end Catalog

end BlockScript
