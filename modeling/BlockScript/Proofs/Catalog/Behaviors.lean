import BlockScript.Catalog.Standard
import BlockScript.Proofs.Evaluation.Performing

/-!
# What the blocks of the catalog keep to

One contract covers the whole catalog: no block ever creates a variable, and on arguments of the
kinds that its slots declare a block fails for reasons of its own only, never for an argument that
is missing or of another kind.  `Block.behavior_obeys` is the statement for every block.
-/

namespace BlockScript.Catalog

/-- No variable is created, and arguments that fit the slots are neither missing nor of a wrong
kind. -/
def contract (slots : List SlotKind) (args : Arguments) :
    Contract Action.signature BehaviorError where
  asks action := ∀ name value, action ≠ Action.define name value
  answers _ _ := True
  fails e := List.Forall₂ SlotKind.Accepts slots args → ∃ failure, e = .failed failure

def Sound {α : Type} (slots : List SlotKind) (args : Arguments) (x : Except BehaviorError α) :
    Prop :=
  ∀ e, x = .error e → (contract slots args).fails e

variable {α β : Type} {slots : List SlotKind} {args : Arguments}

theorem asks_get (name : String) : (contract slots args).asks (Action.get name) := by
  intro _ _ eq
  cases eq

theorem asks_replace (name : String) (value : Value) :
    (contract slots args).asks (Action.replace name value) := by
  intro _ _ eq
  cases eq

theorem Sound.ok (a : α) : Sound slots args (.ok a) := nofun

theorem Sound.bind {x : Except BehaviorError α} {f : α → Except BehaviorError β}
    (hx : Sound slots args x) (hf : ∀ a, Sound slots args (f a)) : Sound slots args (x >>= f) := by
  cases x with
  | error e => exact fun e' eq => hx e' (by cases eq; rfl)
  | ok a => exact hf a

theorem Sound.position (index : Int64) (length : Nat) :
    Sound slots args (position index length) := by
  intro e eq _
  unfold Catalog.position at eq
  split at eq
  · cases eq
  · exact ⟨_, (Except.error.inj eq).symm⟩

theorem Sound.boundary (index : Int64) (length : Nat) :
    Sound slots args (boundary index length) := by
  intro e eq _
  unfold Catalog.boundary at eq
  split at eq
  · cases eq
  · exact ⟨_, (Except.error.inj eq).symm⟩

/-! ## Arguments -/

theorem exists_argument {i : Nat} {slot : SlotKind}
    (fit : List.Forall₂ SlotKind.Accepts slots args) (declared : slots[i]? = some slot) :
    ∃ value, args[i]? = some value ∧ slot.Accepts value := by
  induction fit generalizing i with
  | nil => simp at declared
  | cons accepts _ ih =>
      cases i with
      | zero =>
          simp only [List.getElem?_cons_zero, Option.some.injEq] at declared
          exact ⟨_, rfl, declared ▸ accepts⟩
      | succ i => simpa using ih (by simpa using declared)

theorem Sound.any {i : Nat} {slot : SlotKind} (declared : slots[i]? = some slot) :
    Sound slots args (args.any i) := by
  intro e eq fit
  obtain ⟨value, found, -⟩ := exists_argument fit declared
  simp [Arguments.any, found] at eq

theorem Sound.ofKind {i : Nat} {slot : SlotKind} {expected : ValueKind} {read? : Value → Option α}
    (declared : slots[i]? = some slot) (reads : ∀ value, slot.Accepts value → (read? value).isSome) :
    Sound slots args (args.ofKind expected read? i) := by
  intro e eq fit
  obtain ⟨value, found, accepts⟩ := exists_argument fit declared
  obtain ⟨a, read⟩ := Option.isSome_iff_exists.1 (reads value accepts)
  simp [Arguments.ofKind, Arguments.any, found, read, Bind.bind, Except.bind] at eq

theorem Sound.real {i : Nat} (declared : slots[i]? = some .real) :
    Sound slots args (args.real i) := by
  refine .ofKind declared fun value accepts => ?_
  cases value <;> simp_all [SlotKind.Accepts, SlotKind.valueKind?, Value.kind, Value.asReal?]

theorem Sound.integer {i : Nat} (declared : slots[i]? = some .integer) :
    Sound slots args (args.integer i) := by
  refine .ofKind declared fun value accepts => ?_
  cases value <;> simp_all [SlotKind.Accepts, SlotKind.valueKind?, Value.kind, Value.asInteger?]

theorem Sound.boolean {i : Nat} (declared : slots[i]? = some .boolean) :
    Sound slots args (args.boolean i) := by
  refine .ofKind declared fun value accepts => ?_
  cases value <;> simp_all [SlotKind.Accepts, SlotKind.valueKind?, Value.kind, Value.asBoolean?]

theorem Sound.text {i : Nat} (declared : slots[i]? = some .text) :
    Sound slots args (args.text i) := by
  refine .ofKind declared fun value accepts => ?_
  cases value <;> simp_all [SlotKind.Accepts, SlotKind.valueKind?, Value.kind, Value.asText?]

theorem Sound.list {i : Nat} (declared : slots[i]? = some .list) :
    Sound slots args (args.list i) := by
  refine .ofKind declared fun value accepts => ?_
  cases value <;> simp_all [SlotKind.Accepts, SlotKind.valueKind?, Value.kind, Value.asList?]

theorem exists_text_of_accepts {value : Value} (accepts : SlotKind.text.Accepts value) :
    ∃ s, value = .text s := by
  cases value with
  | text s => exact ⟨s, rfl⟩
  | real | integer | boolean | list => cases accepts .text rfl

theorem exists_integer_of_accepts {value : Value} (accepts : SlotKind.integer.Accepts value) :
    ∃ n, value = .integer n := by
  cases value with
  | integer n => exact ⟨n, rfl⟩
  | real | text | boolean | list => cases accepts .integer rfl

theorem exists_list_of_accepts {value : Value} (accepts : SlotKind.list.Accepts value) :
    ∃ items, value = .list items := by
  cases value with
  | list items => exact ⟨items, rfl⟩
  | real | integer | text | boolean => cases accepts .list rfl

/-! ## Tasks of blocks -/

theorem computing_obeys {f : Arguments → Except BehaviorError Value}
    (sound : Sound slots args (f args)) : (computing f).Obeys (contract slots args) args :=
  (Task.obeys_ofExcept _).2 ⟨fun _ _ => trivial, sound⟩

theorem reading_obeys {σ : Signature} {c : Contract σ BehaviorError} {x : Except BehaviorError α}
    {f : α → Task σ BehaviorError β} {post : β → Prop} (sound : ∀ e, x = .error e → c.fails e)
    (rest : ∀ a, (f a).Obeys c post) : ((Task.ofExcept x).bind f).Obeys c post := by
  rw [Task.obeys_bind, Task.obeys_ofExcept]
  exact ⟨fun a _ => rest a, sound⟩

theorem asking_obeys {request : Host.Request}
    {resume : request.Answer → HostTask BehaviorError α} {post : α → Prop}
    (rest : ∀ answer, (resume answer).Obeys (contract slots args).host post) :
    Task.Obeys (contract slots args).host (.ask request resume) post :=
  ⟨fun _ _ => nofun, fun answer _ => rest answer⟩

theorem ofHost_obeys {t : HostTask BehaviorError Unit}
    (obeys : t.Obeys (contract slots args).host fun _ => True) :
    (ActionTask.ofHost t).Obeys (contract slots args) fun _ => True :=
  (ActionTask.obeys_ofHost t).2 obeys

theorem onReals_obeys (f : Binary64 → Binary64 → Value) :
    (Operation.onReals f).Obeys (contract [.real, .real] args) args :=
  computing_obeys (.bind (.real rfl) fun _ => .bind (.real rfl) fun _ => .ok _)

theorem Operation.behavior_obeys (op : Operation) (args : Arguments) :
    op.behavior.Obeys (contract op.kind.slots args) args := by
  cases op with
  | add | subtract | multiply | divide | remainder | greater | less => exact onReals_obeys _
  | round => exact computing_obeys (.bind (.real rfl) fun _ => .ok _)
  | equal => exact computing_obeys (.bind (.any rfl) fun _ => .bind (.any rfl) fun _ => .ok _)
  | both =>
      refine computing_obeys (.bind (.boolean rfl) fun first => ?_)
      cases first with
      | false => exact .ok _
      | true => exact .bind (.boolean rfl) fun _ => .ok _
  | either =>
      refine computing_obeys (.bind (.boolean rfl) fun first => ?_)
      cases first with
      | false => exact .bind (.boolean rfl) fun _ => .ok _
      | true => exact .ok _
  | negate => exact computing_obeys (.bind (.boolean rfl) fun _ => .ok _)
  | random =>
      exact reading_obeys (Sound.real rfl) fun _ => reading_obeys (Sound.real rfl) fun _ =>
        asking_obeys fun _ => trivial

theorem Signal.behavior_obeys (signal : Signal) (args : Arguments) :
    signal.behavior.Obeys (contract signal.kind.slots args) args := by
  cases signal with
  | stop => exact ⟨fun _ _ => nofun, fun _ _ => trivial⟩
  | wait =>
      exact reading_obeys (Sound.real rfl) fun _ => ⟨fun _ _ => nofun, fun _ _ => trivial⟩
  | beep =>
      refine ofHost_obeys (asking_obeys fun answer => ?_)
      cases answer with
      | none => trivial
      | some reason => exact fun _ => ⟨_, rfl⟩
  | notify =>
      exact reading_obeys (Sound.text rfl) fun _ => ofHost_obeys (asking_obeys fun _ => trivial)

theorem Reading.compute_obeys (reading : Reading) (args : Arguments) :
    (Behavior.expression fun _ => do return reading.ofMoment (← HostTask.now)).Obeys
      (contract reading.kind.slots args) args :=
  asking_obeys fun _ => trivial

/-! ## Files -/

namespace FileBlock

theorem report_obeys (event : Event) :
    (HostTask.report event).Obeys (contract slots args).host fun _ => True :=
  asking_obeys fun _ => trivial

theorem reportUnless_obeys (event : Event) (success : Bool) :
    (reportUnless event success).Obeys (contract slots args).host fun _ => True := by
  cases success with
  | false => exact report_obeys event
  | true => trivial

theorem readFile_obeys (path : String) :
    (readFile path).Obeys (contract slots args).host fun _ => True := by
  refine asking_obeys fun content => ?_
  cases content with
  | none => exact asking_obeys fun _ => trivial
  | some content => trivial

theorem sound_apply (lines : List String) (edit : LineEdit) :
    Sound slots args (edit.apply lines) := by
  cases edit with
  | remove start stop =>
      exact .bind (.boundary stop _) fun _ => .bind (.boundary start _) fun _ => .ok _
  | add added index => exact .bind (.boundary index _) fun _ => .ok _

theorem editFile_obeys (path : String) (edit : LineEdit) :
    (editFile path edit).Obeys (contract slots args).host fun _ => True := by
  refine asking_obeys fun content => ?_
  cases content with
  | none => exact report_obeys .cannotRead
  | some content =>
      exact reading_obeys (sound_apply _ edit) fun lines =>
        asking_obeys fun success => reportUnless_obeys .cannotWrite success

theorem behavior_obeys (block : FileBlock) (args : Arguments) :
    block.behavior.Obeys (contract block.kind.slots args) args := by
  cases block with
  | read => exact reading_obeys (Sound.text rfl) fun path => readFile_obeys path
  | createFile =>
      exact ofHost_obeys (reading_obeys (Sound.text rfl) fun path =>
        asking_obeys fun success => reportUnless_obeys .createFileFailed success)
  | createFolder =>
      exact ofHost_obeys (reading_obeys (Sound.text rfl) fun path =>
        asking_obeys fun success => reportUnless_obeys .createFolderFailed success)
  | exists? => exact reading_obeys (Sound.text rfl) fun path => asking_obeys fun _ => trivial
  | removeLines =>
      exact ofHost_obeys (reading_obeys (Sound.integer rfl) fun start =>
        reading_obeys (Sound.integer rfl) fun stop =>
        reading_obeys (Sound.text rfl) fun path => editFile_obeys path (.remove start stop))
  | addLines =>
      exact ofHost_obeys (reading_obeys (Sound.list rfl) fun added =>
        reading_obeys (Sound.integer rfl) fun index =>
        reading_obeys (Sound.text rfl) fun path => editFile_obeys path (.add _ index))

end FileBlock

/-! ## Texts and lists -/

theorem TextBlock.sound_compute (block : TextBlock) (args : Arguments) :
    Sound block.slots args (block.compute args) := by
  cases block with
  | join | contains | split =>
      exact .bind (.text rfl) fun _ => .bind (.text rfl) fun _ => .ok _
  | length | isBlank | upper | lower => exact .bind (.text rfl) fun _ => .ok _
  | substring =>
      refine .bind (.text rfl) fun s => .bind (.integer rfl) fun start =>
        .bind (.integer rfl) fun stop => .bind ?_ fun _ => .ok _
      exact .bind (.boundary stop _) fun _ => .bind (.boundary start _) fun _ => .ok _

theorem ListQuery.sound_compute (query : ListQuery) (args : Arguments) :
    Sound query.slots args (query.compute args) := by
  cases query with
  | new => exact .ok _
  | size | isEmpty => exact .bind (.list rfl) fun _ => .ok _
  | item =>
      exact .bind (.list rfl) fun items => .bind (.integer rfl) fun index =>
        .bind (.position index _) fun _ => .ok _
  | contains => exact .bind (.list rfl) fun _ => .bind (.any rfl) fun _ => .ok _

namespace ListUpdate

theorem sound_change (update : ListUpdate) (args : Arguments) :
    Sound update.slots args (update.change args) := by
  cases update with
  | append => exact .bind (.any rfl) fun _ => .bind (.text rfl) fun _ => .ok _
  | insert =>
      exact .bind (.any rfl) fun _ => .bind (.integer rfl) fun _ => .bind (.text rfl) fun _ => .ok _
  | delete => exact .bind (.integer rfl) fun _ => .bind (.text rfl) fun _ => .ok _
  | combine => exact .bind (.list rfl) fun _ => .bind (.text rfl) fun _ => .ok _
  | sort => exact .bind (.text rfl) fun _ => .ok _

theorem apply_obeys (items : List Value) (change : ListChange) :
    (change.apply items).Obeys (contract slots args) fun _ => True := by
  cases change with
  | append item => trivial
  | insert item index => exact reading_obeys (Sound.boundary index _) fun _ => trivial
  | delete index => exact reading_obeys (Sound.position index _) fun _ => trivial
  | combine tail => trivial
  | sort =>
      simp only [ListChange.apply]
      split
      · trivial
      · trivial
      · exact fun _ => ⟨_, rfl⟩

theorem perform_obeys (change : ListChange) (name : String) :
    (perform change name).Obeys (contract slots args) fun _ => True := by
  simp only [perform, Task.bind_eq_bind, Task.obeys_bind, ActionTask.obeys_get]
  refine ⟨asks_get name, fun value _ => ?_⟩
  cases value with
  | none => exact fun _ => ⟨_, rfl⟩
  | some value =>
      simp only [Task.obeys_bind, ActionTask.obeys_replace]
      exact (apply_obeys _ change).imp fun _ _ => ⟨asks_replace _ _, fun _ _ => trivial⟩

theorem behavior_obeys (update : ListUpdate) (args : Arguments) :
    update.behavior.Obeys (contract update.kind.slots args) args :=
  reading_obeys (sound_change update args) fun (change, name) => perform_obeys change name

end ListUpdate

theorem assignment_obeys (args : Arguments) :
    assignment.Obeys (contract [.text, .any] args) args := by
  refine reading_obeys (Sound.text rfl) fun name => reading_obeys (Sound.any rfl) fun value => ?_
  simp only [Task.bind_eq_bind, Task.obeys_bind, ActionTask.obeys_replace]
  refine ⟨asks_replace name value, fun known _ => ?_⟩
  cases known with
  | true => trivial
  | false => exact ofHost_obeys (asking_obeys fun _ => trivial)

/-- Every block of the catalog keeps the contract of its slots. -/
theorem Block.behavior_obeys (block : Block) (args : Arguments) {behavior : Behavior}
    (found : (describe block).behavior? = some behavior) :
    behavior.Obeys (contract (describe block).slots args) args := by
  cases block with
  | operation op =>
      have own : (describe (Block.operation op)).behavior? = some op.behavior := by
        cases op <;> rfl
      rw [own] at found
      cases found
      exact op.behavior_obeys args
  | signal signal =>
      have own : (describe (Block.signal signal)).behavior? = some signal.behavior := by
        cases signal <;> rfl
      rw [own] at found
      cases found
      exact signal.behavior_obeys args
  | reading reading =>
      cases found
      exact reading.compute_obeys args
  | file block =>
      cases found
      exact block.behavior_obeys args
  | text block =>
      cases found
      exact computing_obeys (block.sound_compute args)
  | query query =>
      cases found
      exact computing_obeys (query.sound_compute args)
  | update update =>
      cases found
      exact update.behavior_obeys args
  | assign =>
      cases found
      exact assignment_obeys args
  | builtin builtin =>
      have own : (describe (Block.builtin builtin)).behavior? = none := by
        rcases builtin with (_ | _ | _) | _ | _ | _ <;> rfl
      rw [own] at found
      cases found

end BlockScript.Catalog
