import BlockScript.Proofs.Workspace.Reopening

/-!
# What the run command does

Before any program runs, `run` has to come to a workspace, variables and programs (`Prepared`); where
it does not, it fails and has done nothing but report that it loaded.  Then the programs take `Turns`
on the same variables, however each of them ends.  What is left is to save, or not, and the verdict
(`Concludes`): a saved file holds the variables that the programs left, and reads back as them, and
only files that refuse a folder or the text keep a run from saving.  `run_all_or_nothing` says so for
every console.
-/

namespace BlockScript

structure Solo where
  store : Store
  stop : Bool
  console : Console

namespace Solo

def answer (action : Action) (m : Solo) : Option (action.Answer × Solo) :=
  match action with
  | .host request =>
    (m.console.answer (.host request)).map fun (a, console) => (a, { m with console })
  | .get name => some (m.store.get? name, m)
  | .replace name value =>
    some (m.store.contains name, { m with store := m.store.replace name value })
  | .define name value => some ((), { m with store := m.store.set name value })
  | .requestStop => some ((), { m with stop := true })
  | .stopRequested => some (m.stop, m)
  | .sleep duration =>
    if m.stop then some (false, m)
    else (m.console.answer (.pause duration)).map fun (_, console) => (true, { m with console })

def run {ε α : Type} (task : ActionTask ε α) (m : Solo) : Ending ε α × Solo :=
  Task.run answer task m

def outcome {ε δ α : Type} : Ending ε α × Solo → Ending δ (Ending ε α × Store) × Console
  | (.done a, m) => (.done (.done a, m.store), m.console)
  | (.failed e, m) => (.done (.failed e, m.store), m.console)
  | (.crashed, m) => (.done (.crashed, m.store), m.console)
  | (.unfinished, m) => (.unfinished, m.console)

end Solo

section
variable {ε δ α : Type}

theorem Console.run_passed (action : Action) (request : Console.Request)
    (back : request.Answer → action.Answer) (resume : action.Answer → ActionTask ε α)
    {store : Store} {stop : Bool} {c : Console}
    (passes : Solo.answer action ⟨store, stop, c⟩ =
      (c.answer request).map fun result => (back result.1, ⟨store, stop, result.2⟩))
    (same : ∀ a c, Console.run (ConsoleTask.runAlone store stop (resume a) : ConsoleTask δ _) c =
      Solo.outcome (Solo.run (resume a) ⟨store, stop, c⟩)) :
    Console.run (@Task.ask Console.signature δ _ request fun a =>
        ConsoleTask.runAlone store stop (resume (back a))) c =
      Solo.outcome (Solo.run (@Task.ask Action.signature ε α action resume) ⟨store, stop, c⟩) := by
  cases answered : c.answer request with
  | none =>
      rw [answered] at passes
      have solo := @Task.run_stuck Action.signature ε α Solo Solo.answer action resume _ passes
      exact (@Task.run_stuck Console.signature δ _ Console Console.answer request _ c answered).trans
        (congrArg Solo.outcome solo).symm
  | some result =>
      rw [answered] at passes
      have solo := @Task.run_answered Action.signature ε α Solo Solo.answer action resume _ _ passes
      exact (@Task.run_answered Console.signature δ _ Console Console.answer request _ c _
        answered).trans ((same (back result.1) result.2).trans (congrArg Solo.outcome solo).symm)

theorem Console.run_runAlone (task : ActionTask ε α) (store : Store) (stop : Bool) (c : Console) :
    Console.run (ConsoleTask.runAlone store stop task : ConsoleTask δ _) c =
      Solo.outcome (Solo.run task ⟨store, stop, c⟩) := by
  induction task generalizing store stop c with
  | ask action resume ih =>
      cases action with
      | host request =>
          exact Console.run_passed (.host request) (.host request) id resume rfl fun a c =>
            ih a store stop c
      | sleep duration =>
          cases stop with
          | true => exact ih false store true c
          | false =>
              exact Console.run_passed (.sleep duration) (.pause duration) (fun _ => true) resume rfl
                fun a c => ih a store false c
      | get name => exact ih _ store stop c
      | replace name value => exact ih _ _ stop c
      | define name value => exact ih () _ stop c
      | requestStop => exact ih () store true c
      | stopRequested => exact ih stop store stop c
  | _ => rfl

end

def Console.printed (c : Console) (line : String) : Console :=
  { c with output := c.output ++ line ++ "\n" }

def Ending.isFailure {ε α : Type} : Ending ε α → Bool
  | done _ => false
  | failed _ | crashed | unfinished => true

namespace Cli

open Catalog (Block)

/-! ## Programs in turn -/

def announced (c : Console) (index : Nat) (ending : Ending EvalError Outcome) : Console :=
  let line := "program " ++ toString index ++ ": "
  match ending with
  | .done .completed => c.printed (line ++ "completed")
  | .done .stopped => c.printed (line ++ "stopped")
  | .failed error => (c.report .runAborted).printed (line ++ "failed: " ++ withCause error)
  | .crashed | .unfinished => c.printed (line ++ "failed: " ++ EvalError.died.message)

def turn (roots : List (Node Block)) (store : Store) (c : Console) :
    Ending EvalError Outcome × Solo :=
  Solo.run (Evaluation.actions (Node.execute horizon roots)) ⟨store, false, c⟩

theorem run_runOne (index : Nat) (roots : List (Node Block)) (store : Store) (c : Console) :
    Console.run (runOne index roots store) c =
      match turn roots store c with
      | (.unfinished, m) => (.unfinished, m.console)
      | (ending, m) => (.done (ending.isFailure, m.store), announced m.console index ending) := by
  rw [runOne, Task.bind_eq_bind, Console.run_bind, Console.run_runAlone]
  show Ending.andThen _ (Solo.outcome (turn roots store c)) = _
  rcases turn roots store c with ⟨ending, m⟩
  rcases ending with (_ | _) | _ | _ | _ <;> rfl

/-- The programs run one after the other, each of them once and on the variables that the one before
has left, and come to an end. -/
inductive Turns : List (Nat × List (Node Block)) → Store → Console →
    List (Ending EvalError Outcome) → Store → Console → Prop where
  | nil (store : Store) (c : Console) : Turns [] store c [] store c
  | cons {index : Nat} {roots : List (Node Block)} {rest : List (Nat × List (Node Block))}
      {store store' : Store} {c c' : Console} {ending : Ending EvalError Outcome} {m : Solo}
      {endings : List (Ending EvalError Outcome)} (ran : turn roots store c = (ending, m))
      (ended : ending ≠ .unfinished)
      (later : Turns rest m.store (announced m.console index ending) endings store' c') :
      Turns ((index, roots) :: rest) store c (ending :: endings) store' c'

theorem run_runOne_of_ended {index : Nat} {roots : List (Node Block)} {store : Store} {c : Console}
    {ending : Ending EvalError Outcome} {m : Solo} (ran : turn roots store c = (ending, m))
    (ended : ending ≠ .unfinished) :
    Console.run (runOne index roots store) c =
      (.done (ending.isFailure, m.store), announced m.console index ending) := by
  rw [run_runOne, ran]
  cases ending with
  | done | failed | crashed => rfl
  | unfinished => exact absurd rfl ended

section
variable {selected : List (Nat × List (Node Block))} {store store' : Store} {c c' : Console}
  {endings : List (Ending EvalError Outcome)}

theorem Turns.run_runAll (turns : Turns selected store c endings store' c') :
    Console.run (runAll store selected) c =
      (.done (endings.countP Ending.isFailure, store'), c') := by
  induction turns with
  | nil => rfl
  | @cons index roots rest store store' c c' ending m endings ran ended _ ih =>
      rw [runAll, Task.bind_eq_bind, Console.run_bind, run_runOne_of_ended ran ended]
      dsimp only [Ending.andThen]
      rw [Task.bind_eq_bind, Console.run_bind, ih, List.countP_cons]
      cases ending.isFailure <;> rfl

theorem Turns.unique (turns : Turns selected store c endings store' c')
    {endings₂ : List (Ending EvalError Outcome)} {store₂ : Store} {c₂ : Console}
    (others : Turns selected store c endings₂ store₂ c₂) :
    endings = endings₂ ∧ store' = store₂ ∧ c' = c₂ := by
  induction turns generalizing endings₂ with
  | nil =>
      cases others
      exact ⟨rfl, rfl, rfl⟩
  | cons ran _ _ ih =>
      cases others with
      | cons ran₂ _ later =>
          obtain ⟨rfl, rfl⟩ := Prod.mk.inj (ran.symm.trans ran₂)
          obtain ⟨rfl, rfl, rfl⟩ := ih later
          exact ⟨rfl, rfl, rfl⟩

/-- All programs are selected with their indexes, in ascending order, or the one of the given
index. -/
def Selects (program : Option Nat) (all : List (List (Node Block)))
    (selected : List (Nat × List (Node Block))) : Prop :=
  match program with
  | none => selected.map Prod.fst = List.range all.length ∧ selected.map Prod.snd = all
  | some index => ∃ roots, all[index]? = some roots ∧ selected = [(index, roots)]

theorem select_eq_done {program : Option Nat} {all : List (List (Node Block))} :
    select program all = .done selected ↔ Selects program all selected := by
  cases program with
  | none =>
      have indexes : (all.zipIdx.map Prod.swap).map Prod.fst =
          List.range all.length := by
        rw [List.map_map, List.range_eq_range', ← List.zipIdx_map_snd 0 all]
        rfl
      have programs : (all.zipIdx.map Prod.swap).map Prod.snd = all := by
        rw [List.map_map]
        exact List.zipIdx_map_fst 0 all
      constructor
      · intro done
        obtain rfl := Task.done.inj done
        exact ⟨indexes, programs⟩
      · rintro ⟨first, second⟩
        apply congrArg Task.done
        exact (List.zip_of_prod indexes programs).trans (List.zip_of_prod first second).symm
  | some index =>
      simp only [select, Selects]
      cases all[index]? with
      | none => simp
      | some roots => simp [eq_comm]

/-- What a run needs before a program is run: the workspace that was found, its variables, with the
constants if they are wanted, and its programs, all of which have to be built. -/
structure Prepared (s : Settings) (program : Option Nat) (c : Console) (w : Workspace)
    (store : Store) (selected : List (Nat × List (Node Block))) : Prop where
  loaded : Workspace.found c.surroundings.files s.dataFile = .ok w
  seeded : ∃ defined, w.seed .empty = (none, defined) ∧
    store = if s.seedConstants then Store.seedConstants defined else defined
  built : ∃ all, w.roots Catalog.registry = .ok all ∧ Selects program all selected

variable {s : Settings} {program : Option Nat} {w : Workspace}

theorem Prepared.run_runSelected (prepared : Prepared s program c w store selected) :
    Console.run (runSelected s program) c =
      Ending.andThen (fun result c => (.done (w, result.1, result.2), c))
        (Console.run (runAll store selected) (c.report (loadEvent c s.dataFile))) := by
  obtain ⟨defined, seeds, rfl⟩ := prepared.seeded
  obtain ⟨all, built, selects⟩ := prepared.built
  have builds : programs w = .done all := by rw [programs, built]
  rw [runSelected, Task.bind_eq_bind, Console.run_bind, run_openWorkspace, prepared.loaded]
  dsimp only
  rw [seeds]
  dsimp only [Ending.andThen]
  rw [builds, Task.bind_eq_bind, Task.bind, Task.bind_eq_bind, select_eq_done.2 selects, Task.bind,
    Task.bind_eq_bind, Console.run_bind]
  rfl

structure Keeps (files : FileTree) (path : String) (w : Workspace) (store : Store) : Prop where
  text : files.readText? path =
    some (Workspace.toText ⟨w.credentials, w.programs, store.map Value.toJson⟩)
  /-- The workspace comes back from the text, unless a variable nests too deep to be read. -/
  read : (Workspace.toJson ⟨w.credentials, w.programs, store.map Value.toJson⟩).ExactReals →
    Workspace.parse (Workspace.toText ⟨w.credentials, w.programs, store.map Value.toJson⟩) =
      if ∀ entry ∈ store.entries, entry.2.nesting ≤ Json.depthLimit - 2 then
        .ok ⟨w.credentials, w.programs, store.map Value.toJson⟩
      else .error .invalid

def verdict (endings : List (Ending EvalError Outcome)) : Ending CliError Unit :=
  let failures := endings.countP Ending.isFailure
  if failures = 0 then .done () else .failed (.failures failures)

/-- How a run ends after its programs: what it leaves on the console, and its verdict, unless the
files refuse to keep the workspace, and then they hold nothing at its path that can be read. -/
inductive Concludes (s : Settings) (w : Workspace) (endings : List (Ending EvalError Outcome))
    (store : Store) (c : Console) : Bool → Ending CliError Unit × Console → Prop where
  | dry : Concludes s w endings store c true (verdict endings, c.report .documentKept)
  | saved {made files : FileTree} (folder : c.surroundings.files.Foldered s.dataFile made)
      (written : made.writeText s.dataFile
        (Workspace.toText ⟨w.credentials, w.programs, store.map Value.toJson⟩) = .ok files)
      (keeps : Keeps files s.dataFile w store) :
      Concludes s w endings store c false
        (verdict endings, (c.withFiles files).report .documentSaved)
  | unsaved {left : FileTree}
      (refuses : c.surroundings.files.Refuses s.dataFile
        (Workspace.toText ⟨w.credentials, w.programs, store.map Value.toJson⟩) left)
      (unreadable : ∀ made, c.surroundings.files.Foldered s.dataFile made →
        made.readText? s.dataFile = none) :
      Concludes s w endings store c false
        (.failed (.workspace (.inaccessible s.dataFile)), c.withFiles left)

theorem run_eq_bind (s : Settings) (program : Option Nat) (dryRun : Bool) :
    run s program dryRun = (runSelected s program).bind fun result =>
      (if dryRun then onHost .workspace (HostTask.report .documentKept)
        else onHost .workspace ((result.1.capture result.2.2).save s.dataFile)).bind fun _ =>
        if result.2.1 = 0 then .done () else .fail (.failures result.2.1) := by
  cases dryRun <;> rfl

theorem run_verdict (endings : List (Ending EvalError Outcome)) (c : Console) :
    Console.run (if endings.countP Ending.isFailure = 0 then .done ()
      else .fail (.failures (endings.countP Ending.isFailure))) c = (verdict endings, c) := by
  rw [verdict]
  by_cases none : endings.countP Ending.isFailure = 0
  · simp only [none]
    rfl
  · simp only [none]
    rfl

theorem Turns.concludes {c₀ : Console}
    (turns : Turns selected store (c₀.report (loadEvent c₀ s.dataFile)) endings store' c)
    (prepared : Prepared s program c₀ w store selected) (dryRun : Bool) :
    Concludes s w endings store' c dryRun (Console.run (run s program dryRun) c₀) := by
  rw [run_eq_bind, Console.run_bind, prepared.run_runSelected, turns.run_runAll]
  dsimp only [Ending.andThen]
  rw [Console.run_bind]
  cases dryRun with
  | true =>
      have reports : Console.run (onHost .workspace (HostTask.report .documentKept)) c =
          (.done (), c.report .documentKept) := rfl
      rw [if_pos rfl, reports]
      dsimp only [Ending.andThen]
      rw [run_verdict]
      exact .dry
  | false =>
      rw [if_neg Bool.false_ne_true]
      rcases run_save s.dataFile (w.capture store') c with
        ⟨made, files, folder, written, saves⟩ | ⟨left, refuses, fails⟩
      · rw [saves]
        dsimp only [Ending.andThen]
        rw [run_verdict]
        obtain ⟨stored, -⟩ := Workspace.stored_of_found prepared.loaded
        exact .saved folder written
          ⟨FileTree.readText?_of_writeText written, Workspace.parse_capture stored⟩
      · rw [fails]
        exact .unsaved refuses fun made folder => refuses.readText? folder

theorem Concludes.ended {dryRun : Bool} {result : Ending CliError Unit × Console}
    (concludes : Concludes s w endings store c dryRun result) : result.1 ≠ .unfinished := by
  have judged : verdict endings ≠ .unfinished := by
    rw [verdict]
    split <;> nofun
  cases concludes with
  | dry | saved => exact judged
  | unsaved => nofun

end

namespace Undefined

def settings : Settings := ⟨"data.json", "info", false⟩

def text : String :=
  "\x7b\"programs\":[[\x7b\"7.0\":[\"x\",\x7b\"variable\":\"y\"\x7d]\x7d]," ++
    "[\x7b\"7.0\":[\"x\",2]\x7d]],\"variables\":\x7b\"x\":1\x7d\x7d"

def workspace : Workspace where
  credentials := .empty
  programs :=
    [.array [.object [("7.0", .array [.string "x", .object [("variable", .string "y")]])]],
      .array [.object [("7.0", .array [.string "x", .number (.natural 2)])]]]
  bindings := .ofList [("x", .number (.natural 1))]

def selected : List (Nat × List (Node Block)) :=
  [(0, [.block .assign [.literal (.text "x"), .node (.reference (.builtin .reference) "y")]]),
    (1, [.block .assign [.literal (.text "x"), .literal (.integer 2)]])]

def before : Console where
  surroundings := { (Machine.bare .empty).surroundings with
    files := FileTree.empty.set ["data.json"] (.file (.text text)) }
  output := ""
  errors := ""

end Undefined

end Cli

end BlockScript
