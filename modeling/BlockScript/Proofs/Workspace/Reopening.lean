import BlockScript.Cli.Commands
import BlockScript.Proofs.Evaluation.Runs
import BlockScript.Proofs.Files.Writing
import BlockScript.Proofs.Workspace.Saving

/-!
# Opening what a run has saved

`run` opens a workspace, runs programs of it and saves it with the variables in the state the
programs have left them in.  `reopens_after_run` says what opening makes of the saved file, whatever
has happened during the run: the run only counts through the workspace that it has read and through
the variables in the end.  They are found again unless one of them cannot be written so that it is
read again, and then nothing of the file can be used.
-/

namespace BlockScript

namespace Workspace

theorem stored_of_filled {w filled : Workspace} (stored : w.Stored)
    (fills : filled = if w.programs.isEmpty then { w with programs := [emptyProgram] } else w) :
    filled.Stored ∧ filled.programs.isEmpty = false := by
  subst fills
  split
  · exact ⟨{ stored with programs := stored_initial.programs }, rfl⟩
  · next some => exact ⟨stored, Bool.eq_false_iff.2 some⟩

def found (files : FileTree) (path : String) : Except WorkspaceError Workspace :=
  if files.exists? path then
    match files.readText? path with
    | none => .error (.inaccessible path)
    | some text => (parse text).map fun w =>
      if w.programs.isEmpty then { w with programs := [emptyProgram] } else w
  else .ok initial

theorem stored_of_found {files : FileTree} {path : String} {w : Workspace}
    (isFound : found files path = .ok w) : w.Stored ∧ w.programs.isEmpty = false := by
  unfold found at isFound
  split at isFound
  · cases read : files.readText? path with
    | none =>
        rw [read] at isFound
        cases isFound
    | some text =>
        simp only [read] at isFound
        cases parsed : parse text with
        | error e =>
            rw [parsed] at isFound
            cases isFound
        | ok w' =>
            rw [parsed] at isFound
            exact stored_of_filled (stored_of_parse parsed) (Except.ok.inj isFound).symm
  · obtain rfl := Except.ok.inj isFound
    exact ⟨stored_initial, rfl⟩

theorem found_of_writeText {files files' : FileTree} {path content : String}
    (written : files.writeText path content = .ok files') :
    found files' path = (parse content).map fun w =>
      if w.programs.isEmpty then { w with programs := [emptyProgram] } else w := by
  rw [found, if_pos (FileTree.exists?_of_writeText written),
    FileTree.readText?_of_writeText written]

end Workspace

namespace FileTree

def Foldered (files : FileTree) (path : String) (made : FileTree) : Prop :=
  files.createFolder ((Pathname.parent? path).getD "") = (made, .ok ())

/-- A text cannot be kept at a path, since its folder cannot be made or the file not be written. -/
def Refuses (files : FileTree) (path text : String) (left : FileTree) : Prop :=
  (∃ e, files.createFolder ((Pathname.parent? path).getD "") = (left, .error e)) ∨
    files.Foldered path left ∧ ∃ e, left.writeText path text = .error e

variable {files made left : FileTree} {path text : String}

theorem Refuses.readText? (refuses : files.Refuses path text left)
    (folder : files.Foldered path made) : made.readText? path = none := by
  rcases refuses with ⟨e, refused⟩ | ⟨folder', e, refused⟩
  · cases (Prod.mk.inj (folder.symm.trans refused)).2
  · obtain ⟨rfl, -⟩ := Prod.mk.inj (folder.symm.trans folder')
    cases readable : made.readText? path with
    | none => rfl
    | some content =>
        obtain ⟨files, written⟩ := exists_writeText_of_readText? readable text
        cases written.symm.trans refused

end FileTree

namespace Console

def withFiles (c : Console) (files : FileTree) : Console :=
  { c with surroundings := { c.surroundings with files } }

def report (c : Console) (event : Event) : Console :=
  { c with surroundings := { c.surroundings with events := event :: c.surroundings.events } }

theorem run_bind {ε α β : Type} (t : ConsoleTask ε α) (f : α → ConsoleTask ε β) (c : Console) :
    Console.run (t.bind f) c = Ending.andThen (fun a c => Console.run (f a) c) (Console.run t c) :=
  @Task.run_bind signature ε α β Console answer t f c

end Console

namespace Cli

section
variable {ε α : Type} {wrap : ε → CliError} {c : Console} {path : String}

theorem run_pathExists (f : Bool → HostTask ε α) :
    Console.run (onHost wrap (HostTask.pathExists path >>= f)) c =
      Console.run (onHost wrap (f (c.surroundings.files.exists? path))) c := rfl

theorem run_readText (f : Option String → HostTask ε α) :
    Console.run (onHost wrap (HostTask.readText path >>= f)) c =
      Console.run (onHost wrap (f (c.surroundings.files.readText? path))) c := rfl

theorem run_createFolder (f : Bool → HostTask ε α) :
    Console.run (onHost wrap (HostTask.createFolder path >>= f)) c =
      Console.run (onHost wrap (f (c.surroundings.files.createFolder path).2.isOk))
        (c.withFiles (c.surroundings.files.createFolder path).1) := rfl

theorem run_writeText {content : String} (f : Bool → HostTask ε α) :
    Console.run (onHost wrap (HostTask.writeText path content >>= f)) c =
      match c.surroundings.files.writeText path content with
      | .ok files => Console.run (onHost wrap (f true)) (c.withFiles files)
      | .error _ => Console.run (onHost wrap (f false)) c := by
  have settles : Console.run (onHost wrap (HostTask.writeText path content >>= f)) c =
      Console.run
        (onHost wrap (f (c.surroundings.settle (c.surroundings.files.writeText path content)).1))
        { c with
          surroundings :=
            (c.surroundings.settle (c.surroundings.files.writeText path content)).2 } := rfl
  rw [settles]
  cases c.surroundings.files.writeText path content <;> rfl

end

def loadEvent (c : Console) (path : String) : Event :=
  if c.surroundings.files.exists? path then .documentLoaded else .documentMissing

theorem run_load (path : String) (c : Console) :
    Console.run (onHost .workspace (Workspace.load path)) c =
      match Workspace.found c.surroundings.files path with
      | .ok w => (.done w, c.report (loadEvent c path))
      | .error e => (.failed (.workspace e), c) := by
  unfold Workspace.load Workspace.found loadEvent
  rw [run_pathExists]
  cases c.surroundings.files.exists? path with
  | false => rfl
  | true =>
      simp only [Bool.not_true, Bool.false_eq_true, if_false, if_true]
      rw [run_readText]
      cases c.surroundings.files.readText? path with
      | none => rfl
      | some text =>
          dsimp only
          cases Workspace.parse text with
          | error e => rfl
          | ok w => rfl

theorem run_save (path : String) (w : Workspace) (c : Console) :
    (∃ made files, c.surroundings.files.Foldered path made ∧
      made.writeText path w.toText = .ok files ∧
      Console.run (onHost .workspace (w.save path)) c =
        (.done (), (c.withFiles files).report .documentSaved)) ∨
    ∃ left, c.surroundings.files.Refuses path w.toText left ∧
      Console.run (onHost .workspace (w.save path)) c =
        (.failed (.workspace (.inaccessible path)), c.withFiles left) := by
  have writes (made : FileTree) (folder : c.surroundings.files.Foldered path made) :
      (∃ files, made.writeText path w.toText = .ok files ∧
        Console.run (onHost .workspace (do
          if !(← HostTask.writeText path w.toText) then .fail (.inaccessible path)
          else HostTask.report .documentSaved)) (c.withFiles made) =
            (.done (), (c.withFiles files).report .documentSaved)) ∨
      c.surroundings.files.Refuses path w.toText made ∧
        Console.run (onHost .workspace (do
          if !(← HostTask.writeText path w.toText) then .fail (.inaccessible path)
          else HostTask.report .documentSaved)) (c.withFiles made) =
            (.failed (.workspace (.inaccessible path)), c.withFiles made) := by
    rw [run_writeText]
    cases written : (c.withFiles made).surroundings.files.writeText path w.toText with
    | ok files => exact .inl ⟨files, written, rfl⟩
    | error e => exact .inr ⟨.inr ⟨folder, e, written⟩, rfl⟩
  unfold Workspace.save
  dsimp only
  split
  · next inside =>
    have folder : c.surroundings.files.Foldered path c.surroundings.files := if_pos inside
    rcases writes _ folder with ⟨files, written, ran⟩ | ⟨refuses, ran⟩
    · exact .inl ⟨_, files, folder, written, ran⟩
    · exact .inr ⟨_, refuses, ran⟩
  · rw [run_createFolder]
    rcases folder : c.surroundings.files.createFolder ((Pathname.parent? path).getD "") with
      ⟨made, e | _⟩
    · exact .inr ⟨made, .inl ⟨e, folder⟩, rfl⟩
    · rcases writes made folder with ⟨files, written, ran⟩ | ⟨refuses, ran⟩
      · exact .inl ⟨made, files, folder, written, ran⟩
      · exact .inr ⟨made, refuses, ran⟩

theorem written_of_run_save {path : String} {w : Workspace} {c c' : Console}
    (ran : Console.run (onHost .workspace (w.save path)) c = (.done (), c')) :
    ∃ files : FileTree, files.writeText path w.toText = .ok c'.surroundings.files := by
  rcases run_save path w c with ⟨made, files, -, written, saved⟩ | ⟨left, -, refused⟩
  · obtain ⟨-, rfl⟩ := Prod.mk.inj (ran.symm.trans saved)
    exact ⟨made, written⟩
  · cases (Prod.mk.inj (ran.symm.trans refused)).1

theorem run_openWorkspace (s : Settings) (c : Console) :
    Console.run (openWorkspace s) c =
      match Workspace.found c.surroundings.files s.dataFile with
      | .error e => (.failed (.workspace e), c)
      | .ok w =>
        (match w.seed .empty with
          | (some e, _) => .failed (.workspace e)
          | (none, store) =>
            .done (w, if s.seedConstants then Store.seedConstants store else store),
        c.report (loadEvent c s.dataFile)) := by
  rw [openWorkspace, Task.bind_eq_bind, Console.run_bind, run_load]
  cases Workspace.found c.surroundings.files s.dataFile with
  | error e => rfl
  | ok w =>
      dsimp only [Ending.andThen]
      rcases w.seed .empty with ⟨_ | e, store⟩
      · rfl
      · rfl

theorem obeys_onHost {ε α : Type} {wrap : ε → CliError} {task : HostTask ε α} {post : α → Prop}
    (h : task.Obeys .free post) : (onHost wrap task).Obeys .free post := by
  induction task with
  | done a => exact h
  | ask request resume ih => exact ⟨trivial, fun answer allowed => ih answer (h.2 answer allowed)⟩
  | fail | crash | unfinished => trivial

theorem obeys_load (path : String) :
    (Workspace.load path).Obeys .free fun w => w.Stored ∧ w.programs.isEmpty = false := by
  unfold Workspace.load
  refine Task.obeys_free_bind fun exists_ => ?_
  cases exists_ with
  | false => exact Task.obeys_free_bind fun _ => ⟨Workspace.stored_initial, rfl⟩
  | true =>
      refine Task.obeys_free_bind fun content => ?_
      cases content with
      | none => trivial
      | some text =>
          refine (Task.obeys_bind _ _ _).2 ((Task.obeys_ofExcept _).2 ⟨?_, fun _ _ => trivial⟩)
          exact fun w parsed => Task.obeys_free_bind fun _ =>
            Workspace.stored_of_filled (Workspace.stored_of_parse parsed) rfl

theorem programs_ends (w : Workspace) :
    (∃ all, programs w = .done all) ∨ ∃ e, programs w = .fail e := by
  unfold programs
  cases w.roots Catalog.registry with
  | ok roots => exact .inl ⟨roots, rfl⟩
  | error e => exact .inr ⟨_, rfl⟩

theorem obeys_runSelected (s : Settings) (program : Option Nat) :
    (runSelected s program).Obeys .free fun (w, _, _) =>
      (w.Stored ∧ w.programs.isEmpty = false) ∧ ∃ all, programs w = .done all := by
  rw [runSelected, Task.bind_eq_bind, Task.obeys_bind, openWorkspace, Task.bind_eq_bind,
    Task.obeys_bind]
  refine (obeys_onHost (obeys_load s.dataFile)).imp fun w read => ?_
  rcases w.seed .empty with ⟨_ | e, store⟩
  · refine (Task.obeys_bind _ _ _).2 ?_
    rcases programs_ends w with ⟨all, built⟩ | ⟨e, broken⟩
    · rw [built]
      exact Task.obeys_free_bind fun selected => Task.obeys_free_bind fun _ => ⟨read, all, built⟩
    · rw [broken]
      trivial
  · trivial

theorem run_eq (s : Settings) (program : Option Nat) : run s program false =
    (runSelected s program).bind fun (w, failures, store) =>
      (onHost .workspace ((w.capture store).save s.dataFile)).bind fun _ =>
        if failures = 0 then .done () else .fail (.failures failures) := rfl

/-- After a run that has saved, opening finds the variables in the state the run has left them in,
unless one of them nests too deep to be read or holds a real that is not finite; then the file is
refused as a whole. -/
theorem reopens_after_run {s s' : Settings} {program : Option Nat} {w : Workspace} {failures : Nat}
    {store : Store} {c c₁ c₂ : Console}
    (ran : (runSelected s program).Leads (.done (w, failures, store)))
    (saved : Console.run (onHost .workspace ((w.capture store).save s.dataFile)) c = (.done (), c₁))
    (same : s'.dataFile = s.dataFile) (kept : c₂.surroundings.files = c₁.surroundings.files)
    (exact : (w.capture store).toJson.ExactReals) :
    (Console.run (openWorkspace s') c₂).1 =
      (if ∀ entry ∈ store.entries, entry.2.nesting ≤ Json.depthLimit - 2 then
        if ∀ entry ∈ store.entries, entry.2.finite = true then
          .done (w.capture store, if s'.seedConstants then Store.seedConstants store else store)
        else .failed (.workspace (.program (.malformed (.literal (.invalidLiteral "null")))))
      else .failed (.workspace .invalid)) ∧
    ∃ all, programs (w.capture store) = .done all := by
  -- all that matters of the run
  obtain ⟨⟨stored, filled⟩, all, built⟩ :=
    (obeys_runSelected s program).of_leads ran fun _ _ => trivial
  obtain ⟨files, written⟩ := written_of_run_save saved
  refine ⟨?_, all, built⟩
  have found : Workspace.found c₂.surroundings.files s'.dataFile =
      if ∀ entry ∈ store.entries, entry.2.nesting ≤ Json.depthLimit - 2 then .ok (w.capture store)
      else .error .invalid := by
    rw [kept, same, Workspace.found_of_writeText written, Workspace.parse_capture stored exact]
    split
    · exact congrArg Except.ok (if_neg (by simp [Workspace.capture, filled]))
    · rfl
  rw [run_openWorkspace]
  by_cases shallow : ∀ entry ∈ store.entries, entry.2.nesting ≤ Json.depthLimit - 2
  · rw [if_pos shallow] at found ⊢
    rw [found]
    dsimp only
    by_cases finite : ∀ entry ∈ store.entries, entry.2.finite = true
    · rw [if_pos finite, Workspace.seed_capture w finite]
    · obtain ⟨seeded, seeds⟩ := Workspace.seed_capture_of_not_finite w finite
      rw [if_neg finite, seeds]
  · rw [if_neg shallow] at found ⊢
    rw [found]

namespace Division

def settings : Settings := ⟨"data.json", "info", false⟩

def program : Json :=
  .array [.object [("7.0", .array [.string "x",
    .object [("0.3", .array [.number (.natural 1), .number (.natural 0)])]])]]

def two : Binary64 := .ofNat 2

theorem two_finite : two.isFinite = true := by decide

theorem two_exact : (Json.Number.real two two_finite).Exact := by
  unfold Json.Number.Exact
  decide +kernel

def workspace : Workspace where
  credentials := .empty
  programs := [program]
  bindings := .ofList [("x", .number (.natural 0)), ("y", .number (.real two two_finite))]

def text : String :=
  "\x7b\"programs\":[[\x7b\"7.0\":[\"x\",\x7b\"0.3\":[1,0]\x7d]\x7d]]," ++
    "\"variables\":\x7b\"x\":0,\"y\":2e0\x7d\x7d"

def before : Console where
  surroundings := { (Machine.bare .empty).surroundings with
    files := FileTree.empty.set ["data.json"] (.file (.text text)) }
  output := ""
  errors := ""

def after : Console :=
  { before.report .documentLoaded with output := "program 0: completed\n" }

def kept : Store := .ofList [("x", .real (.infinity false)), ("y", .real two)]

end Division

open Division in
/-- The quotient is infinite: the run ends well, but the file that it saves is refused. -/
theorem reopens_after_run_division :
    ∃ c, Console.run (run settings none false) before = (.done (), c) ∧
      (Console.run (openWorkspace settings) c).1 =
        .failed (.workspace (.program (.malformed (.literal (.invalidLiteral "null"))))) := by
  have found : Workspace.found before.surroundings.files settings.dataFile = .ok workspace := by rfl
  -- The workspace is put in before the programs run: otherwise each of them would read it again.
  have ran : Console.run (runSelected settings none) before =
      (.done (workspace, 0, kept), after) := by
    rw [runSelected, Task.bind_eq_bind, Console.run_bind, run_openWorkspace, found]
    rfl
  obtain ⟨c, saved⟩ : ∃ c, Console.run (onHost .workspace
      ((workspace.capture kept).save settings.dataFile)) after = (.done (), c) := ⟨_, rfl⟩
  have json : (workspace.capture kept).toJson =
      .object [("programs", .array [program]),
        ("variables", .object [("x", .null), ("y", .number (.real two two_finite))])] := by rfl
  have exact : (workspace.capture kept).toJson.ExactReals := by
    intro x finite holds
    have only : two = x := by simpa [json, program] using holds
    subst only
    exact two_exact
  refine ⟨c, ?_, ?_⟩
  · rw [run_eq, Console.run_bind, ran]
    dsimp only [Ending.andThen]
    rw [Console.run_bind, saved]
    rfl
  · have reopens := (reopens_after_run (Task.leads_of_run ran) saved rfl rfl exact).1
    rwa [if_pos (by decide), if_neg (by decide)] at reopens

end Cli

end BlockScript
