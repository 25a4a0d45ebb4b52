import BlockScript.Proofs.Catalog.Behaviors
import BlockScript.Proofs.Evaluation.Runs
import BlockScript.Proofs.Files.Writing
import BlockScript.Proofs.Text.Lines

/-!
# Edits of files

A statement that removes or adds lines reads a file, changes its lines and writes all of them back.
On a file that can be read it either gives up and leaves everything as it was, which depends on the
places it names alone (`LineEdit.Fits`), or writes the changed lines (`behavior_edits`).

Not only the named lines are touched.  All lines are written with a line feed at their ends, so that
a line that ends in a carriage return loses it, wherever the edit was made.
-/

namespace BlockScript.Catalog

/-! ## Changes of lines -/

namespace LineEdit

def Fits (count : Nat) : LineEdit → Prop
  | remove start stop => 0 ≤ start.toInt ∧ start.toInt ≤ stop.toInt ∧ stop.toInt ≤ count
  | add _ index => 0 ≤ index.toInt ∧ index.toInt ≤ count

instance (count : Nat) : (edit : LineEdit) → Decidable (edit.Fits count)
  | remove _ _ => inferInstanceAs (Decidable (_ ∧ _ ∧ _))
  | add _ _ => inferInstanceAs (Decidable (_ ∧ _))

def added : LineEdit → List String
  | remove _ _ => []
  | add added _ => added

/-- What an edit makes of the lines: those named are gone, or those added stand at their place. -/
inductive Changes : LineEdit → List String → List String → Prop where
  | remove {start stop : Int64} (before removed after : List String)
      (starts : start.toInt = before.length) (stops : stop.toInt = (before ++ removed).length) :
      Changes (.remove start stop) (before ++ removed ++ after) (before ++ after)
  | add {index : Int64} (before added after : List String) (place : index.toInt = before.length) :
      Changes (.add added index) (before ++ after) (before ++ added ++ after)

theorem boundary_inside {index : Int64} {length place : Nat} (inside : place ≤ length)
    (eq : index.toInt = place) : boundary index length = .ok place := by
  rw [boundary, if_pos ⟨by omega, by omega⟩, eq, Int.toNat_natCast]

theorem boundary_outside {index : Int64} {length : Nat}
    (outside : ¬ (0 ≤ index.toInt ∧ index.toInt ≤ length)) :
    boundary index length = .error (.failed (.indexOutOfRange index length)) := if_neg outside

theorem apply_remove (lines : List String) (start stop : Int64) :
    (remove start stop).apply lines =
      (boundary stop lines.length).bind fun stop =>
        (boundary start stop).bind fun start => .ok (lines.take start ++ lines.drop stop) := rfl

theorem apply_add (lines added : List String) (index : Int64) :
    (add added index).apply lines =
      (boundary index lines.length).bind fun place =>
        .ok (lines.take place ++ added ++ lines.drop place) := rfl

theorem apply_of_changes {edit : LineEdit} {lines result : List String}
    (changes : edit.Changes lines result) : edit.apply lines = .ok result := by
  cases changes with
  | remove before removed after starts stops =>
      have startInside := (List.prefix_append before removed).length_le
      have stopInside := (List.prefix_append (before ++ removed) after).length_le
      rw [apply_remove, boundary_inside stopInside stops, Except.bind,
        boundary_inside startInside starts, Except.bind, List.drop_left, List.append_assoc,
        List.take_left]
  | add before added after place =>
      have inside := (List.prefix_append before after).length_le
      rw [apply_add, boundary_inside inside place, Except.bind, List.take_left, List.drop_left]

theorem exists_parts {lines : List String} {place : Int} (positive : 0 ≤ place)
    (inside : place ≤ lines.length) :
    ∃ before after, lines = before ++ after ∧ place = before.length := by
  refine ⟨lines.take place.toNat, lines.drop place.toNat,
    (List.take_append_drop place.toNat lines).symm, ?_⟩
  rw [List.length_take]
  omega

theorem exists_changes_of_fits {lines : List String} {edit : LineEdit}
    (fits : edit.Fits lines.length) : ∃ result, edit.Changes lines result := by
  cases edit with
  | remove start stop =>
      obtain ⟨positive, ordered, inside⟩ := fits
      obtain ⟨upTo, after, rfl, stops⟩ := exists_parts (Int.le_trans positive ordered) inside
      obtain ⟨before, removed, rfl, starts⟩ := exists_parts positive (stops ▸ ordered)
      exact ⟨_, .remove before removed after starts stops⟩
  | add added index =>
      obtain ⟨positive, inside⟩ := fits
      obtain ⟨before, after, rfl, place⟩ := exists_parts positive inside
      exact ⟨_, .add before added after place⟩

theorem exists_error_of_not_fits {lines : List String} {edit : LineEdit}
    (outside : ¬ edit.Fits lines.length) :
    ∃ index length, edit.apply lines = .error (.failed (.indexOutOfRange index length)) := by
  cases edit with
  | remove start stop =>
      by_cases stopInside : 0 ≤ stop.toInt ∧ stop.toInt ≤ lines.length
      · have startOutside : ¬ (0 ≤ start.toInt ∧ start.toInt ≤ stop.toInt.toNat) := by
          rintro ⟨positive, ordered⟩
          exact outside ⟨positive, by omega, stopInside.2⟩
        have isStop : stop.toInt = stop.toInt.toNat := by omega
        refine ⟨start, stop.toInt.toNat, ?_⟩
        rw [apply_remove, boundary_inside (by omega) isStop, Except.bind,
          boundary_outside startOutside, Except.bind]
      · refine ⟨stop, lines.length, ?_⟩
        rw [apply_remove, boundary_outside stopInside, Except.bind]
  | add added index =>
      refine ⟨index, lines.length, ?_⟩
      rw [apply_add, boundary_outside outside, Except.bind]

theorem Changes.areLines {edit : LineEdit} {lines result : List String}
    (changes : edit.Changes lines result) (areLines : ∀ line ∈ lines, '\n' ∉ line.toList)
    (addedLines : ∀ line ∈ edit.added, '\n' ∉ line.toList) :
    ∀ line ∈ result, '\n' ∉ line.toList := by
  cases changes with
  | remove before removed after =>
      intro line isLine
      refine areLines line ?_
      rcases List.mem_append.1 isLine with isBefore | isAfter
      · exact List.mem_append_left _ (List.mem_append_left _ isBefore)
      · exact List.mem_append_right _ isAfter
  | add before added after =>
      intro line isLine
      rcases List.mem_append.1 isLine with isLine | isAfter
      · rcases List.mem_append.1 isLine with isBefore | isAdded
        · exact areLines line (List.mem_append_left _ isBefore)
        · exact addedLines line isAdded
      · exact areLines line (List.mem_append_right _ isAfter)

end LineEdit

namespace FileBlock

/-! ## Reading -/

def Reads (m : Machine) (path : String) (lines : List String) : Prop :=
  ∃ compute, read.behavior = .expression compute ∧
    m.run (ActionTask.ofHost (compute [.text path])) = (.done (.list (lines.map .text)), m)

variable {m : Machine} {path content : String} {edit : LineEdit}

theorem run_readFile_eq (m : Machine) (path : String) :
    m.run (ActionTask.ofHost (readFile path)) =
      m.run (ActionTask.ofHost (match m.surroundings.files.readText? path with
        | some content => .done (.list ((Text.readLines content).map .text))
        | none => (HostTask.report .readFailed).bind fun _ => .done (.list []))) := by
  rfl

theorem reads_of_readText? (readable : m.surroundings.files.readText? path = some content) :
    Reads m path (Text.readLines content) := by
  refine ⟨_, rfl, (run_readFile_eq m path).trans ?_⟩
  rw [readable]
  rfl

theorem Reads.unique {lines lines' : List String} (first : Reads m path lines)
    (second : Reads m path lines') : lines = lines' := by
  obtain ⟨_, ⟨⟩, ran⟩ := first
  obtain ⟨_, ⟨⟩, ran'⟩ := second
  have same := (Prod.mk.inj (ran.symm.trans ran')).1
  exact List.map_injective_iff.2 (fun _ _ eq => Value.text.inj eq)
    (Value.list.inj (Ending.done.inj same))

/-! ## Writing -/

def Rewrites (m : Machine) (path content : String) (m' : Machine) : Prop :=
  ∃ files, m.surroundings.files.writeText path content = .ok files ∧
    m' = { m with surroundings := { m.surroundings with files } }

theorem Rewrites.readText? {m' : Machine} (rewrites : Rewrites m path content m') :
    m'.surroundings.files.readText? path = some content := by
  obtain ⟨files, writes, rfl⟩ := rewrites
  exact FileTree.readText?_of_writeText writes

structure Edited (m : Machine) (edit : LineEdit) (path : String) (lines : List String)
    (ran : Ending BehaviorError Unit × Machine) : Prop where
  ends : ran.1 = .done () ∨ ∃ index length,
    ran.1 = .failed (.failed (.indexOutOfRange index length))
  done_iff : ran.1 = .done () ↔ edit.Fits lines.length
  failed : ran.1 ≠ .done () → ran.2 = m
  done : ran.1 = .done () → ∃ result, edit.Changes lines result ∧
    Rewrites m path (Text.writeLines result) ran.2 ∧
    Reads ran.2 path (result.flatMap fun line => Text.readLines (line ++ "\n")) ∧
    ((∀ line ∈ edit.added, '\n' ∉ line.toList) →
      Reads ran.2 path (result.map Text.withoutReturn) ∧
      (Reads ran.2 path result ↔ ∀ line ∈ result, Text.endsInReturn line.toList = false))

theorem run_editFile_eq (m : Machine) (path : String) (edit : LineEdit) :
    m.run (ActionTask.ofHost (editFile path edit)) =
      m.run (ActionTask.ofHost (match m.surroundings.files.readText? path with
        | none => HostTask.report .cannotRead
        | some content => (Task.ofExcept (edit.apply (Text.readLines content))).bind fun lines =>
          (HostTask.writeText path (Text.writeLines lines)).bind fun success =>
            reportUnless .cannotWrite success)) := by
  rfl

theorem run_editFile_unreadable (unreadable : m.surroundings.files.readText? path = none) :
    m.run (ActionTask.ofHost (editFile path edit)) =
      (.done (), { m with surroundings := { m.surroundings with
        events := .cannotRead :: m.surroundings.events } }) := by
  rw [run_editFile_eq, unreadable]
  rfl

theorem run_editFile_readable (readable : m.surroundings.files.readText? path = some content) :
    m.run (ActionTask.ofHost (editFile path edit)) =
      m.run (ActionTask.ofHost ((Task.ofExcept (edit.apply (Text.readLines content))).bind
        fun lines => (HostTask.writeText path (Text.writeLines lines)).bind fun success =>
          reportUnless .cannotWrite success)) := by
  rw [run_editFile_eq, readable]

theorem run_editFile_error (readable : m.surroundings.files.readText? path = some content)
    {e : BehaviorError} (error : edit.apply (Text.readLines content) = .error e) :
    m.run (ActionTask.ofHost (editFile path edit)) = (.failed e, m) := by
  rw [run_editFile_readable readable, error]
  rfl

theorem run_writeText_eq (m : Machine) (path new : String) :
    m.run (ActionTask.ofHost ((HostTask.writeText path new).bind fun success =>
        reportUnless .cannotWrite success)) =
      Machine.run
        (ActionTask.ofHost (reportUnless .cannotWrite
          (m.surroundings.settle (m.surroundings.files.writeText path new)).1))
        { m with
          surroundings := (m.surroundings.settle (m.surroundings.files.writeText path new)).2 } := by
  rfl

theorem run_editFile_ok (readable : m.surroundings.files.readText? path = some content)
    {result : List String} (changed : edit.apply (Text.readLines content) = .ok result) :
    ∃ m', m.run (ActionTask.ofHost (editFile path edit)) = (.done (), m') ∧
      Rewrites m path (Text.writeLines result) m' := by
  obtain ⟨files, writes⟩ :=
    FileTree.exists_writeText_of_readText? readable (Text.writeLines result)
  refine ⟨{ m with surroundings := { m.surroundings with files } }, ?_, files, writes, rfl⟩
  rw [run_editFile_readable readable, changed]
  refine (run_writeText_eq m path _).trans ?_
  rw [writes]
  rfl

theorem editFile_edited (readable : m.surroundings.files.readText? path = some content) :
    Edited m edit path (Text.readLines content)
      (m.run (ActionTask.ofHost (editFile path edit))) := by
  by_cases fits : edit.Fits (Text.readLines content).length
  · obtain ⟨result, changes⟩ := LineEdit.exists_changes_of_fits fits
    obtain ⟨m', ran, rewrites⟩ := run_editFile_ok readable (LineEdit.apply_of_changes changes)
    rw [ran]
    have reads := reads_of_readText? rewrites.readText?
    exact {
      ends := .inl rfl
      done_iff := iff_of_true rfl fits
      failed := fun undone => absurd rfl undone
      done := by
        refine fun _ => ⟨result, changes, rewrites, Text.readLines_writeLines result ▸ reads, ?_⟩
        intro addedLines
        have areLines := changes.areLines
          (fun _ isLine => Text.newline_not_mem_of_mem_readLines isLine) addedLines
        rw [Text.readLines_writeLines_of_lines areLines] at reads
        refine ⟨reads, ?_⟩
        rw [← Text.map_withoutReturn_eq_self_iff]
        exact ⟨fun same => reads.unique same, fun same => same ▸ reads⟩ }
  · obtain ⟨index, length, error⟩ := LineEdit.exists_error_of_not_fits fits
    rw [run_editFile_error readable error]
    exact {
      ends := .inr ⟨index, length, rfl⟩
      done_iff := iff_of_false (by rintro ⟨⟩) fits
      failed := fun _ => rfl
      done := by rintro ⟨⟩ }

/-! ## The statements -/

inductive Asks : FileBlock → Arguments → LineEdit → String → Prop where
  | removeLines (start stop : Int64) (path : String) :
      Asks .removeLines [.integer start, .integer stop, .text path] (.remove start stop) path
  | addLines (added : List Value) (index : Int64) (path : String) :
      Asks .addLines [.list added, .integer index, .text path]
        (.add (added.map Value.display) index) path

variable {block : FileBlock} {args : Arguments}

theorem exists_asks (edits : block = .removeLines ∨ block = .addLines)
    (fit : List.Forall₂ SlotKind.Accepts block.slots args) :
    ∃ edit path, block.Asks args edit path := by
  rcases edits with rfl | rfl
  · obtain _ | ⟨isStart, _ | ⟨isStop, _ | ⟨isText, _ | -⟩⟩⟩ := fit
    obtain ⟨start, rfl⟩ := exists_integer_of_accepts isStart
    obtain ⟨stop, rfl⟩ := exists_integer_of_accepts isStop
    obtain ⟨path, rfl⟩ := exists_text_of_accepts isText
    exact ⟨_, path, .removeLines start stop path⟩
  · obtain _ | ⟨isList, _ | ⟨isIndex, _ | ⟨isText, _ | -⟩⟩⟩ := fit
    obtain ⟨added, rfl⟩ := exists_list_of_accepts isList
    obtain ⟨index, rfl⟩ := exists_integer_of_accepts isIndex
    obtain ⟨path, rfl⟩ := exists_text_of_accepts isText
    exact ⟨_, path, .addLines added index path⟩

theorem exists_run_eq_editFile (asks : block.Asks args edit path) :
    ∃ run, block.behavior = .statement run ∧
      run args = ActionTask.ofHost (editFile path edit) := by
  cases asks <;> exact ⟨_, rfl, rfl⟩

/-- A statement that changes the lines of a file that can be read does all of it or nothing.  It
succeeds exactly if the places it names are in the file; then reading gives the changed lines, but
for the carriage returns at their ends. -/
theorem behavior_edits (m : Machine) {block : FileBlock} {args : Arguments}
    (edits : block = .removeLines ∨ block = .addLines)
    (fit : List.Forall₂ SlotKind.Accepts block.slots args) :
    ∃ run edit path, block.behavior = .statement run ∧ block.Asks args edit path ∧
      (∀ content, m.surroundings.files.readText? path = some content →
        Reads m path (Text.readLines content) ∧
        Edited m edit path (Text.readLines content) (m.run (run args))) ∧
      (m.surroundings.files.readText? path = none →
        m.run (run args) = (.done (), { m with surroundings := { m.surroundings with
          events := .cannotRead :: m.surroundings.events } })) := by
  obtain ⟨edit, path, asks⟩ := exists_asks edits fit
  obtain ⟨run, isRun, runs⟩ := exists_run_eq_editFile asks
  refine ⟨run, edit, path, isRun, asks, fun content readable => ?_, fun unreadable => ?_⟩
  · exact ⟨reads_of_readText? readable, runs ▸ editFile_edited readable⟩
  · exact (congrArg m.run runs).trans (run_editFile_unreadable unreadable)

/-- A file holds one line, which ends in a carriage return.  Removing no line at all from it takes
the carriage return away. -/
theorem behavior_edits_return :
    let files := FileTree.empty.set ["f"] (.file (.text "a\r\r\n"))
    let m := { Machine.bare .empty with surroundings := { (Machine.bare .empty).surroundings with
      files } }
    ∃ run m', removeLines.behavior = .statement run ∧
      m.run (run [.integer 0, .integer 0, .text "f"]) = (.done (), m') ∧
      Reads m "f" ["a\r"] ∧ Reads m' "f" ["a"] ∧ ¬ Reads m' "f" ["a\r"] := by
  intro files m
  have fit : List.Forall₂ SlotKind.Accepts removeLines.slots
      [.integer 0, .integer 0, .text "f"] :=
    .cons (fun kind eq => Option.some.inj eq) (.cons (fun kind eq => Option.some.inj eq)
      (.cons (fun kind eq => Option.some.inj eq) .nil))
  obtain ⟨run, edit, path, isRun, asks, readable, -⟩ := behavior_edits m (.inl rfl) fit
  cases asks
  obtain ⟨reads, edited⟩ := readable "a\r\r\n" (by decide +kernel)
  have isDone := edited.done_iff.2 (by decide +kernel)
  obtain ⟨result, changes, -, -, after⟩ := edited.done isDone
  have isResult : result = ["a\r"] :=
    (Except.ok.inj ((LineEdit.apply_of_changes changes).symm.trans (by decide +kernel)))
  obtain ⟨readsAfter, same⟩ := after (by rintro _ ⟨⟩)
  subst isResult
  refine ⟨run, _, isRun, Prod.ext isDone rfl, reads, readsAfter, fun kept => ?_⟩
  exact absurd (same.1 kept) (by decide)

end FileBlock

end BlockScript.Catalog
