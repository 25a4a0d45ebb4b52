import BlockScript.Files.Tree

/-!
# Reading what was written

Writing a file leaves every folder a folder (`find?_set_folder`), so that a walk takes the same
steps as before, and `readText?_of_writeText` finds the text at its end.
-/

namespace BlockScript

namespace FileNode

@[simp] theorem members_folder (entries : List (String × FileNode)) :
    (folder entries).members = entries := rfl

theorem find?_put_self (entry : FileEntry) (place : Place) (node : FileNode) :
    (node.put entry place).find? place = some (ofEntry entry) := by
  induction place generalizing node with
  | nil => rfl
  | cons name rest ih =>
      simp only [put, find?, members_folder, Table.findEntry_setEntry, if_pos, Option.bind_some]
      exact ih _

theorem find?_put_folder {entry : FileEntry} {place q : Place} {node : FileNode}
    (free : ∀ members, node.find? place ≠ some (folder members))
    (found : ∃ members, node.find? q = some (folder members)) :
    ∃ members, (node.put entry place).find? q = some (folder members) := by
  induction place generalizing node q with
  | nil =>
      obtain ⟨members, found⟩ := found
      cases node with
      | file content =>
          cases q with
          | nil => cases found
          | cons name rest => cases found
      | folder members => exact absurd rfl (free members)
  | cons name rest ih =>
      cases q with
      | nil => exact ⟨_, rfl⟩
      | cons other q =>
          simp only [put, find?, members_folder, Table.findEntry_setEntry] at found ⊢
          -- a folder on the way is put there again, with its other members
          by_cases same : other = name
          · subst same
            obtain ⟨folders, found⟩ := found
            obtain ⟨member, here, found⟩ := Option.bind_eq_some_iff.1 found
            have free' : ∀ members, member.find? rest ≠ some (folder members) := by
              intro members eq
              exact free members (by simp [find?, here, eq])
            simpa [here] using ih free' ⟨folders, found⟩
          · simpa [same] using found

end FileNode

namespace FileTree

variable {tree tree' : FileTree}

theorem find?_root {place : Place} (root : isRoot place = true) : tree.find? place = some .folder :=
  if_pos root

theorem find?_set_self {place : Place} (entry : FileEntry) (below : isRoot place = false) :
    (tree.set place entry).find? place = some entry := by
  rw [find?, if_neg (by simp [below]), set, FileNode.find?_put_self]
  cases entry <;> rfl

theorem find?_set_folder (entry : FileEntry) {place q : Place}
    (free : tree.find? place ≠ some .folder) (found : tree.find? q = some .folder) :
    (tree.set place entry).find? q = some .folder := by
  have below : isRoot place = false := Bool.eq_false_iff.2 fun root => free (find?_root root)
  by_cases root : isRoot q = true
  · exact find?_root root
  · have folder {node : FileNode} (eq : node.entry = .folder) :
        ∃ members, node = .folder members := by
      cases node with
      | file content => cases eq
      | folder members => exact ⟨members, rfl⟩
    rw [find?, if_neg root] at found ⊢
    rw [find?, if_neg (by simp [below])] at free
    obtain ⟨node, here, isFolder⟩ := Option.map_eq_some_iff.1 found
    obtain ⟨members, rfl⟩ := folder isFolder
    have free' (members : List (String × FileNode)) :
        tree.root.find? place ≠ some (.folder members) := by
      intro eq
      exact free (by rw [eq]; rfl)
    obtain ⟨members', there⟩ := FileNode.find?_put_folder free' ⟨members, here⟩
    rw [set, there]
    rfl

theorem walk_of_folders {path : String} {place : Place}
    (folders : ∀ q, tree.find? q = some .folder → tree'.find? q = some .folder)
    (walks : tree.walk path = .ok place) : tree'.walk path = .ok place := by
  have step {q q' : Place} {name : String} (steps : tree.step q name = .ok q') :
      tree'.step q name = .ok q' := by
    unfold step at steps ⊢
    split at steps
    · cases steps
    · cases steps
    · next here =>
      rw [folders q here]
      exact steps
  have fold (names : List String) {q : Place} (folds : names.foldlM tree.step q = .ok place) :
      names.foldlM tree'.step q = .ok place := by
    induction names generalizing q with
    | nil => exact folds
    | cons name names ih =>
        rw [List.foldlM_cons] at folds ⊢
        cases next : tree.step q name with
        | error e =>
            rw [next] at folds
            cases folds
        | ok q' =>
            rw [next] at folds
            rw [step next]
            exact ih folds
  unfold walk at walks ⊢
  split at walks
  · next valid =>
    rw [if_pos valid]
    exact fold _ walks
  · split at walks <;> cases walks

theorem fileAt_eq_ok {path : String} {place : Place} {content : Option Content}
    (found : tree.fileAt path = .ok (place, content)) :
    tree.walk path = .ok place ∧ tree.find? place ≠ some .folder ∧
      Pathname.namesFolder path = false := by
  unfold fileAt look at found
  cases walks : tree.walk path with
  | error e => simp [walks, bind, Except.bind] at found
  | ok q =>
      simp only [walks, bind, Except.bind, pure, Except.pure] at found
      cases here : tree.find? q with
      | none =>
          simp only [here] at found
          cases names : Pathname.namesFolder path with
          | false =>
              simp only [names, Bool.false_eq_true, if_false, Except.ok.injEq,
                Prod.mk.injEq] at found
              obtain ⟨rfl, -⟩ := found
              exact ⟨rfl, by simp [here], rfl⟩
          | true => simp [names] at found
      | some entry =>
          cases entry with
          | folder => simp [here] at found
          | file held =>
              cases names : Pathname.namesFolder path with
              | false =>
                  simp only [here, names, Bool.false_eq_true, if_false, Except.ok.injEq,
                    Prod.mk.injEq] at found
                  obtain ⟨rfl, -⟩ := found
                  exact ⟨rfl, by simp [here], rfl⟩
              | true => simp [here, names] at found

theorem look_of_writeText {path content : String}
    (writes : tree.writeText path content = .ok tree') :
    ∃ place, tree'.look path = .ok (place, some (.file (.text content))) := by
  unfold writeText at writes
  cases found : tree.fileAt path with
  | error e => simp [found, bind, Except.bind] at writes
  | ok result =>
      obtain ⟨place, held⟩ := result
      simp only [found, bind, Except.bind, pure, Except.pure, Except.ok.injEq] at writes
      subst writes
      obtain ⟨walks, free, names⟩ := fileAt_eq_ok found
      have below : isRoot place = false := Bool.eq_false_iff.2 fun root => free (find?_root root)
      have walks' := walk_of_folders (fun q => find?_set_folder (.file (.text content)) free) walks
      refine ⟨place, ?_⟩
      simp only [look, walks', bind, Except.bind, pure, Except.pure, find?_set_self _ below, names,
        Bool.false_eq_true, if_false]

theorem readText?_of_writeText {path content : String}
    (writes : tree.writeText path content = .ok tree') : tree'.readText? path = some content := by
  obtain ⟨place, look⟩ := look_of_writeText writes
  simp only [readText?, look]

theorem exists_writeText_of_readText? {path content : String}
    (reads : tree.readText? path = some content) (new : String) :
    ∃ tree', tree.writeText path new = .ok tree' := by
  unfold readText? at reads
  split at reads
  next place s look =>
    have found : tree.fileAt path = .ok (place, some (.text s)) := by
      rw [fileAt, look]
      rfl
    rw [writeText, found]
    exact ⟨_, rfl⟩
  next => cases reads

theorem exists?_of_writeText {path content : String}
    (writes : tree.writeText path content = .ok tree') : tree'.exists? path = true := by
  obtain ⟨place, look⟩ := look_of_writeText writes
  simp only [exists?, look]

end FileTree

end BlockScript
