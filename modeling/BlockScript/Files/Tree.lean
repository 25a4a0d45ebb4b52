import BlockScript.Files.Pathname
import BlockScript.Table

/-!
A tree of files and folders.

The tree holds what lies below the working folder, and whatever has been made elsewhere.  A walk
takes one step after another and needs a folder under its feet; the operations of the tree say
what happens at its end.
-/

namespace BlockScript

inductive Content where
  | text (s : String)
  | binary (bytes : List UInt8)
deriving DecidableEq, Repr

inductive FileEntry where
  | folder
  | file (content : Content)
deriving DecidableEq, Repr

/-- A place is the list of names that lead to it. Names above the working folder are `..`, and an
absolute place begins with `/`. -/
abbrev Place := List String

inductive FileNode where
  | file (content : Content)
  | folder (members : List (String × FileNode))

namespace FileNode

def entry : FileNode → FileEntry
  | file content => .file content
  | folder _ => .folder

def ofEntry : FileEntry → FileNode
  | .file content => file content
  | .folder => folder []

def members : FileNode → List (String × FileNode)
  | file _ => []
  | folder members => members

def find? : Place → FileNode → Option FileNode
  | [], node => some node
  | name :: rest, node => (findEntry name node.members).bind (find? rest)

/-- Puts an entry at a place below a node, making folders of what stands on the way. -/
def put (entry : FileEntry) : Place → FileNode → FileNode
  | [], _ => ofEntry entry
  | name :: rest, node =>
    let member := (findEntry name node.members).getD (folder [])
    folder (setEntry name (put entry rest member) node.members)

mutual

def listing (path : String) : FileNode → List (String × FileEntry)
  | file content => [(path, .file content)]
  | folder members => (path, .folder) :: listMembers (path ++ "/") members

def listMembers (way : String) : List (String × FileNode) → List (String × FileEntry)
  | [] => []
  | (name, node) :: rest => node.listing (way ++ name) ++ listMembers way rest

end

end FileNode

structure FileTree where
  root : FileNode

inductive FileError where
  | notFound
  | notFolder
  | alreadyExists
  | isFolder
  | invalidPath
deriving DecidableEq, Repr

namespace FileTree

def empty : FileTree := ⟨.folder []⟩

/-- The working folder, the folders above it and the root of absolute places always exist. -/
def isRoot (place : Place) : Bool := place = ["/"] || place.all (· = "..")

def find? (tree : FileTree) (place : Place) : Option FileEntry :=
  if isRoot place then some .folder else (tree.root.find? place).map FileNode.entry

def set (tree : FileTree) (place : Place) (entry : FileEntry) : FileTree :=
  ⟨tree.root.put entry place⟩

def above (place : Place) : Place :=
  if place = ["/"] then place
  else match place.getLast? with
    | none | some ".." => place ++ [".."]
    | _ => place.dropLast

def step (tree : FileTree) (place : Place) (name : String) : Except FileError Place :=
  match tree.find? place with
  | none => .error .notFound
  | some (.file _) => .error .notFolder
  | some .folder =>
    if name = "." then .ok place
    else if name = ".." then .ok (above place)
    else if name.utf8ByteSize ≤ Pathname.nameLimit then .ok (place ++ [name])
    else .error .invalidPath

def start (path : String) : Place := if Pathname.isAbsolute path then ["/"] else []

def walk (tree : FileTree) (path : String) : Except FileError Place :=
  if Pathname.isValid path then (Pathname.steps path).foldlM tree.step (start path)
  else if path.isEmpty then .error .notFound
  else .error .invalidPath

/-- The place of a path and what exists there. A path that ends in a slash leads to folders
only. -/
def look (tree : FileTree) (path : String) : Except FileError (Place × Option FileEntry) := do
  let place ← tree.walk path
  match tree.find? place with
  | some (.file content) =>
    if Pathname.namesFolder path then .error .notFolder
    else return (place, some (.file content))
  | entry => return (place, entry)

def exists? (tree : FileTree) (path : String) : Bool :=
  match tree.look path with
  | .ok (_, some _) => true
  | _ => false

def isFolder (tree : FileTree) (path : String) : Bool :=
  match tree.look path with
  | .ok (_, some .folder) => true
  | _ => false

def readText? (tree : FileTree) (path : String) : Option String :=
  match tree.look path with
  | .ok (_, some (.file (.text s))) => some s
  | _ => none

def fileAt (tree : FileTree) (path : String) : Except FileError (Place × Option Content) := do
  match ← tree.look path with
  | (place, some (.file content)) => return (place, some content)
  | (_, some .folder) => .error .isFolder
  | (place, none) => if Pathname.namesFolder path then .error .isFolder else return (place, none)

def createFile (tree : FileTree) (path : String) : Except FileError FileTree := do
  match ← tree.fileAt path with
  | (_, some _) => return tree
  | (place, none) => return tree.set place (.file (.text ""))

def writeText (tree : FileTree) (path content : String) : Except FileError FileTree := do
  let (place, _) ← tree.fileAt path
  return tree.set place (.file (.text content))

def makeFolder (tree : FileTree) (path : String) : Except FileError FileTree := do
  match tree.look path with
  | .ok (place, none) => return tree.set place .folder
  | .ok (_, some _) => .error .alreadyExists
  | .error e => .error e

def ensureFolder (tree : FileTree) (path : String) : Except FileError FileTree :=
  match tree.makeFolder path with
  | .ok tree => .ok tree
  | .error e => if tree.isFolder path then .ok tree else .error e

/-- Makes the missing folders along the steps from a place. What has been made stays when a later
step fails. -/
def makeWay (tree : FileTree) (place : Place) : List String → FileTree × Except FileError Unit
  | [] => (tree, .ok ())
  | name :: rest =>
    match tree.step place name with
    | .error e => (tree, .error e)
    | .ok place =>
      match tree.find? place with
      | none => makeWay (tree.set place .folder) place rest
      | some _ => makeWay tree place rest

/-- Makes a folder and the missing ones above it: the tree afterwards, and how it ended. The empty
path needs nothing. -/
def createFolder (tree : FileTree) (path : String) : FileTree × Except FileError Unit :=
  if path.isEmpty then (tree, .ok ())
  else if Pathname.isValid path then
    match tree.makeWay (start path) (Pathname.properSteps path).dropLast with
    | (tree, .error e) => (tree, .error e)
    | (tree, .ok ()) =>
      match tree.ensureFolder path with
      | .ok made => (made, .ok ())
      | .error e => (tree, .error e)
  else (tree, .error .invalidPath)

def listing (tree : FileTree) : List (String × FileEntry) :=
  FileNode.listMembers "" (tree.root.members.filter fun (name, _) => name ≠ ".." && name ≠ "/")

end FileTree

end BlockScript
