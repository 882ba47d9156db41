import PluginBridge.Storage.Basic
import PluginBridge.Storage.Path
import PluginBridge.Storage.Table

/-!
# Storage in memory

A tree of files, directories and special nodes that is held in one table: the keys are the normal
spellings of the paths, so every spelling of a path addresses the same entry, and the entries below
a directory are a stretch of neighbouring keys.

An operation that changes the tree answers with the tree that it leaves behind, also when it is
refused: the directories on the way to a path are made one at a time, before everything has been
checked.
-/

namespace PluginBridge

/-- Nodes are compared by this test, also where another library brings its own. -/
instance Node.decideData : DecidableEq ByteArray := ByteArray.instDecidableEq

/-- What stands at a path. -/
inductive Node where
  | file (data : ByteArray)
  | directory
  /-- A node that is neither a file nor a directory. -/
  | special
  deriving DecidableEq, Inhabited

namespace Node

/-- The kind under which a node is listed. -/
def kind : Node → NodeKind
  | file _ => .file
  | directory => .directory
  | special => .other

/-- The bytes that a node holds; only files hold any. -/
def size : Node → Nat
  | file data => data.size
  | _ => 0

/-- What is told about a node. -/
def stat : Node → NodeStat
  | file data => .file data.size
  | directory => .directory
  | special => .other

/-- The status marks a file exactly where the listing shows one. -/
theorem isFile_stat (node : Node) : node.stat.isFile ↔ node.kind = .file := by
  cases node <;> simp [stat, kind, NodeStat.file, NodeStat.directory, NodeStat.other]

theorem isDirectory_stat (node : Node) : node.stat.isDirectory ↔ node.kind = .directory := by
  cases node <;> simp [stat, kind, NodeStat.file, NodeStat.directory, NodeStat.other]

theorem size_stat (node : Node) : node.stat.size = node.size := by
  cases node <;> rfl

end Node

/-- A tree of nodes, and the number of bytes that its files may hold together. -/
structure FileTree where
  entries : Table Node
  quota : UInt64
  deriving DecidableEq

namespace FileTree

/-! ## Making a tree -/

/-- The tree that holds only the root directory. -/
def rootOnly (quota : UInt64) : FileTree :=
  { entries := Table.empty.insert "/" .directory, quota }

instance : Inhabited FileTree := ⟨rootOnly defaultQuota⟩

/-- The tree after an operation, and whether the operation was refused. -/
abbrev Change := FileTree × Except StorageError Unit

/-- The bytes that all files hold. -/
def bytesHeld (tree : FileTree) : Nat :=
  tree.entries.entries.foldr (fun e held => e.2.size + held) 0

/-- Makes each of `dirs` a directory, in order, and stops at one that is something else. -/
def ensureDirectories : List String → Table Node → Table Node × Except StorageError Unit
  | [], entries => (entries, .ok ())
  | dir :: rest, entries =>
    match entries.get? dir with
    | none => ensureDirectories rest (entries.insert dir .directory)
    | some .directory => ensureDirectories rest entries
    | some _ => (entries, .error (.notADirectory dir))

/-- Makes the directories on the way to `path`, then goes on with the tree that has them. -/
def withAncestors (tree : FileTree) (path : String) (next : Table Node → Change) : Change :=
  match ensureDirectories (Path.ancestors path) tree.entries with
  | (entries, .ok ()) => next entries
  | (entries, .error err) => ({ tree with entries }, .error err)

/-- Writes a whole file, new or not.  The bytes that it held before are released first.  The quota
is checked before any directory on the way. -/
def write (tree : FileTree) (path : String) (data : ByteArray) : Change :=
  let path := Path.normalize path
  match tree.entries.get? path with
  | some .directory => (tree, .error (.isADirectory path))
  | some .special => (tree, .error (.notARegularFile path))
  | found =>
    let wanted := tree.bytesHeld - (found.map Node.size).getD 0 + data.size
    if wanted > tree.quota.toNat then (tree, .error (.quotaExceeded path wanted tree.quota))
    else tree.withAncestors path fun entries =>
      ({ tree with entries := entries.insert path (.file data) }, .ok ())

/-- Makes a directory in one that exists. -/
def makeDirectory (tree : FileTree) (path : String) : Change :=
  let path := Path.normalize path
  let create : Change :=
    if (tree.entries.get? path).isSome then (tree, .error (.alreadyExists path))
    else ({ tree with entries := tree.entries.insert path .directory }, .ok ())
  match Path.parent? path with
  | none => create
  | some parent =>
    match tree.entries.get? parent with
    | some .directory => create
    | some _ => (tree, .error (.notADirectory parent))
    | none => (tree, .error (.parentMissing parent))

/-- Makes a directory and those on the way to it; one that exists already is kept. -/
def makeDirectories (tree : FileTree) (path : String) : Change :=
  let path := Path.normalize path
  tree.withAncestors path fun entries =>
    match entries.get? path with
    | none => ({ tree with entries := entries.insert path .directory }, .ok ())
    | some .directory => ({ tree with entries }, .ok ())
    | some _ => ({ tree with entries }, .error (.alreadyExists path))

/-- Makes a special node and the directories on the way to it. -/
def makeSpecial (tree : FileTree) (path : String) : Change :=
  let path := Path.normalize path
  tree.withAncestors path fun entries =>
    if (entries.get? path).isSome then ({ tree with entries }, .error (.alreadyExists path))
    else ({ tree with entries := entries.insert path .special }, .ok ())

/-- Removes a file, a special node or an empty directory. -/
def remove (tree : FileTree) (path : String) : Change :=
  let path := Path.normalize path
  if path = "/" then (tree, .error .cannotRemoveRoot)
  else if tree.entries.entriesUnder (path ++ "/") ≠ [] then
    (tree, .error (.directoryNotEmpty path))
  else if (tree.entries.get? path).isSome then
    ({ tree with entries := tree.entries.erase path }, .ok ())
  else (tree, .error (.notFound path))

/-- Writes files one after another into an empty tree with the default quota. -/
def ofFiles (files : List (String × ByteArray)) : Except StorageError FileTree :=
  files.foldlM
    (fun tree file => match tree.write file.1 file.2 with
      | (tree, .ok ()) => .ok tree
      | (_, .error err) => .error err)
    (rootOnly defaultQuota)

/-! ## Asking a tree -/

/-- What a path names. -/
def stat (tree : FileTree) (path : String) : Except StorageError NodeStat :=
  let path := Path.normalize path
  match tree.entries.get? path with
  | some node => .ok node.stat
  | none => .error (.notFound path)

/-- The child that a key below a directory stands for: what follows `start` is its name, if it is
one component. -/
def child? (start : String) (entry : String × Node) : Option Child :=
  let name := entry.1.toList.drop start.length
  if name ≠ [] ∧ '/' ∉ name then some ⟨String.ofList name, entry.2.kind⟩ else none

/-- The children of a directory, in name order. -/
def list (tree : FileTree) (path : String) : Except StorageError (List Child) :=
  let path := Path.normalize path
  match tree.entries.get? path with
  | some .directory =>
    let start := Path.childPrefix path
    .ok ((tree.entries.entriesUnder start).filterMap (child? start))
  | some _ => .error (.notADirectory path)
  | none => .error (.directoryNotFound path)

/-- What a walk meets at a path. -/
structure Visit where
  path : String
  /-- The kind under which it is listed. -/
  kind : NodeKind
  /-- The bytes that its status tells. -/
  size : Nat
  deriving DecidableEq, Repr

/-- The walk below a directory, to a depth of `depth`: children in listing order, each directory
before what is in it. -/
def walk (tree : FileTree) : (depth : Nat) → (dir : String) → List Visit
  | 0, _ => []
  | depth + 1, dir =>
    match tree.list dir with
    | .error _ => []
    | .ok children => children.flatMap fun child =>
      let path := Path.childPrefix dir ++ child.name
      let size := match tree.stat path with
        | .ok stat => stat.size
        | .error _ => 0
      ⟨path, child.kind, size⟩ :: if child.kind = .directory then tree.walk depth path else []

/-- Everything in the tree but its root.  No path is deeper than the number of entries. -/
def visits (tree : FileTree) : List Visit :=
  tree.walk tree.entries.entries.length "/"

end FileTree

end PluginBridge
