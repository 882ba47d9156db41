import PluginBridge.Future
import PluginBridge.Storage.FileTree

/-!
# Storages behind the bridge

The bridge asks a storage two questions, and either may have to be waited for.  Whether a path names
a directory follows from its status.
-/

namespace PluginBridge

/-- A storage whose answers depend on a world `ω`. -/
structure Storage (ω : Type) where
  /-- What a path names. -/
  stat : String → Future ω (Except StorageError NodeStat)
  /-- The children of a directory, in the order of the storage. -/
  list : String → Future ω (Except StorageError (List Child))
  /-- The bytes that the storage was acquired for. -/
  quota : UInt64

namespace Storage

/-- Refuses a status that is not that of a directory, naming the path as it was asked about. -/
def directoryOnly (path : String) (status : Except StorageError NodeStat) :
    Except StorageError Unit :=
  status.bind fun stat =>
    if stat.isDirectory then .ok () else .error (.notADirectory path)

/-- Asks whether a path names a directory; anything else is refused. -/
def checkDirectory {ω : Type} (storage : Storage ω) (path : String) :
    Future ω (Except StorageError Unit) :=
  (storage.stat path).map (directoryOnly path)

end Storage

/-! ## Storage in memory -/

/-- The storage in memory: its world is the tree, and every question is answered in its first poll
from the tree at that moment. -/
def FileTree.storage (quota : UInt64) : Storage FileTree where
  stat path := .poll fun tree => .ready (tree.stat path)
  list path := .poll fun tree => .ready (tree.list path)
  quota := quota

/-- Whether a path names a directory of the tree. -/
def FileTree.checkDirectory (tree : FileTree) (path : String) : Except StorageError Unit :=
  ((FileTree.storage tree.quota).checkDirectory path).run tree

/-! ## Prepared answers -/

/-- An answer that is fixed beforehand and comes after some polls. -/
structure Prepared (α : Type) where
  pending : Nat := 0
  answer : Except StorageError α

/-- A pending answer takes one poll to start waiting. -/
def Prepared.future {ω α : Type} (prepared : Prepared α) : Future ω (Except StorageError α) :=
  .poll fun _ => .delayed prepared.pending prepared.answer

/-- A storage that answers from two lists of prepared answers, by the exact spelling of the path.
A path without an answer is refused at once. -/
def Storage.scripted {ω : Type} (stat : List (String × Prepared NodeStat))
    (list : List (String × Prepared (List Child))) : Storage ω where
  stat path := find path stat
  list path := find path list
  quota := defaultQuota
where
  find {α : Type} (path : String) (answers : List (String × Prepared α)) :
      Future ω (Except StorageError α) :=
    match answers.lookup path with
    | some prepared => prepared.future
    | none => .ready (.error (.host s!"no script for {path}"))

end PluginBridge
