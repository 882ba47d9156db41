import PluginBridge.Storage.Interface

/-!
# Operations on the storage in memory

Everything that can be asked of a tree or done to it, as data, so that a course of operations is a
list.  `perform` carries one out.
-/

namespace PluginBridge.FileTree

/-- One thing to ask or do. -/
inductive Operation where
  | write (path : String) (data : ByteArray)
  | makeDirectory (path : String)
  | makeDirectories (path : String)
  | makeSpecial (path : String)
  | remove (path : String)
  | stat (path : String)
  | list (path : String)
  | checkDirectory (path : String)
  | bytesHeld
  | quota
  | visits
  deriving DecidableEq

/-- What an operation gives if it is not refused. -/
inductive Answer where
  | done
  | stat (stat : NodeStat)
  | children (entries : List Child)
  | bytes (count : Nat)
  | visits (visits : List Visit)
  deriving DecidableEq, Repr

/-- Carries out an operation: the tree afterwards, and the answer. -/
def perform (tree : FileTree) : Operation → FileTree × Except StorageError Answer
  | .write path data => changed (tree.write path data)
  | .makeDirectory path => changed (tree.makeDirectory path)
  | .makeDirectories path => changed (tree.makeDirectories path)
  | .makeSpecial path => changed (tree.makeSpecial path)
  | .remove path => changed (tree.remove path)
  | .stat path => (tree, (tree.stat path).map .stat)
  | .list path => (tree, (tree.list path).map .children)
  | .checkDirectory path => (tree, (tree.checkDirectory path).map fun _ => .done)
  | .bytesHeld => (tree, .ok (.bytes tree.bytesHeld))
  | .quota => (tree, .ok (.bytes tree.quota.toNat))
  | .visits => (tree, .ok (.visits tree.visits))
where
  changed (change : Change) : FileTree × Except StorageError Answer :=
    (change.1, change.2.map fun _ => .done)

/-- Carries out operations in order: the last tree, and all answers. -/
def performAll (tree : FileTree) : List Operation → FileTree × List (Except StorageError Answer)
  | [] => (tree, [])
  | operation :: rest =>
    let (tree, answer) := tree.perform operation
    let (tree, answers) := tree.performAll rest
    (tree, answer :: answers)

end PluginBridge.FileTree
