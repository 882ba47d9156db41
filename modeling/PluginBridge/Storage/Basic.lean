import PluginBridge.NodeKind

/-!
# What a storage answers

The answers of a sandboxed storage to questions about paths, and the causes for which it refuses
them.  `StorageError.message` is the wording of a refusal.
-/

namespace PluginBridge

/-- The quota that is asked for unless another one is configured: one mebibyte. -/
def defaultQuota : UInt64 := 1048576

/-- One child of a directory. -/
structure Child where
  name : String
  kind : NodeKind
  deriving DecidableEq, Repr, Inhabited

/-- What a path names, and how many bytes it holds.  A storage marks files and directories apart;
what is neither has no mark. -/
structure NodeStat where
  isFile : Bool := false
  isDirectory : Bool := false
  size : Nat := 0
  deriving DecidableEq, Repr, Inhabited

namespace NodeStat

/-- The status of a file. -/
def file (size : Nat) : NodeStat := { isFile := true, size }

/-- The status of a directory. -/
def directory : NodeStat := { isDirectory := true }

/-- The status of what is neither a file nor a directory. -/
def other : NodeStat := {}

end NodeStat

/-- Why a storage refuses an operation. -/
inductive StorageError where
  /-- Something other than a directory stands where one is needed. -/
  | notADirectory (path : String)
  /-- A directory stands where a file is to be written. -/
  | isADirectory (path : String)
  /-- A special node stands where a file is to be written. -/
  | notARegularFile (path : String)
  /-- The directory that is to hold the new one does not exist. -/
  | parentMissing (parent : String)
  | alreadyExists (path : String)
  | notFound (path : String)
  /-- A directory that is to be listed does not exist. -/
  | directoryNotFound (path : String)
  | directoryNotEmpty (path : String)
  | cannotRemoveRoot
  /-- A write would need `wanted` bytes in all. -/
  | quotaExceeded (path : String) (wanted : Nat) (quota : UInt64)
  /-- A storage outside this library gives its own reason. -/
  | host (reason : String)
  deriving DecidableEq, Repr, Inhabited

/-- The wording of a refusal. -/
def StorageError.message : StorageError → String
  | notADirectory path => s!"Not a directory: {path}"
  | isADirectory path => s!"Is a directory: {path}"
  | notARegularFile path => s!"Not a regular file: {path}"
  | parentMissing parent => s!"Parent directory does not exist: {parent}"
  | alreadyExists path => s!"Already exists: {path}"
  | notFound path => s!"Not found: {path}"
  | directoryNotFound path => s!"Directory not found: {path}"
  | directoryNotEmpty path => s!"Directory not empty: {path}"
  | cannotRemoveRoot => "Cannot remove root"
  | quotaExceeded path wanted quota => s!"Quota exceeded: {path} needs {wanted} of {quota} bytes"
  | host reason => reason

end PluginBridge
