import PluginBridge.Browser.Storage
import PluginBridge.Storage.Interface

/-!
# The private storage of a page

A browser keeps a tree of directories for every origin.  A path is walked from its root, one
directory handle per component.  What a path names is found out by asking for a directory first and
for a file if there is none.
-/

namespace PluginBridge.Browser.PrivateStorage

variable {η : Type} [Handle η]

/-- Walks from a directory along names. -/
def walk (start : η) : List String → Dialogue η (Except Value η)
  | [] => .done (.ok start)
  | name :: rest =>
    (Dialogue.expect (.directory start name) (Settled.ofKind .directory)).onSuccess fun next =>
      walk next rest

/-- The directory of a path. -/
def directory (root : η) (path : String) : Dialogue η (Except Value η) :=
  walk root (Path.components path)

/-- The status of a name in a directory.  Whatever the browser resolves when it is asked for a
directory counts as one. -/
def statIn (parent : η) (name : String) : Dialogue η (Except Value NodeStat) :=
  .ask (.directory parent name) fun
    | .ok _ => .done (.ok .directory)
    | .error _ =>
      (Dialogue.expect (.file parent name) (Settled.ofKind .file)).onSuccess fun handle =>
        (Dialogue.expect (.contents handle) Settled.fileSize).onSuccess fun size =>
          .done (.ok (.file size.toUInt64.toNat))

/-- What a path names.  The root is a directory without asking. -/
def stat (root : η) (path : String) : Dialogue η (Except Value NodeStat) :=
  match (Path.components path).getLast? with
  | none => .done (.ok .directory)
  | some name =>
    (directory root ("/".intercalate (Path.components path).dropLast)).onSuccess fun parent =>
      statIn parent name

/-- An item of a listing as an entry. -/
def entry (item : Item η) : Except Value Child :=
  item.asHandle.map fun handle => ⟨Handle.name handle, Handle.kind handle⟩

/-- The children of a path, in the order of the browser.  One child that is no handle spoils the
listing. -/
def list (root : η) (path : String) : Dialogue η (Except Value (List Child)) :=
  (directory root path).onSuccess fun handle =>
    Dialogue.expect (.children handle) fun settled => settled.items.bind (·.mapM entry)

/-- The storage below a root handle, for the bridge.  Errors are told by their texts. -/
def storage {ω : Type} (api : StorageApi η ω) (root : η) (quota : UInt64) : Storage ω where
  stat path := ((stat root path).future api).map told
  list path := ((list root path).future api).map told
  quota := quota
where
  told {α : Type} (result : Except Value α) : Except StorageError α :=
    result.mapError fun value => .host value.reason

end PluginBridge.Browser.PrivateStorage
