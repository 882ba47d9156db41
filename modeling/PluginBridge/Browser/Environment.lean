import PluginBridge.Browser.PrivateStorage
import PluginBridge.Browser.Touch

/-!
# Acquiring the private storage

A page may have no window and a window no storage.  Where there is one, the browser's estimate of
the available space is asked for first, if it gives one, and a quota beyond it is refused.  Whatever
goes wrong is told by the value that the browser gave or threw.  The acquisition also hands out what
it touched, up to the failure if there was one.
-/

namespace PluginBridge.Browser

/-- The property `estimate` of the storage, and what a call of it does. -/
inductive Estimate where
  /-- The property has this value. -/
  | property (value : Value)
  | throws (value : Value)
  /-- The call returns something that is no promise. -/
  | returns (value : Value)
  | promises (promise : Promise Value)

/-- The storage of a window. -/
structure StorageManager (η ω : Type) where
  estimate : Estimate := .property .undefined
  /-- The promise that a call of `getDirectory` gives.  The function is taken to be there and not to
  throw: its call is not guarded, and no value stands for what would become of the page. -/
  root : ω → Promise (Settled η)

/-- What the page has. -/
structure Environment (η ω : Type) where
  hasWindow : Bool := true
  storage : Option (StorageManager η ω)
  api : StorageApi η ω

/-- The promise of an estimate, if there is a function to call for it. -/
def Estimate.promise? : Estimate → Touched (Except Value (Option (Promise Value)))
  | property .function => ⟨[.estimate, .callEstimate], .error .undefined⟩
  | property _ => ⟨[.estimate], .ok none⟩
  | throws value => ⟨[.estimate, .callEstimate], .error value⟩
  | returns value => ⟨[.estimate, .callEstimate], .error value⟩
  | promises promise => ⟨[.estimate, .callEstimate], .ok (some promise)⟩

/-- The property `quota` of an estimate.  It counts if it is a number. -/
def quotaOf (estimate : Value) : Touched (Except Value (Option Binary64)) :=
  ⟨[.quota], (estimate.property? "quota").map Value.asNumber?⟩

/-- The available space, if the browser tells it.  Where there is no function to call, nothing is
told. -/
def Estimate.available {ω : Type} (estimate : Estimate) :
    Future ω (Touched (Except Value (Option Binary64))) :=
  estimate.promise?.onSuccess fun
    | none => .ready ⟨[], .ok none⟩
    | some promise => (await fun _ => promise).map fun
      | .error value => ⟨[], .error value⟩
      | .ok estimate => quotaOf estimate

/-- Refuses a quota beyond the available space. -/
def checkSpace (quota : UInt64) : Option Binary64 → Except Value Unit
  | none => .ok ()
  | some available =>
    if available.lt (.ofNat quota.toNat) then
      let shown := NumberLayout.plain.write available
      .error (.string s!"quota {quota} exceeds available storage {shown}")
    else .ok ()

/-- The storage of a page that has a window; without one there is nothing to look its estimate up
in. -/
def Environment.manager {η ω : Type} (env : Environment η ω) :
    Touched (Except Value (StorageManager η ω)) :=
  if env.hasWindow then
    match env.storage with
    | some manager => ⟨[.window, .storage], .ok manager⟩
    | none => ⟨[.window, .storage], .error (Value.typeError "Reflect.get called on non-object")⟩
  else ⟨[.window], .error (.string "No window")⟩

/-- Calls `getDirectory` and waits for the root directory. -/
def StorageManager.acquireRoot {η ω : Type} [Handle η] (manager : StorageManager η ω) :
    Future ω (Touched (Except Value η)) :=
  (await manager.root).map fun outcome =>
    ⟨[.callGetDirectory], outcome.bind (Settled.ofKind .directory)⟩

/-- Acquires the root directory for a quota. -/
def Environment.acquire {η ω : Type} [Handle η] (env : Environment η ω) (quota : UInt64) :
    Future ω (Touched (Except Value η)) :=
  env.manager.onSuccess fun manager =>
    manager.estimate.available.andThen fun available =>
      (available.map fun told => told.bind (checkSpace quota)).onSuccess fun _ =>
        manager.acquireRoot

/-- The storage of an acquired root. -/
def Environment.storageAt {η ω : Type} [Handle η] (env : Environment η ω) (root : η)
    (quota : UInt64) : Storage ω :=
  PrivateStorage.storage env.api root quota

end PluginBridge.Browser
