import PluginBridge.Browser.Value
import PluginBridge.NodeKind
import PluginBridge.Future

/-!
# The storage interface of a browser

A browser gives out handles and answers queries about them with promises.  A computation against it
is a `Dialogue`: which query comes next depends on the answers so far.  A dialogue says nothing
about a particular browser; `Dialogue.future` runs it against one, and `Dialogue.queries` lists what
it asks when every query has a fixed answer.
-/

namespace PluginBridge.Browser

/-- A promise: its outcome is fixed when it is made and shows after some polls. -/
structure Promise (α : Type) where
  delay : Nat := 0
  outcome : Except Value α

/-- Makes a promise in the next poll and waits for it. -/
def await {ω α : Type} (make : ω → Promise α) : Future ω (Except Value α) :=
  .poll fun world => .delayed (make world).delay (make world).outcome

/-! ## Handles and answers -/

/-- What a browser tells of a handle without being asked. -/
class Handle (η : Type) where
  kind : η → NodeKind
  name : η → String

/-- The class of handles of a kind. -/
def handleClass : NodeKind → String
  | .directory => "FileSystemDirectoryHandle"
  | .file => "FileSystemFileHandle"
  | .other => "FileSystemHandle"

/-- An item of a listing. -/
inductive Item (η : Type) where
  | handle (handle : η)
  | plain (value : Value)

/-- What a promise of the storage resolves to. -/
inductive Settled (η : Type) where
  | handle (handle : η)
  /-- A file, of which only the size matters. -/
  | file (size : Binary64)
  /-- An array of items. -/
  | listing (items : List (Item η))
  /-- Any other value. -/
  | plain (value : Value)

/-- One question about a handle. -/
inductive Query (η : Type) where
  /-- The directory of a name in a directory. -/
  | directory (parent : η) (name : String)
  /-- The file of a name in a directory. -/
  | file (parent : η) (name : String)
  /-- The file behind a file handle. -/
  | contents (file : η)
  /-- The children of a directory. -/
  | children (directory : η)
  deriving DecidableEq

/-- How a browser whose state is `ω` answers. -/
structure StorageApi (η ω : Type) where
  answer : ω → Query η → Promise (Settled η)

/-! ## Taking answers apart

An answer that is not of the class that is needed is itself the error. -/

section

variable {η : Type} [Handle η]

/-- An item as a value of the page. -/
def Item.value : Item η → Value
  | .handle held => .host (handleClass (Handle.kind held))
  | .plain value => value

/-- An answer as a value of the page. -/
def Settled.value : Settled η → Value
  | .handle held => (Item.handle held).value
  | .file _ => .host "File"
  | .listing items => .array (items.map Item.value)
  | .plain value => value

/-- The handle, if it is one of `kind`. -/
def Settled.ofKind (kind : NodeKind) (settled : Settled η) : Except Value η :=
  match settled with
  | .handle held =>
    if Handle.kind held = kind then .ok held else .error settled.value
  | settled => .error settled.value

/-- The size, if it is a file. -/
def Settled.fileSize (settled : Settled η) : Except Value Binary64 :=
  match settled with
  | .file size => .ok size
  | settled => .error settled.value

/-- The items, if it is an array. -/
def Settled.items (settled : Settled η) : Except Value (List (Item η)) :=
  match settled with
  | .listing items => .ok items
  | .plain (.array values) => .ok (values.map .plain)
  | settled => .error settled.value

/-- The handle, if it is one of any kind. -/
def Item.asHandle (item : Item η) : Except Value η :=
  match item with
  | .handle held => .ok held
  | .plain value => .error value

end

/-! ## Dialogues -/

/-- A computation that asks queries. -/
inductive Dialogue (η α : Type) where
  | done (result : α)
  | ask (query : Query η) (next : Except Value (Settled η) → Dialogue η α)

namespace Dialogue

variable {η α β ω : Type}

/-- Goes on with the result. -/
def andThen : Dialogue η α → (α → Dialogue η β) → Dialogue η β
  | done result, f => f result
  | ask query next, f => ask query fun answer => (next answer).andThen f

/-- Goes on with a success; a failure is the end. -/
def onSuccess (dialogue : Dialogue η (Except Value α)) (f : α → Dialogue η (Except Value β)) :
    Dialogue η (Except Value β) :=
  dialogue.andThen fun
    | .ok result => f result
    | .error value => done (.error value)

/-- Asks a query and takes its answer apart; a rejection or an unsuitable answer is the end. -/
def expect (query : Query η) (take : Settled η → Except Value α) :
    Dialogue η (Except Value α) :=
  ask query fun answer => done (answer.bind take)

/-- Runs a dialogue against a browser.  Each query is asked in the poll that gets to it, and waited
for before the next one. -/
def future (api : StorageApi η ω) : Dialogue η α → Future ω α
  | done result => .ready result
  | ask query next =>
    (await fun world => api.answer world query).andThen fun answer => (next answer).future api

/-- The result when every query has a fixed answer. -/
def result (answer : Query η → Except Value (Settled η)) : Dialogue η α → α
  | done result => result
  | ask query next => (next (answer query)).result answer

/-- The queries, in order, when every query has a fixed answer. -/
def queries (answer : Query η → Except Value (Settled η)) : Dialogue η α → List (Query η)
  | done _ => []
  | ask query next => query :: (next (answer query)).queries answer

@[simp] theorem result_andThen (answer : Query η → Except Value (Settled η))
    (dialogue : Dialogue η α) (f : α → Dialogue η β) :
    (dialogue.andThen f).result answer = (f (dialogue.result answer)).result answer := by
  induction dialogue with
  | done result => rfl
  | ask query next ih => exact ih (answer query)

/-- While the world stays the same, a dialogue runs as with the fixed answers of that world. -/
theorem run_future (api : StorageApi η ω) (world : ω) (dialogue : Dialogue η α) :
    (dialogue.future api).run world =
      dialogue.result fun query => (api.answer world query).outcome := by
  induction dialogue with
  | done result => rfl
  | ask query next ih => simp [future, result, await, Future.run, ih]

end Dialogue

end PluginBridge.Browser
