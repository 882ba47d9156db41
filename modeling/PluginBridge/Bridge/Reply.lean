import PluginBridge.Bridge.Task
import PluginBridge.Storage.Interface

/-!
# Replies to filesystem requests

The reply to a request is one block of posted messages that ends with its status.  The task of a
request asks the storage and replies in the poll that brings the answer.
-/

namespace PluginBridge

namespace FileRequest

/-- The message that ends the reply. -/
def closing (status : ReplyStatus) : FileRequest → HostMessage
  | list _ => .listEnd status
  | stat _ => .statEnd status

/-- What a traced bridge says when a request arrives. -/
def announcement : FileRequest → String
  | list path => s!"naclfs rpc: directory list request; path={path}"
  | stat path => s!"naclfs rpc: stat request; path={path}"

/-- Sends the status.  A traced bridge shows the code of a failure first. -/
def close (request : FileRequest) (traced : Bool) (status : ReplyStatus) : List Effect :=
  (if traced ∧ ¬status.isOk then [.console .info s!" => {status.code}"] else []) ++
    [.post (request.closing status)]

/-- The reply to a listing: the children in the order of the storage, then success; a refusal sends
no child. -/
def listingReply (traced : Bool) (path : String) :
    Except StorageError (List Child) → List Effect
  | .ok children =>
    children.map (fun child => .post (.child child.kind child.name)) ++
      (list path).close traced .ok
  | .error err => .trace (.listingFailed path err) :: (list path).close traced .failed

/-- The reply to a stat: its status is that of the answer. -/
def statReply (traced : Bool) (path : String) (answer : Except StorageError Unit) : List Effect :=
  let failure : List Effect := match answer with
    | .ok () => []
    | .error err => [.trace (.statFailed path err)]
  failure ++ (stat path).close traced (.ofExcept answer)

@[simp] theorem statReply_ok (traced : Bool) (path : String) :
    statReply traced path (.ok ()) = (stat path).close traced .ok := rfl

@[simp] theorem statReply_error (traced : Bool) (path : String) (err : StorageError) :
    statReply traced path (.error err) =
      .trace (.statFailed path err) :: (stat path).close traced .failed := rfl

/-- The task that waits for an answer and does what it calls for.  Nothing is asked before its first
poll. -/
def answering {ω α : Type} (reply : α → List Effect) (answer : Future ω α) : Task ω :=
  Task.await (fun value => .perform (reply value) .ended) answer.suspended

/-- The task that answers a request from a storage. -/
def task {ω : Type} (traced : Bool) (storage : Storage ω) : FileRequest → Task ω
  | list path => answering (listingReply traced path) (storage.list path)
  | stat path => answering (statReply traced path) (storage.checkDirectory path)

end FileRequest

end PluginBridge
