import PluginBridge.Proofs.Session.Course

/-!
# What is posted

The texts that effects post.  `listingTexts` and `statTexts` are the complete replies that an answer
of the storage calls for, written out; the poll that ends a task posts exactly them
(`sent_of_task`), and a message posts nothing unless it is a request without a storage
(`sent_onMessage`).
-/

namespace PluginBridge

variable {ω : Type}

/-- The texts that effects post, in order. -/
def sent (effects : List Effect) : List String :=
  (effects.filterMap Effect.posted?).map HostMessage.encode

@[simp] theorem sent_nil : sent [] = [] := rfl

@[simp] theorem sent_append (a b : List Effect) : sent (a ++ b) = sent a ++ sent b := by
  simp [sent]

@[simp] theorem sent_post (message : HostMessage) (rest : List Effect) :
    sent (.post message :: rest) = message.encode :: sent rest := rfl

@[simp] theorem sent_console (level : ConsoleLevel) (text : String) (rest : List Effect) :
    sent (.console level text :: rest) = sent rest := rfl

@[simp] theorem sent_trace (event : TraceEvent) (rest : List Effect) :
    sent (.trace event :: rest) = sent rest := rfl

@[simp] theorem sent_map_console (level : ConsoleLevel) (lines : List String) :
    sent (lines.map (.console level)) = [] := by
  induction lines with
  | nil => rfl
  | cons line rest ih => simpa using ih

/-! ## Complete replies -/

/-- The reply to a listing: each child as its marker and name, in the order of the storage, then
success.  A refusal is the one text that says so. -/
def listingTexts : Except StorageError (List Child) → List String
  | .ok children =>
    children.map (fun child => "X5D" ++ String.singleton child.kind.marker ++ child.name) ++
      ["X5D_0"]
  | .error _ => ["X5D_/"]

/-- The reply to a stat: success for a directory alone. -/
def statTexts : Except StorageError NodeStat → List String
  | .ok stat => if stat.isDirectory then ["X5S0"] else ["X5S/"]
  | .error _ => ["X5S/"]

namespace FileRequest

/-- The reply that refuses a request. -/
def refusalTexts : FileRequest → List String
  | list _ => ["X5D_/"]
  | stat _ => ["X5S/"]

/-- The reply that is due to a request whose task has been polled in `worlds`: what the storage has
answered by then, or a refusal from the start where there is no storage. -/
def dueTexts? (storage : Option (Storage ω)) (worlds : List ω) (request : FileRequest) :
    Option (List String) :=
  match storage, request with
  | none, request => some request.refusalTexts
  | some storage, list path => ((storage.list path).answer? worlds).map listingTexts
  | some storage, stat path => ((storage.stat path).answer? worlds).map statTexts

/-! ## Effects of a reply -/

theorem encode_child (kind : NodeKind) (name : String) :
    (HostMessage.child kind name).encode = "X5D" ++ String.singleton kind.marker ++ name := by
  apply String.toList_injective
  simp [HostMessage.encode]

theorem encode_listEnd : (HostMessage.listEnd .ok).encode = "X5D_0" ∧
    (HostMessage.listEnd .failed).encode = "X5D_/" := by
  decide

theorem encode_statEnd : (HostMessage.statEnd .ok).encode = "X5S0" ∧
    (HostMessage.statEnd .failed).encode = "X5S/" := by
  decide

theorem sent_close (request : FileRequest) (traced : Bool) (status : ReplyStatus) :
    sent (request.close traced status) = [(request.closing status).encode] := by
  rw [close]
  split <;> rfl

theorem sent_close_failed (request : FileRequest) (traced : Bool) :
    sent (request.close traced .failed) = request.refusalTexts := by
  rw [sent_close]
  cases request with
  | list path => rw [closing, encode_listEnd.2, refusalTexts]
  | stat path => rw [closing, encode_statEnd.2, refusalTexts]

theorem sent_listingReply (traced : Bool) (path : String)
    (answer : Except StorageError (List Child)) :
    sent (listingReply traced path answer) = listingTexts answer := by
  cases answer with
  | error err => simp [listingReply, sent_close_failed, refusalTexts, listingTexts]
  | ok children =>
    rw [listingReply, sent_append, sent_close, closing, encode_listEnd.1, listingTexts]
    congr 1
    induction children with
    | nil => rfl
    | cons child rest ih => simp [encode_child, ih]

theorem sent_statReply (traced : Bool) (path : String) (status : Except StorageError NodeStat) :
    sent (statReply traced path (Storage.directoryOnly path status)) = statTexts status := by
  have refused (err : StorageError) : sent (statReply traced path (.error err)) = ["X5S/"] := by
    simp [sent_close_failed, refusalTexts]
  cases status with
  | error err => exact refused err
  | ok stat =>
    by_cases hdir : stat.isDirectory
    · have hok : Storage.directoryOnly path (.ok stat) = .ok () := if_pos hdir
      rw [hok, statReply_ok, sent_close, closing, encode_statEnd.1, statTexts, if_pos hdir]
    · have hrefused : Storage.directoryOnly path (.ok stat) = .error (.notADirectory path) :=
        if_neg hdir
      rw [hrefused, refused, statTexts, if_neg hdir]

/-- What a task posts when it ends is the reply that is due. -/
theorem sent_of_task (traced : Bool) (storage : Storage ω) (request : FileRequest)
    (worlds : List ω) :
    ((request.task traced storage).ending? worlds).map sent =
      request.dueTexts? (some storage) worlds := by
  cases request with
  | list path =>
    rw [task, ending?_answering, Option.map_map, dueTexts?]
    congr 1
    funext answer
    exact sent_listingReply traced path answer
  | stat path =>
    rw [task, ending?_answering, Storage.checkDirectory, Future.answer?_map, Option.map_map,
      Option.map_map, dueTexts?]
    congr 1
    funext status
    exact sent_statReply traced path status

end FileRequest

/-! ## Messages -/

/-- Only a request without a storage is answered while the message is handled. -/
theorem sent_onMessage (bridge : Bridge ω) (data : String) :
    sent (bridge.onMessage data).effects =
      match bridge.storage, (Session.Event.message data : Session.Event ω).request? with
      | none, some request => request.refusalTexts
      | _, _ => [] := by
  by_cases hempty : data = ""
  · subst hempty
    cases bridge.storage <;> rfl
  rw [Bridge.onMessage, if_neg hempty, Session.Event.request?]
  cases PluginMessage.parse data with
  | error err => cases bridge.storage <;> rfl
  | ok message =>
    cases message with
    | errorLog text => cases bridge.storage <;> rfl
    | stream id text =>
      have hnone : sent (bridge.receive id text).2 = [] := by
        cases id <;> simp [Bridge.receive, Bridge.writeStdout, Bridge.writeStderr]
      simp only [hnone]
      cases bridge.storage <;> rfl
    | rpc request =>
      have hannounced : sent (Effect.trace (.rpcRequest request) ::
          if bridge.traced then [.console .info request.announcement] else []) = [] := by
        split <;> rfl
      simp only [Bridge.dispatch]
      cases bridge.storage with
      | none => rw [sent_append, hannounced, request.sent_close_failed, List.nil_append]
      | some storage => exact hannounced

end PluginBridge
