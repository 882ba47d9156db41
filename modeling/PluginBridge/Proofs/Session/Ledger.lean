import PluginBridge.Proofs.Session.Posts
import PluginBridge.Proofs.Session.Tasks

/-!
# The ledger of a session

Whatever a session posts, it posts in parcels: a keystroke, or a complete reply.  The ledger of a
course has one line for each event, with the parcel that the event posts, if any.

* `sent_run`: the ledger is what is posted; that a poll which leaves its task waiting posts nothing
  is what all tasks ensure (`OnlyReplies`);
* `repliesTo_ledger_of_request`: the replies to one request in the whole ledger are the one that is
  due from the polls of its task, or none; this rests on `repliesTo_ledger_of_task`, an induction
  over the course that follows a single task through whatever happens to the others;
* `accounts_ledger` puts it together for every course from the beginning.
-/

namespace PluginBridge.Session

variable {ω : Type}

/-! ## Parcels -/

/-- Something that is posted as a whole. -/
inductive Parcel where
  | keystroke (key : Char)
  /-- The complete reply to the request of a number. -/
  | reply (number : Nat) (texts : List String)
  deriving DecidableEq

namespace Parcel

/-- The texts of a parcel, in order. -/
def texts : Parcel → List String
  | keystroke key => ["S0" ++ String.singleton key]
  | reply _ texts => texts

/-- The reply to the request of a number. -/
def replyTo? (number : Nat) : Parcel → Option (List String)
  | keystroke _ => none
  | reply owner texts => if owner = number then some texts else none

end Parcel

/-- The texts of a line in the ledger; a line may be empty. -/
def lineTexts (line : Option Parcel) : List String :=
  line.elim [] Parcel.texts

/-- All replies in a ledger to the request of a number. -/
def repliesTo (number : Nat) (ledger : List (Option Parcel)) : List (List String) :=
  ledger.filterMap fun line => line.bind (Parcel.replyTo? number)

/-- The key that an event types: a key press types its character, and backspace, which has no key
press, is typed by its key down. -/
def Event.keystroke? : Event ω → Option Char
  | .keyPress code => if h : code.isValidChar then some ⟨code, h⟩ else none
  | .keyDown code => if code = 8 then some '\x08' else none
  | _ => none

/-! ## Lines -/

/-- The parcel that an event posts, where `number` is that of the next request. -/
def line (session : Session ω) (number : Nat) : Event ω → Option Parcel
  | .message data =>
    match session.bridge.storage, (Event.message data : Event ω).request? with
    | none, some request => some (.reply number request.refusalTexts)
    | _, _ => none
  | .poll task =>
    if (session.poll task).2.2 = .ready then some (.reply task (sent (session.poll task).2.1))
    else none
  | event => event.keystroke?.map .keystroke

/-- The parcels that a course posts, one line for each event. -/
def ledger (session : Session ω) (number : Nat) : List (Event ω) → List (Option Parcel)
  | [] => []
  | event :: rest =>
    session.line number event ::
      (session.react event).1.ledger (number + event.request?.toList.length) rest

theorem encode_key (key : Char) :
    (HostMessage.key key).encode = "S0" ++ String.singleton key := by
  apply String.toList_injective
  simp [HostMessage.encode]

theorem sent_keyPress (code : UInt32) :
    sent (Bridge.keyPress code) =
      lineTexts ((Event.keyPress code : Event ω).keystroke?.map .keystroke) := by
  rw [Bridge.keyPress, Keyboard.press, Event.keystroke?]
  split
  · exact congrArg ([·]) (encode_key _)
  · rfl

theorem sent_keyDown (code : UInt32) :
    sent (Bridge.keyDown code).1 =
      lineTexts ((Event.keyDown code : Event ω).keystroke?.map .keystroke) := by
  by_cases hcode : code = 8
  · subst hcode
    show sent (Bridge.keyDown 8).1 = ["S0" ++ String.singleton '\x08']
    decide
  · have hdown : Keyboard.down code = (none, .passOn) := if_neg hcode
    rw [Bridge.keyDown, hdown, Event.keystroke?, if_neg hcode]
    rfl

/-- An event posts the parcel of its line. -/
theorem sent_react {session : Session ω} (h : session.OnlyReplies) (number : Nat)
    (event : Event ω) : sent (session.react event).2 = lineTexts (session.line number event) := by
  cases event with
  | message data =>
    rw [react_message, sent_onMessage, line]
    cases session.bridge.storage <;> cases (Event.message data : Event ω).request? <;> rfl
  | stdout text => exact sent_map_console _ _
  | stderr text => exact sent_map_console _ _
  | keyPress code => exact sent_keyPress code
  | keyDown code => exact sent_keyDown code
  | keyUp => rfl
  | poll task =>
    rw [line]
    split
    · rfl
    · -- A task that is left waiting has sent nothing.
      rename_i hready
      exact congrArg sent (h.effects_poll hready)
  | drop task => rfl
  | change f => rfl

/-- The ledger is what is posted. -/
theorem sent_run {session : Session ω} (h : session.OnlyReplies) (number : Nat)
    (course : List (Event ω)) :
    (session.run course).2.map sent = (session.ledger number course).map lineTexts := by
  induction course generalizing session number with
  | nil => rfl
  | cons event rest ih =>
    rw [run_cons, List.map_cons, ledger, List.map_cons, sent_react h number, ih (h.react event)]

theorem ledger_append (session : Session ω) (number : Nat) (before after : List (Event ω)) :
    session.ledger number (before ++ after) = session.ledger number before ++
      (session.run before).1.ledger (number + requestCount before) after := by
  induction before generalizing session number with
  | nil => rfl
  | cons event rest ih =>
    rw [List.cons_append, ledger, ledger, ih, run_cons, requestCount_cons, Nat.add_assoc,
      List.cons_append]

theorem length_ledger (session : Session ω) (number : Nat) (course : List (Event ω)) :
    (session.ledger number course).length = course.length := by
  induction course generalizing session number with
  | nil => rfl
  | cons event rest ih => rw [ledger, List.length_cons, List.length_cons, ih]

/-- The line of an event in the middle of a course. -/
theorem getElem?_ledger (session : Session ω) (number : Nat) (before : List (Event ω))
    (event : Event ω) (after : List (Event ω)) :
    (session.ledger number (before ++ event :: after))[before.length]? =
      some ((session.run before).1.line (number + requestCount before) event) := by
  rw [ledger_append, ← session.length_ledger number before,
    List.getElem?_append_right (Nat.le_refl _), Nat.sub_self, ledger, List.getElem?_cons_zero]

/-! ## Keystrokes -/

theorem line_eq_keystroke_iff {session : Session ω} {number : Nat} {event : Event ω} {key : Char} :
    session.line number event = some (.keystroke key) ↔ event.keystroke? = some key := by
  cases event with
  | message data =>
    show _ ↔ none = some key
    rw [line]
    split <;> simp
  | poll task =>
    show _ ↔ none = some key
    rw [line]
    split <;> simp
  | _ => simp [line]

theorem getElem?_ledger_eq_keystroke_iff {session : Session ω} {number : Nat}
    {course : List (Event ω)} {i : Nat} {key : Char} :
    (session.ledger number course)[i]? = some (some (.keystroke key)) ↔
      ∃ event, course[i]? = some event ∧ event.keystroke? = some key := by
  induction course generalizing session number i with
  | nil => simp [ledger]
  | cons event rest ih =>
    rw [ledger]
    cases i with
    | zero => simp [line_eq_keystroke_iff]
    | succ i => simpa using ih

/-! ## Replies to one request -/

theorem repliesTo_cons (owner : Nat) (line : Option Parcel) (rest : List (Option Parcel)) :
    repliesTo owner (line :: rest) =
      (line.bind (Parcel.replyTo? owner)).toList ++ repliesTo owner rest := by
  rw [repliesTo, List.filterMap_cons]
  cases line.bind (Parcel.replyTo? owner) <;> rfl

theorem repliesTo_append (owner : Nat) (a b : List (Option Parcel)) :
    repliesTo owner (a ++ b) = repliesTo owner a ++ repliesTo owner b :=
  List.filterMap_append

theorem replyTo?_keystroke (owner : Nat) (event : Event ω) :
    (event.keystroke?.map .keystroke).bind (Parcel.replyTo? owner) = none := by
  cases event.keystroke? <;> rfl

/-- A poll posts a reply to the task that is polled, and only if there is one. -/
theorem replyTo?_line_poll {session : Session ω} {owner task : Nat}
    (h : task ≠ owner ∨ session.task? owner = none) (number : Nat) :
    (session.line number (.poll task)).bind (Parcel.replyTo? owner) = none := by
  rw [line]
  split
  · rename_i hready
    rcases h with hne | hgone
    · exact if_neg hne
    · apply if_neg
      intro heq
      rw [heq, poll_of_gone hgone] at hready
      cases hready
  · rfl

/-- With a storage, only a poll posts a reply. -/
theorem replyTo?_line_of_storage {session : Session ω} {storage : Storage ω}
    (hstorage : session.bridge.storage = some storage) {owner : Nat} {event : Event ω}
    (h : ¬event.Touches owner ∨ session.task? owner = none) (number : Nat) :
    (session.line number event).bind (Parcel.replyTo? owner) = none := by
  cases event with
  | message data =>
    rw [line, hstorage]
    rfl
  | poll task => exact replyTo?_line_poll h number
  | keyPress code => exact replyTo?_keystroke owner (.keyPress code : Event ω)
  | keyDown code => exact replyTo?_keystroke owner (.keyDown code : Event ω)
  | _ => rfl

/-- The poll that ends a task posts its reply, and leaves nothing of the task. -/
theorem line_poll_of_ready {session : Session ω} {owner : Nat} {task : Task ω}
    {effects : List Effect} (htask : session.task? owner = some task)
    (hstep : task.step session.world = (effects, .ended)) (number : Nat) :
    session.line number (.poll owner) = some (.reply owner (sent effects)) ∧
      (session.react (.poll owner)).1.tasks[owner]? = some .ended := by
  have hget := (task?_eq_some_iff.1 htask).1
  rw [line, react, poll_of_ready htask hstep]
  exact ⟨rfl, List.getElem?_set_self (List.getElem?_eq_some_iff.1 hget).1⟩

/-- A poll that leaves a task waiting posts no reply. -/
theorem line_poll_of_pending {session : Session ω} {owner : Nat} {task : Task ω}
    {effects : List Effect} {next : ω → Task ω} (htask : session.task? owner = some task)
    (hstep : task.step session.world = (effects, .wait next)) (number : Nat) :
    session.line number (.poll owner) = none ∧
      (session.react (.poll owner)).1.tasks[owner]? = some (.wait next) := by
  have hget := (task?_eq_some_iff.1 htask).1
  rw [line, react, poll_of_pending htask hstep]
  exact ⟨rfl, List.getElem?_set_self (List.getElem?_eq_some_iff.1 hget).1⟩

/-- The replies to a task from some moment on: what it does in the one of the polls to come that
ends it. -/
theorem repliesTo_ledger_of_task {session : Session ω} {storage : Storage ω}
    (hstorage : session.bridge.storage = some storage) {owner : Nat} {task : Task ω}
    (hget : session.tasks[owner]? = some task) (number : Nat) (course : List (Event ω)) :
    repliesTo owner (session.ledger number course) =
      ((task.ending? (pollWorlds owner session.world course)).map sent).toList := by
  induction course generalizing session task number with
  | nil => rfl
  | cons event rest ih =>
    have hstorage' := (storage_react session event).trans hstorage
    rw [ledger, repliesTo_cons]
    by_cases htouches : event.Touches owner
    · cases event with
      | poll polled =>
        cases (htouches : polled = owner)
        rw [pollWorlds, if_pos rfl]
        cases hended : task.hasEnded with
        | true =>
          have hgone := task?_of_hasEnded hget hended
          have hreact : (session.react (.poll owner)).1 = session := by
            rw [react, poll_of_gone hgone]
          rw [replyTo?_line_of_storage hstorage (.inr hgone), hreact, ih hstorage hget,
            Task.ending?_of_hasEnded hended, Task.ending?_of_hasEnded hended]
          rfl
        | false =>
          have htask := task?_eq_some_iff.2 ⟨hget, hended⟩
          rcases task.step_cases session.world with ⟨effects, hstep⟩ | ⟨effects, next, hstep⟩
          · obtain ⟨hline, hleft⟩ := line_poll_of_ready htask hstep number
            rw [hline, ih hstorage' hleft, Task.ending?_of_hasEnded rfl,
              Task.ending?_of_ready hended hstep]
            simp [Parcel.replyTo?]
          · obtain ⟨hline, hleft⟩ := line_poll_of_pending htask hstep number
            rw [hline, ih hstorage' hleft, Task.ending?_of_pending hended hstep, world_react]
            rfl
      | drop dropped =>
        cases (htouches : dropped = owner)
        have hleft : (session.react (.drop owner)).1.tasks[owner]? = some .ended :=
          List.getElem?_set_self (List.getElem?_eq_some_iff.1 hget).1
        rw [ih hstorage' hleft, pollWorlds, if_pos rfl, Task.ending?_of_hasEnded rfl]
        rfl
      | _ => exact absurd htouches not_false
    · rw [replyTo?_line_of_storage hstorage (.inl htouches),
        ih hstorage' (getElem?_tasks_react hget htouches),
        pollWorlds_cons_of_not_touches htouches, world_react]
      rfl

/-- A request that has not been made is not answered. -/
theorem repliesTo_ledger_of_unmade {session : Session ω} {storage : Storage ω}
    (hstorage : session.bridge.storage = some storage) {owner : Nat} (number : Nat)
    {course : List (Event ω)} (howner : session.tasks.length + requestCount course ≤ owner) :
    repliesTo owner (session.ledger number course) = [] := by
  induction course generalizing session number with
  | nil => rfl
  | cons event rest ih =>
    rw [requestCount_cons, ← Nat.add_assoc, ← length_tasks_react hstorage] at howner
    have hlength : session.tasks.length ≤ owner := by
      have := length_tasks_react hstorage event
      omega
    have htask : session.task? owner = none :=
      task?_of_getElem?_none (List.getElem?_eq_none hlength)
    rw [ledger, repliesTo_cons, replyTo?_line_of_storage hstorage (.inr htask),
      ih ((storage_react session event).trans hstorage) _ howner]
    rfl

/-! ## Without a storage -/

/-- Without a storage, a request is refused at once, and nothing else is answered. -/
theorem replyTo?_line_of_no_storage {session : Session ω} (hstorage : session.bridge.storage = none)
    (htasks : session.tasks = []) (number owner : Nat) (event : Event ω) :
    (session.line number event).bind (Parcel.replyTo? owner) =
      event.request?.bind fun request =>
        if number = owner then some request.refusalTexts else none := by
  cases event with
  | message data =>
    rw [line, hstorage]
    cases (Event.message data : Event ω).request? <;> rfl
  | poll task =>
    have hgone : session.task? owner = none := task?_of_getElem?_none (by rw [htasks]; rfl)
    exact replyTo?_line_poll (.inr hgone) number
  | keyPress code => exact replyTo?_keystroke owner (.keyPress code : Event ω)
  | keyDown code => exact replyTo?_keystroke owner (.keyDown code : Event ω)
  | _ => rfl

/-- Without a storage, no task is ever started. -/
theorem tasks_react_of_no_storage {session : Session ω} (hstorage : session.bridge.storage = none)
    (htasks : session.tasks = []) (event : Event ω) : (session.react event).1.tasks = [] := by
  cases event with
  | message data =>
    rw [react_message, htasks, task_onMessage, hstorage]
    cases (Event.message data : Event ω).request? <;> rfl
  | poll task =>
    obtain ⟨left, h⟩ := session.poll_eq_set task
    rw [react, h, htasks]
    rfl
  | drop task =>
    show session.tasks.set task .ended = []
    rw [htasks]
    rfl
  | _ => exact htasks

/-- Without a storage, only the message that makes a request brings its reply. -/
theorem repliesTo_ledger_of_no_storage {session : Session ω}
    (hstorage : session.bridge.storage = none) (htasks : session.tasks = []) {owner : Nat}
    (number : Nat) {course : List (Event ω)}
    (howner : owner < number ∨ number + requestCount course ≤ owner) :
    repliesTo owner (session.ledger number course) = [] := by
  induction course generalizing session number with
  | nil => rfl
  | cons event rest ih =>
    rw [requestCount_cons] at howner
    have hne : (event.request?.bind fun request =>
        if number = owner then some request.refusalTexts else none) = none := by
      cases hrequest : event.request? with
      | none => rfl
      | some request =>
        apply if_neg
        intro heq
        rw [hrequest] at howner
        simp at howner
        omega
    rw [ledger, repliesTo_cons, replyTo?_line_of_no_storage hstorage htasks, hne,
      ih ((storage_react session event).trans hstorage)
        (tasks_react_of_no_storage hstorage htasks event) _ (by omega)]
    rfl

theorem tasks_run_of_no_storage {session : Session ω} (hstorage : session.bridge.storage = none)
    (htasks : session.tasks = []) (course : List (Event ω)) :
    (session.run course).1.tasks = [] := by
  induction course generalizing session with
  | nil => exact htasks
  | cons event rest ih =>
    exact ih ((storage_react session event).trans hstorage)
      (tasks_react_of_no_storage hstorage htasks event)

/-! ## Places -/

/-- A reply is posted by the poll that ends its task or, without a storage, by its message. -/
theorem line_eq_reply_iff {session : Session ω} {number owner : Nat} {event : Event ω} :
    (∃ texts, session.line number event = some (.reply owner texts)) ↔
      (event = .poll owner ∧ (session.poll owner).2.2 = .ready) ∨
        (session.bridge.storage = none ∧ event.request?.isSome ∧ owner = number) := by
  cases event with
  | message data =>
    rw [line]
    cases session.bridge.storage <;> cases (Event.message data : Event ω).request? <;>
      simp [eq_comm]
  | poll task =>
    rw [line]
    constructor
    · rintro ⟨texts, h⟩
      split at h
      · rename_i hready
        cases h
        exact .inl ⟨rfl, hready⟩
      · cases h
    · rintro (⟨heq, hready⟩ | ⟨-, hnone, -⟩)
      · cases heq
        exact ⟨_, if_pos hready⟩
      · cases hnone
  | _ => simp [line, Event.request?]

/-! ## From the beginning -/

variable (bridge : Bridge ω) (world : ω)

/-- The replies to one request are the reply that is due to it, or none. -/
theorem repliesTo_ledger_of_request (before : List (Event ω)) {event : Event ω}
    {request : FileRequest} (hrequest : event.request? = some request) (after : List (Event ω)) :
    repliesTo (requestCount before) ((fresh bridge world).ledger 0 (before ++ event :: after)) =
      (request.dueTexts? bridge.storage
        (pollWorlds (requestCount before) (worldAfter world before) after)).toList := by
  have hrun : ((fresh bridge world).run before).1.bridge.storage = bridge.storage := storage_run ..
  have hreact := (storage_react ((fresh bridge world).run before).1 event).trans hrun
  rw [ledger_append, repliesTo_append, ledger, repliesTo_cons]
  cases hstorage : bridge.storage with
  | none =>
    have htasks := @tasks_run_of_no_storage _ (fresh bridge world) hstorage rfl before
    rw [hstorage] at hrun hreact
    rw [repliesTo_ledger_of_no_storage hstorage rfl _ (.inr (by omega)),
      replyTo?_line_of_no_storage hrun htasks,
      repliesTo_ledger_of_no_storage hreact (tasks_react_of_no_storage hrun htasks event) _
        (.inl (by rw [hrequest]; simp)), hrequest]
    simp [FileRequest.dueTexts?]
  | some storage =>
    rw [hstorage] at hrun hreact
    have htask := getElem?_tasks_react_of_request hrun hrequest
    rw [length_tasks_fresh hstorage] at htask
    have hquiet := Event.not_touches_of_request hrequest (requestCount before)
    rw [repliesTo_ledger_of_unmade hstorage _ (Nat.le_of_eq (Nat.zero_add _)),
      replyTo?_line_of_storage hrun (.inl hquiet),
      repliesTo_ledger_of_task hreact htask, world_react, world_run,
      Event.changed_of_request hrequest, ← request.sent_of_task _ storage]
    rfl

/-- What a ledger tells about a course that begins with `bridge` and `world`. -/
structure Accounts (bridge : Bridge ω) (world : ω) (course : List (Event ω))
    (ledger : List (Option Parcel)) : Prop where
  /-- Each event posts the parcel in its line and nothing else. -/
  posted : ((fresh bridge world).run course).2.map sent = ledger.map lineTexts
  /-- The keystrokes are those of the key events. -/
  keystrokes : ∀ (i : Nat) key, ledger[i]? = some (some (Parcel.keystroke key)) ↔
    ∃ event, course[i]? = some event ∧ Event.keystroke? event = some key
  /-- Only a request that has been made is answered. -/
  owned : ∀ number texts, some (Parcel.reply number texts) ∈ ledger → number < requestCount course
  /-- A request gets at most one reply: the one that is due, as soon as it is due. -/
  replies : ∀ before event after request, course = before ++ event :: after →
    event.request? = some request →
    repliesTo (requestCount before) ledger =
      (request.dueTexts? bridge.storage
        (pollWorlds (requestCount before) (worldAfter world before) after)).toList
  /-- A reply is in the line of the poll that ends its task or, without a storage, in that of its
  message. -/
  placed : ∀ before event after number, course = before ++ event :: after →
    ((∃ texts, ledger[before.length]? = some (some (Parcel.reply number texts))) ↔
      (event = .poll number ∧ (((fresh bridge world).run before).1.poll number).2.2 = .ready) ∨
        (bridge.storage = none ∧ event.request?.isSome ∧ number = requestCount before))
  /-- A message starts a task if it makes a request and there is a storage; the task has the number
  of the request. -/
  started : ∀ before data after, course = before ++ .message data :: after →
    (((fresh bridge world).run before).1.start data).2.2 =
      (Event.message data : Event ω).request?.bind fun _ =>
        bridge.storage.map fun _ => requestCount before

/-- **Everything that is posted is accounted for.**  Whatever the storage answers and when, and in
whatever order messages, keys and polls come, what is posted is a sequence of keystrokes and
complete replies, one reply to each request that has been answered by then. -/
theorem accounts_ledger (course : List (Event ω)) :
    Accounts bridge world course ((fresh bridge world).ledger 0 course) := by
  refine ⟨sent_run (tasksEnsure_fresh _ _) _ _, fun i key => getElem?_ledger_eq_keystroke_iff,
    ?_, ?_, ?_, ?_⟩
  · intro number texts hmem
    apply Nat.lt_of_not_le
    intro hlate
    have hreply : texts ∈ repliesTo number ((fresh bridge world).ledger 0 course) :=
      List.mem_filterMap.2 ⟨_, hmem, if_pos rfl⟩
    have hnone : repliesTo number ((fresh bridge world).ledger 0 course) = [] := by
      cases hstorage : bridge.storage with
      | none => exact repliesTo_ledger_of_no_storage hstorage rfl 0 (.inr (by omega))
      | some storage =>
        refine repliesTo_ledger_of_unmade hstorage 0 ?_
        show 0 + requestCount course ≤ number
        omega
    rw [hnone] at hreply
    cases hreply
  · rintro before event after request rfl hrequest
    exact repliesTo_ledger_of_request bridge world before hrequest after
  · rintro before event after number rfl
    rw [getElem?_ledger, Nat.zero_add]
    simp only [Option.some.injEq]
    rw [line_eq_reply_iff, storage_run]
    rfl
  · rintro before data after rfl
    have hstorage : ((fresh bridge world).run before).1.bridge.storage = bridge.storage :=
      storage_run ..
    rw [number_start, hstorage]
    cases hsome : bridge.storage with
    | none => rfl
    | some storage =>
      rw [length_tasks_fresh hsome before]

end PluginBridge.Session
