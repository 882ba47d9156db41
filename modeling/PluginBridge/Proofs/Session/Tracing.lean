import PluginBridge.Proofs.Session.Console
import PluginBridge.Proofs.Session.Posts

/-!
# Tracing

A traced bridge says more than a silent one and does nothing else.  Silencing a session, its tasks
included, commutes with every event (`react_silenced`): the silenced session does what the traced
one does, without the lines at the level of information.  So both post the same texts, start the
same tasks and end them in the same polls.

What the lines of a traced session are is said by `Event.requestLine?`, one line for a request, and
`Effect.echoed`, one line right before a failure: `tracing_only_observes`.
-/

namespace PluginBridge

/-! ## Lines of tracing -/

/-- Effects without the lines at the level of information. -/
def quiet (effects : List Effect) : List Effect :=
  effects.filter fun effect => effect.line?.map Prod.fst ≠ some .info

/-- Does a message tell of a failure? -/
def HostMessage.IsFailure (message : HostMessage) : Prop :=
  message = .listEnd .failed ∨ message = .statEnd .failed

instance (message : HostMessage) : Decidable message.IsFailure :=
  inferInstanceAs (Decidable (message = .listEnd .failed ∨ message = .statEnd .failed))

/-- An effect as a traced bridge has it: a failure is shown right before it is sent. -/
def Effect.echoed : Effect → List Effect
  | post message =>
    if message.IsFailure then [console .info " => -1", post message] else [post message]
  | effect => [effect]

/-- What is done for others than the observer: messages are posted and lines written. -/
def outward (effects : List Effect) : List Effect :=
  effects.filter fun effect => effect.event?.isNone

@[simp] theorem quiet_append (a b : List Effect) : quiet (a ++ b) = quiet a ++ quiet b :=
  List.filter_append ..

@[simp] theorem quiet_post (message : HostMessage) (rest : List Effect) :
    quiet (.post message :: rest) = .post message :: quiet rest := rfl

@[simp] theorem quiet_trace (event : TraceEvent) (rest : List Effect) :
    quiet (.trace event :: rest) = .trace event :: quiet rest := rfl

@[simp] theorem quiet_console (level : ConsoleLevel) (text : String) (rest : List Effect) :
    quiet (.console level text :: rest) =
      (if level = .info then [] else [.console level text]) ++ quiet rest := by
  cases level <;> rfl

@[simp] theorem quiet_map_post (messages : List HostMessage) :
    quiet (messages.map .post) = messages.map .post := by
  induction messages with
  | nil => rfl
  | cons message rest ih => exact congrArg _ ih

theorem quiet_map_console {level : ConsoleLevel} (h : level ≠ .info) (lines : List String) :
    quiet (lines.map (.console level)) = lines.map (.console level) := by
  induction lines with
  | nil => rfl
  | cons line rest ih => rw [List.map_cons, quiet_console, if_neg h, ih, List.singleton_append]

/-- The lines that are left are those above the level of information. -/
theorem written_quiet (effects : List Effect) :
    written (quiet effects) = (written effects).filter fun line => line.1 ≠ .info := by
  rw [written, quiet, List.filterMap_filter, written, List.filter_filterMap]
  congr 1
  funext effect
  cases effect with
  | console level text => cases level <;> rfl
  | _ => rfl

theorem linesAt_info_quiet (effects : List Effect) : linesAt .info (quiet effects) = [] := by
  rw [linesAt, written_quiet, List.filter_filter, List.map_eq_nil_iff, List.filter_eq_nil_iff]
  intro line _
  simp

@[simp] theorem sent_quiet (effects : List Effect) : sent (quiet effects) = sent effects := by
  induction effects with
  | nil => rfl
  | cons effect rest ih =>
    cases effect with
    | post message => rw [quiet_post, sent_post, sent_post, ih]
    | trace event => rw [quiet_trace, sent_trace, sent_trace, ih]
    | console level text =>
      rw [quiet_console, sent_append, ih]
      split <;> rfl

/-- Each failure among effects is shown right before it is sent, and nothing else is. -/
def Echoed (effects : List Effect) : Prop :=
  effects = (quiet effects).flatMap Effect.echoed

theorem Echoed.append {a b : List Effect} (ha : Echoed a) (hb : Echoed b) : Echoed (a ++ b) := by
  rw [Echoed, quiet_append, List.flatMap_append, ← ha, ← hb]

theorem echoed_map_console {level : ConsoleLevel} (h : level ≠ .info) (lines : List String) :
    Echoed (lines.map (.console level)) := by
  rw [Echoed, quiet_map_console h]
  induction lines with
  | nil => rfl
  | cons line rest ih => exact congrArg _ ih

theorem echoed_map_post {messages : List HostMessage} (h : ∀ m ∈ messages, ¬m.IsFailure) :
    Echoed (messages.map .post) := by
  rw [Echoed, quiet_map_post]
  induction messages with
  | nil => rfl
  | cons message rest ih =>
    obtain ⟨hmessage, hrest⟩ := List.forall_mem_cons.1 h
    rw [List.map_cons, List.flatMap_cons, Effect.echoed, if_neg hmessage, ← ih hrest,
      List.singleton_append]

@[simp] theorem outward_append (a b : List Effect) :
    outward (a ++ b) = outward a ++ outward b :=
  List.filter_append ..

theorem outward_flatMap_echoed (effects : List Effect) :
    outward (effects.flatMap Effect.echoed) = (outward effects).flatMap Effect.echoed := by
  induction effects with
  | nil => rfl
  | cons effect rest ih =>
    rw [List.flatMap_cons, outward_append, ih]
    cases effect with
    | post message =>
      rw [Effect.echoed]
      split <;> simp [outward, Effect.event?, Effect.echoed, *]
    | console level text => rfl
    | trace event => rfl

namespace FileRequest

theorem quiet_close (request : FileRequest) (traced : Bool) (status : ReplyStatus) :
    quiet (request.close traced status) = request.close false status := by
  rw [close, close]
  split <;> rfl

theorem map_post_child (children : List Child) :
    children.map (fun child => Effect.post (.child child.kind child.name)) =
      (children.map fun child => HostMessage.child child.kind child.name).map .post := by
  rw [List.map_map]
  rfl

theorem quiet_listingReply (traced : Bool) (path : String)
    (answer : Except StorageError (List Child)) :
    quiet (listingReply traced path answer) = listingReply false path answer := by
  cases answer with
  | ok children =>
    rw [listingReply, listingReply, map_post_child, quiet_append, quiet_map_post, quiet_close]
  | error err => rw [listingReply, listingReply, quiet_trace, quiet_close]

theorem quiet_statReply (traced : Bool) (path : String) (answer : Except StorageError Unit) :
    quiet (statReply traced path answer) = statReply false path answer := by
  cases answer with
  | ok done => exact quiet_close ..
  | error err => rw [statReply_error, statReply_error, quiet_trace, quiet_close]

theorem echoed_close (request : FileRequest) {status : ReplyStatus}
    (h : status = .ok ∨ status = .failed) : Echoed (request.close true status) := by
  rcases h with rfl | rfl <;> cases request <;> rfl

theorem echoed_listingReply (path : String) (answer : Except StorageError (List Child)) :
    Echoed (listingReply true path answer) := by
  cases answer with
  | ok children =>
    rw [listingReply, map_post_child]
    refine (echoed_map_post ?_).append (echoed_close _ (.inl rfl))
    intro message hmem
    obtain ⟨child, -, rfl⟩ := List.mem_map.1 hmem
    simp [HostMessage.IsFailure]
  | error err => rfl

theorem echoed_statReply (path : String) (answer : Except StorageError Unit) :
    Echoed (statReply true path answer) := by
  cases answer <;> rfl

/-- Whichever way a traced task ends, it shows exactly its failure. -/
theorem actsAtEnd_echoed_task {ω : Type} (storage : Storage ω) (request : FileRequest) :
    (request.task true storage).ActsAtEnd Echoed := by
  cases request with
  | list path => exact actsAtEnd_answering (echoed_listingReply path) _
  | stat path => exact actsAtEnd_answering (echoed_statReply path) _

end FileRequest

/-! ## Silent tasks -/

namespace Task

variable {ω : Type}

/-- The task without the lines at the level of information. -/
def quieted : Task ω → Task ω
  | ended => ended
  | act effect rest => perform (quiet [effect]) rest.quieted
  | wait next => wait fun world => (next world).quieted

theorem hasEnded_quieted (task : Task ω) : task.quieted.hasEnded = task.hasEnded := by
  induction task with
  | ended => rfl
  | act effect rest ih => rw [quieted, hasEnded_perform, ih, hasEnded]
  | wait next => rfl

theorem effects_quieted (task : Task ω) : task.quieted.effects = quiet task.effects := by
  induction task with
  | ended => rfl
  | act effect rest ih =>
    rw [quieted, effects_perform, ih, ← quiet_append]
    rfl
  | wait next => rfl

theorem left_quieted (task : Task ω) : task.quieted.left = task.left.quieted := by
  induction task with
  | ended => rfl
  | act effect rest ih => rw [quieted, left_perform, ih, left]
  | wait next => rfl

/-- Both tasks take the same polls; only their effects differ. -/
theorem step_quieted (task : Task ω) (world : ω) :
    task.quieted.step world = (quiet (task.step world).1, (task.step world).2.quieted) := by
  induction task with
  | ended => rfl
  | act effect rest ih =>
    rw [quieted, step_perform, ih, ← quiet_append]
    rfl
  | wait next => exact Prod.ext (effects_quieted (next world)) (left_quieted (next world))

theorem quieted_perform (effects : List Effect) (rest : Task ω) :
    (perform effects rest).quieted = perform (quiet effects) rest.quieted := by
  induction effects with
  | nil => rfl
  | cons effect more ih =>
    show perform (quiet [effect]) (perform more rest).quieted = _
    rw [ih, perform, perform, ← List.foldr_append, ← quiet_append]
    rfl

end Task

namespace FileRequest

variable {ω α : Type}

theorem quieted_answering (reply : α → List Effect) (answer : Future ω α) :
    (answering reply answer).quieted = answering (fun value => quiet (reply value)) answer := by
  rw [answering, answering]
  induction answer.suspended with
  | ready value => exact Task.quieted_perform (reply value) .ended
  | poll next ih => exact congrArg Task.wait (funext ih)

/-- The task of a silent bridge is the one of a traced bridge without its lines. -/
theorem task_false (traced : Bool) (storage : Storage ω) (request : FileRequest) :
    request.task false storage = (request.task traced storage).quieted := by
  cases request with
  | list path =>
    rw [task, task, quieted_answering]
    congr 1
    funext answer
    exact (quiet_listingReply traced path answer).symm
  | stat path =>
    rw [task, task, quieted_answering]
    congr 1
    funext answer
    exact (quiet_statReply traced path answer).symm

end FileRequest

namespace Session

variable {ω : Type}

/-! ## Silencing -/

/-- A session whose bridge and tasks show nothing at the level of information. -/
def silenced (session : Session ω) : Session ω :=
  { session with
    bridge := { session.bridge with traced := false }
    tasks := session.tasks.map Task.quieted }

theorem receive_silenced (bridge : Bridge ω) (id : StreamId) (text : String) :
    ({ bridge with traced := false } : Bridge ω).receive id text =
      ({ (bridge.receive id text).1 with traced := false }, quiet (bridge.receive id text).2) := by
  cases id with
  | stdout => exact Prod.ext rfl (quiet_map_console (by decide) _).symm
  | stderr => exact Prod.ext rfl (quiet_map_console (by decide) _).symm
  | _ => rfl

theorem dispatch_silenced (bridge : Bridge ω) (request : FileRequest) :
    ({ bridge with traced := false } : Bridge ω).dispatch request =
      { bridge := { (bridge.dispatch request).bridge with traced := false }
        effects := quiet (bridge.dispatch request).effects
        task := (bridge.dispatch request).task.map Task.quieted } := by
  obtain ⟨storage, traced, stdout, stderr⟩ := bridge
  have hannounced : quiet (.trace (.rpcRequest request) ::
      if traced then [.console .info request.announcement] else []) =
        [.trace (.rpcRequest request)] := by
    split <;> rfl
  cases storage with
  | none => simp only [Bridge.dispatch, quiet_append, hannounced, request.quiet_close]; rfl
  | some held => simp only [Bridge.dispatch, hannounced, request.task_false traced]; rfl

theorem onMessage_silenced (bridge : Bridge ω) (data : String) :
    ({ bridge with traced := false } : Bridge ω).onMessage data =
      { bridge := { (bridge.onMessage data).bridge with traced := false }
        effects := quiet (bridge.onMessage data).effects
        task := (bridge.onMessage data).task.map Task.quieted } := by
  by_cases hempty : data = ""
  · subst hempty
    rfl
  rw [Bridge.onMessage, Bridge.onMessage, if_neg hempty, if_neg hempty]
  cases PluginMessage.parse data with
  | error err => rfl
  | ok message =>
    cases message with
    | errorLog text => rfl
    | stream id text => simp only [receive_silenced]; rfl
    | rpc request => exact dispatch_silenced bridge request

theorem task?_silenced (session : Session ω) (number : Nat) :
    session.silenced.task? number = (session.task? number).map Task.quieted := by
  rw [task?, task?, silenced, List.getElem?_map]
  cases session.tasks[number]? with
  | none => rfl
  | some task =>
    rw [Option.map_some, Option.filter_some, Option.filter_some, task.hasEnded_quieted]
    split <;> rfl

/-- A poll of a silenced session ends a task exactly if the one of the traced session does. -/
theorem poll_silenced (session : Session ω) (number : Nat) :
    session.silenced.poll number =
      ((session.poll number).1.silenced, quiet (session.poll number).2.1,
        (session.poll number).2.2) := by
  cases htask : session.task? number with
  | none =>
    have hsilenced : session.silenced.task? number = none := by
      rw [task?_silenced, htask, Option.map_none]
    rw [poll_of_gone htask, poll_of_gone hsilenced]
    rfl
  | some task =>
    have hsilenced : session.silenced.task? number = some task.quieted := by
      rw [task?_silenced, htask, Option.map_some]
    rw [poll, poll, htask, hsilenced]
    simp only [silenced, Task.step_quieted, Task.hasEnded_quieted, List.map_set]

/-- **Silencing commutes with every event.** -/
theorem react_silenced (session : Session ω) (event : Event ω) :
    session.silenced.react event =
      ((session.react event).1.silenced, quiet (session.react event).2) := by
  cases event with
  | message data =>
    rw [react_message, react_message]
    simp only [silenced, onMessage_silenced, List.map_append]
    cases (session.bridge.onMessage data).task <;> rfl
  | stdout text => exact Prod.ext rfl (quiet_map_console (by decide) _).symm
  | stderr text => exact Prod.ext rfl (quiet_map_console (by decide) _).symm
  | keyPress code => exact Prod.ext rfl (quiet_map_post _).symm
  | keyDown code => exact Prod.ext rfl (quiet_map_post _).symm
  | keyUp => rfl
  | poll task =>
    rw [react, poll_silenced]
    rfl
  | drop task =>
    simp only [react, drop, silenced, List.map_set]
    rfl
  | change f => rfl

theorem run_silenced (session : Session ω) (course : List (Event ω)) :
    session.silenced.run course =
      ((session.run course).1.silenced, (session.run course).2.map quiet) := by
  induction course generalizing session with
  | nil => rfl
  | cons event rest ih => rw [run_cons, run_cons, react_silenced, ih, List.map_cons]

/-! ## What a traced session shows -/

/-- The line that a traced session writes when a request arrives, with the path as it was sent. -/
def Event.requestLine? (event : Event ω) : Option String :=
  event.request?.map fun
    | .list path => "naclfs rpc: directory list request; path=" ++ path
    | .stat path => "naclfs rpc: stat request; path=" ++ path

/-- What a traced session does first when an event makes a request. -/
def Event.announced (event : Event ω) : List Effect :=
  event.request?.elim [] fun request =>
    [.trace (.rpcRequest request), .console .info request.announcement]

/-- The line of a request goes to the console at the level of information. -/
def Event.opening (event : Event ω) : List Effect :=
  event.requestLine?.toList.map (.console .info)

theorem Event.requestLine?_eq (event : Event ω) :
    event.requestLine? = event.request?.map FileRequest.announcement := rfl

theorem outward_announced (event : Event ω) : outward event.announced = event.opening := by
  rw [Event.announced, Event.opening, Event.requestLine?_eq]
  cases event.request? <;> rfl

theorem outward_quiet_announced (event : Event ω) : outward (quiet event.announced) = [] := by
  rw [Event.announced]
  cases event.request? <;> rfl

theorem echoed_receive (bridge : Bridge ω) (id : StreamId) (text : String) :
    Echoed (bridge.receive id text).2 := by
  cases id with
  | stdout => exact echoed_map_console (by decide) _
  | stderr => exact echoed_map_console (by decide) _
  | _ => exact echoed_map_console (by decide) [_]

theorem echoed_keyPress (code : UInt32) : Echoed (Bridge.keyPress code) := by
  rw [Bridge.keyPress, Keyboard.press]
  split <;> rfl

theorem echoed_keyDown (code : UInt32) : Echoed (Bridge.keyDown code).1 := by
  simp only [Bridge.keyDown, Keyboard.down]
  split
  · exact echoed_keyPress code
  · rfl

theorem echoed_onMessage {bridge : Bridge ω} (h : bridge.traced = true) (data : String) :
    ∃ rest, Echoed rest ∧
      (bridge.onMessage data).effects = (Event.message data : Event ω).announced ++ rest := by
  by_cases hempty : data = ""
  · subst hempty
    exact ⟨[], rfl, rfl⟩
  rw [Bridge.onMessage, if_neg hempty, Event.announced, Event.request?]
  cases PluginMessage.parse data with
  | error err =>
    exact ⟨[.trace (.messageDropped data err), .console .error (Bridge.report data err)],
      rfl, rfl⟩
  | ok message =>
    cases message with
    | errorLog text => exact ⟨[.console .log text], rfl, rfl⟩
    | stream id text => exact ⟨_, echoed_receive bridge id text, rfl⟩
    | rpc request =>
      simp only [Bridge.dispatch, h]
      cases bridge.storage with
      -- Without a storage the failure follows the line of the request at once.
      | none => exact ⟨_, request.echoed_close (.inr rfl), rfl⟩
      | some storage => exact ⟨[], rfl, rfl⟩

/-- An event is announced if it makes a request; apart from that only failures are shown. -/
theorem echoed_react {session : Session ω} (htraced : session.bridge.traced = true)
    (htasks : session.TasksEnsure Echoed) (event : Event ω) :
    ∃ rest, Echoed rest ∧ (session.react event).2 = event.announced ++ rest := by
  cases event with
  | message data =>
    rw [react_message]
    exact echoed_onMessage htraced data
  | stdout text => exact ⟨_, echoed_map_console (by decide) _, rfl⟩
  | stderr text => exact ⟨_, echoed_map_console (by decide) _, rfl⟩
  | keyPress code => exact ⟨_, echoed_keyPress code, rfl⟩
  | keyDown code => exact ⟨_, echoed_keyDown code, rfl⟩
  | poll task =>
    refine ⟨(session.poll task).2.1, ?_, rfl⟩
    rcases (htasks.poll task).2 with ⟨-, hechoed⟩ | ⟨-, hnil⟩
    · exact hechoed
    · rw [hnil]
      rfl
  | _ => exact ⟨[], rfl, rfl⟩

/-- **What a traced session shows.**  To what the silenced session does, it adds the line of the
request and a line right before each failure. -/
theorem outward_react {session : Session ω} (htraced : session.bridge.traced = true)
    (htasks : session.TasksEnsure Echoed) (event : Event ω) :
    outward (session.react event).2 =
      event.opening ++ (outward (session.silenced.react event).2).flatMap Effect.echoed := by
  obtain ⟨rest, hrest, heffects⟩ := echoed_react htraced htasks event
  rw [react_silenced, heffects, quiet_append, outward_append, outward_append, outward_announced,
    outward_quiet_announced, List.nil_append, ← outward_flatMap_echoed, ← hrest]

theorem outward_run {session : Session ω} (htraced : session.bridge.traced = true)
    (htasks : session.TasksEnsure Echoed) (course : List (Event ω)) :
    (session.run course).2.map outward =
      List.zipWith (fun event effects => event.opening ++ effects.flatMap Effect.echoed) course
        ((session.silenced.run course).2.map outward) := by
  induction course generalizing session with
  | nil => rfl
  | cons event rest ih =>
    -- New tasks are those of a traced bridge, since tracing is never switched off.
    have hnew (storage : Storage ω) (request : FileRequest) :
        (request.task session.bridge.traced storage).ActsAtEnd Echoed := by
      rw [htraced]
      exact request.actsAtEnd_echoed_task storage
    have hrest := ih ((session.traced_react event).trans htraced) (htasks.react hnew event)
    rw [run_cons, run_cons, List.map_cons, List.map_cons, List.zipWith_cons_cons,
      outward_react htraced htasks event, hrest, react_silenced]

/-! ## The two runs -/

theorem number_start_silenced (session : Session ω) (data : String) :
    (session.silenced.start data).2.2 = (session.start data).2.2 := by
  rw [number_start, number_start, silenced, List.length_map]

theorem drop_silenced (session : Session ω) (number : Nat) :
    (session.silenced.drop number).2 = (session.drop number).2 := by
  rw [drop, drop, task?_silenced]
  exact Option.isSome_map

/-- **Tracing only observes.**  Two sessions see the same course, one traced and one silent.

* Event by event, the silent one does what the traced one does, without the lines at the level of
  information, of which it writes none; so both post the same texts.
* After any course both have the same unfinished lines, start tasks for the same messages and under
  the same numbers, and give the same result for every poll and every drop.
* Event by event, the traced one adds to the posts and lines of the silent one: first the line of
  the request, if there is one, and right before each failure the line `=> -1`. -/
theorem tracing_only_observes (storage : Option (Storage ω)) (world : ω)
    (course : List (Event ω)) :
    let traced := (fresh { storage, traced := true } world).run course
    let silent := (fresh { storage, traced := false } world).run course
    (silent.2 = traced.2.map quiet ∧
      silent.2.map sent = traced.2.map sent ∧
      silent.2.map written =
        traced.2.map (fun effects => (written effects).filter fun line => line.1 ≠ .info) ∧
      linesAt .info silent.2.flatten = []) ∧
    ({ silent.1.bridge with traced := true } = traced.1.bridge ∧
      (∀ data, (silent.1.start data).2.2 = (traced.1.start data).2.2) ∧
      (∀ number, (silent.1.poll number).2.2 = (traced.1.poll number).2.2) ∧
      ∀ number, (silent.1.drop number).2 = (traced.1.drop number).2) ∧
    traced.2.map outward =
      List.zipWith (fun event effects => event.opening ++ effects.flatMap Effect.echoed) course
        (silent.2.map outward) := by
  intro traced silent
  -- The silent run is the traced one, silenced.
  have hsilent : silent = (traced.1.silenced, traced.2.map quiet) :=
    run_silenced (fresh { storage, traced := true } world) course
  have htraced : traced.1.bridge.traced = true := traced_run _ course
  have hshown : traced.2.map outward = List.zipWith _ course (silent.2.map outward) :=
    outward_run rfl (tasksEnsure_fresh _ world) course
  clear_value traced silent
  subst hsilent
  refine ⟨⟨rfl, ?_, ?_, ?_⟩, ⟨?_, ?_, ?_, ?_⟩, hshown⟩
  · rw [List.map_map]
    exact List.map_congr_left fun effects _ => sent_quiet effects
  · rw [List.map_map]
    exact List.map_congr_left fun effects _ => written_quiet effects
  · rw [linesAt_flatten, List.map_map]
    apply List.flatten_eq_nil_iff.2
    exact List.forall_mem_map.2 fun effects _ => linesAt_info_quiet effects
  · simp only [silenced, ← htraced]
  · exact number_start_silenced traced.1
  · intro number
    rw [poll_silenced]
  · exact drop_silenced traced.1

end Session

end PluginBridge
