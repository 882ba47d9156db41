import PluginBridge.Session

/-!
# Courses of events

What can be said about a course of events without running it: which requests it makes, what the
world is after it, and in which worlds it polls the task of a number.  `Task.ending?` is what a task
does in the poll that ends it, if polls in given worlds do; the task of a request ends when they
bring the answer of its storage (`Future.answer?`), and does what that calls for
(`FileRequest.ending?_answering`).

The second half says what one event does to each part of a session, so that later proofs do not
have to look into `react`.
-/

namespace PluginBridge

/-! ## Polls in a changing world -/

namespace Future

variable {ω α β : Type}

/-- The value of a computation that has ended. -/
def value? : Future ω α → Option α
  | ready value => some value
  | poll _ => none

/-- What is left after one poll in each of `worlds`. -/
def steps (future : Future ω α) (worlds : List ω) : Future ω α :=
  worlds.foldl (fun left world => left.step world) future

/-- The answer that one poll in each of `worlds` brings.  Before the first poll there is none. -/
def answer? (future : Future ω α) (worlds : List ω) : Option α :=
  if worlds.isEmpty then none else (future.steps worlds).value?

@[simp] theorem steps_cons (future : Future ω α) (world : ω) (worlds : List ω) :
    future.steps (world :: worlds) = (future.step world).steps worlds := rfl

@[simp] theorem steps_ready (value : α) (worlds : List ω) :
    (ready value : Future ω α).steps worlds = ready value := by
  induction worlds with
  | nil => rfl
  | cons world rest ih => exact ih

theorem steps_map (f : α → β) (future : Future ω α) (worlds : List ω) :
    (future.map f).steps worlds = (future.steps worlds).map f := by
  induction worlds generalizing future with
  | nil => rfl
  | cons world rest ih =>
    rw [steps_cons, steps_cons, ← ih]
    cases future <;> rfl

theorem value?_map (f : α → β) (future : Future ω α) :
    (future.map f).value? = future.value?.map f := by
  cases future <;> rfl

theorem eq_ready_of_value? {future : Future ω α} {value : α} (h : future.value? = some value) :
    future = ready value := by
  cases future with
  | ready found =>
    cases h
    rfl
  | poll next => cases h

theorem answer?_map (f : α → β) (future : Future ω α) (worlds : List ω) :
    (future.map f).answer? worlds = (future.answer? worlds).map f := by
  rw [answer?, answer?, steps_map, value?_map]
  split <;> rfl

end Future

namespace Task

variable {ω : Type}

/-- What is left after one poll in each of `worlds`. -/
def steps (task : Task ω) (worlds : List ω) : Task ω :=
  worlds.foldl (fun left world => (left.step world).2) task

/-- What is done in the poll that ends the task, if there is one poll in each of `worlds`. -/
def ending? : Task ω → List ω → Option (List Effect)
  | _, [] => none
  | task, world :: rest =>
    if task.hasEnded then none
    else if (task.step world).2.hasEnded then some (task.step world).1
    else (task.step world).2.ending? rest

theorem ending?_of_hasEnded {task : Task ω} (h : task.hasEnded = true) (worlds : List ω) :
    task.ending? worlds = none := by
  cases worlds with
  | nil => rfl
  | cons world rest => rw [ending?, if_pos h]

@[simp] theorem steps_ended (worlds : List ω) : (ended : Task ω).steps worlds = ended := by
  induction worlds with
  | nil => rfl
  | cons world rest ih => exact ih

theorem ending?_of_ready {task : Task ω} {world : ω} {effects : List Effect}
    (htask : task.hasEnded = false) (hstep : task.step world = (effects, ended))
    (rest : List ω) : task.ending? (world :: rest) = some effects := by
  rw [ending?, htask, hstep]
  rfl

theorem ending?_of_pending {task : Task ω} {world : ω} {effects : List Effect}
    {next : ω → Task ω} (htask : task.hasEnded = false)
    (hstep : task.step world = (effects, wait next)) (rest : List ω) :
    task.ending? (world :: rest) = (wait next).ending? rest := by
  rw [ending?, htask, hstep]
  rfl

/-- The last of the polls that lead to the end is the one that brings it. -/
theorem step_steps_of_ending? {task : Task ω} {worlds : List ω} {world : ω}
    {effects : List Effect} (hleft : (task.steps worlds).hasEnded = false)
    (hending : task.ending? (worlds ++ [world]) = some effects) :
    (task.steps worlds).step world = (effects, ended) := by
  induction worlds generalizing task with
  | nil =>
    have htask : task.hasEnded = false := hleft
    rcases task.step_cases world with ⟨found, hstep⟩ | ⟨found, next, hstep⟩
    · rw [List.nil_append, ending?_of_ready htask hstep] at hending
      cases hending
      exact hstep
    · rw [List.nil_append, ending?_of_pending htask hstep] at hending
      cases hending
  | cons first rest ih =>
    have hsteps : task.steps (first :: rest) = (task.step first).2.steps rest := rfl
    rw [hsteps] at hleft ⊢
    apply ih hleft
    rw [List.cons_append, ending?] at hending
    split at hending
    · cases hending
    rcases task.step_cases first with ⟨found, hstep⟩ | ⟨found, next, hstep⟩
    · -- A task that has ended is not left waiting by the polls after it.
      rw [hstep, steps_ended] at hleft
      cases hleft
    · rw [hstep] at hending ⊢
      exact hending

end Task

/-! ## Waiting for an answer -/

namespace FileRequest

variable {ω α : Type} {reply : α → List Effect} {answer : Future ω α} {world : ω}

theorem hasEnded_answering : (answering reply answer).hasEnded = false := rfl

theorem hasEnded_task (traced : Bool) (storage : Storage ω) (request : FileRequest) :
    (request.task traced storage).hasEnded = false := by
  cases request <;> exact hasEnded_answering

/-- The poll that brings the answer does what it calls for. -/
theorem step_answering_of_ready {value : α} (h : answer.step world = .ready value) :
    (answering reply answer).step world = (reply value, .ended) := by
  show ((Task.await _ (answer.step world)).effects, (Task.await _ (answer.step world)).left) = _
  rw [h, Task.await, Task.effects_perform, Task.left_perform]
  exact Prod.ext (List.append_nil _) rfl

/-- A poll that brings no answer does nothing. -/
theorem step_answering_of_poll {next : ω → Future ω α} (h : answer.step world = .poll next) :
    (answering reply answer).step world = ([], answering reply (.poll next)) := by
  show ((Task.await _ (answer.step world)).effects, (Task.await _ (answer.step world)).left) = _
  rw [h]
  rfl

/-- The task ends with the poll that brings the answer. -/
theorem ending?_answering (worlds : List ω) :
    (answering reply answer).ending? worlds = (answer.answer? worlds).map reply := by
  induction worlds generalizing answer with
  | nil => rfl
  | cons world rest ih =>
    cases hstep : answer.step world with
    | ready value =>
      have hanswer : answer.answer? (world :: rest) = some value := by
        rw [Future.answer?, Future.steps_cons, hstep, Future.steps_ready]
        rfl
      rw [Task.ending?_of_ready hasEnded_answering (step_answering_of_ready hstep), hanswer,
        Option.map_some]
    | poll next =>
      have hanswer : answer.answer? (world :: rest) = (Future.poll next).answer? rest := by
        rw [Future.answer?, Future.steps_cons, hstep]
        cases rest <;> rfl
      rw [Task.ending?_of_pending hasEnded_answering (step_answering_of_poll hstep), hanswer]
      exact ih

end FileRequest

namespace Session

variable {ω : Type}

/-- A session in which nothing has happened yet. -/
def fresh (bridge : Bridge ω) (world : ω) : Session ω :=
  { bridge, world }

/-! ## Reading a course -/

/-- The request that an event makes. -/
def Event.request? : Event ω → Option FileRequest
  | .message data =>
    match PluginMessage.parse data with
    | .ok (.rpc request) => some request
    | _ => none
  | _ => none

/-- How many requests a course makes.  The next request gets this number. -/
def requestCount (course : List (Event ω)) : Nat :=
  (course.filterMap Event.request?).length

/-- The world after an event. -/
def Event.changed (world : ω) : Event ω → ω
  | .change f => f world
  | _ => world

/-- The world after a course of events. -/
def worldAfter (world : ω) (course : List (Event ω)) : ω :=
  course.foldl Event.changed world

/-- The worlds in which a course polls the task of a number, until it gives the task up. -/
def pollWorlds (number : Nat) : ω → List (Event ω) → List ω
  | _, [] => []
  | world, .poll task :: rest =>
    if task = number then world :: pollWorlds number world rest else pollWorlds number world rest
  | world, .drop task :: rest => if task = number then [] else pollWorlds number world rest
  | world, event :: rest => pollWorlds number (event.changed world) rest

/-- Does an event poll or give up the task of a number? -/
def Event.Touches (number : Nat) : Event ω → Prop
  | .poll task => task = number
  | .drop task => task = number
  | _ => False

instance (number : Nat) (event : Event ω) : Decidable (event.Touches number) := by
  cases event <;> unfold Event.Touches <;> infer_instance

@[simp] theorem requestCount_cons (event : Event ω) (rest : List (Event ω)) :
    requestCount (event :: rest) = event.request?.toList.length + requestCount rest := by
  cases h : event.request? <;> simp [requestCount, h, Nat.add_comm]

theorem pollWorlds_cons_of_not_touches {number : Nat} {event : Event ω}
    (h : ¬event.Touches number) (world : ω) (rest : List (Event ω)) :
    pollWorlds number world (event :: rest) = pollWorlds number (event.changed world) rest := by
  cases event with
  | poll task =>
    rw [pollWorlds]
    exact if_neg h
  | drop task =>
    rw [pollWorlds]
    exact if_neg h
  | _ => rfl

/-- An event that makes a request is a message that reads as one. -/
theorem Event.request?_eq_some_iff {event : Event ω} {request : FileRequest} :
    event.request? = some request ↔
      ∃ data, event = .message data ∧ PluginMessage.parse data = .ok (.rpc request) := by
  cases event with
  | message data =>
    rw [Event.request?]
    split <;> simp_all
  | _ => simp [Event.request?]

theorem Event.not_touches_of_request {event : Event ω} {request : FileRequest}
    (h : event.request? = some request) (number : Nat) : ¬event.Touches number := by
  obtain ⟨data, rfl, -⟩ := Event.request?_eq_some_iff.1 h
  exact not_false

theorem Event.changed_of_request {event : Event ω} {request : FileRequest}
    (h : event.request? = some request) (world : ω) : event.changed world = world := by
  obtain ⟨data, rfl, -⟩ := Event.request?_eq_some_iff.1 h
  rfl

/-! ## Runs -/

@[simp] theorem run_nil (session : Session ω) : session.run [] = (session, []) := rfl

@[simp] theorem run_cons (session : Session ω) (event : Event ω) (rest : List (Event ω)) :
    session.run (event :: rest) =
      (((session.react event).1.run rest).1,
        (session.react event).2 :: ((session.react event).1.run rest).2) := rfl

theorem run_append (session : Session ω) (before after : List (Event ω)) :
    session.run (before ++ after) =
      (((session.run before).1.run after).1,
        (session.run before).2 ++ ((session.run before).1.run after).2) := by
  induction before generalizing session with
  | nil => simp
  | cons event rest ih => simp [ih]

/-! ## One event -/

/-- The task that a message starts is that of the request it makes, if there is a storage. -/
theorem task_onMessage (bridge : Bridge ω) (data : String) :
    (bridge.onMessage data).task =
      (Event.message data : Event ω).request?.bind fun request =>
        bridge.storage.map (request.task bridge.traced) := by
  by_cases hempty : data = ""
  · subst hempty
    rfl
  rw [Bridge.onMessage, if_neg hempty, Event.request?]
  cases PluginMessage.parse data with
  | error err => rfl
  | ok message =>
    cases message with
    | errorLog text => rfl
    | stream id text => rfl
    | rpc request =>
      simp only [Bridge.dispatch]
      cases bridge.storage <;> rfl

/-- A message changes nothing of the bridge but its two buffers. -/
theorem bridge_onMessage (bridge : Bridge ω) (data : String) :
    ∃ stdout stderr, (bridge.onMessage data).bridge = { bridge with stdout, stderr } := by
  rw [Bridge.onMessage]
  split
  · exact ⟨_, _, rfl⟩
  cases PluginMessage.parse data with
  | error err => exact ⟨_, _, rfl⟩
  | ok message =>
    cases message with
    | errorLog text => exact ⟨_, _, rfl⟩
    | stream id text => cases id <;> exact ⟨_, _, rfl⟩
    | rpc request =>
      simp only [Bridge.dispatch]
      split <;> exact ⟨_, _, rfl⟩

theorem start_eq (session : Session ω) (data : String) :
    session.start data =
      ({ session with
          bridge := (session.bridge.onMessage data).bridge
          tasks := session.tasks ++ (session.bridge.onMessage data).task.toList },
        (session.bridge.onMessage data).effects,
        (session.bridge.onMessage data).task.map fun _ => session.tasks.length) := by
  rw [start]
  cases htask : (session.bridge.onMessage data).task <;> simp

/-- The task that a message starts has the number of the next request. -/
theorem number_start (session : Session ω) (data : String) :
    (session.start data).2.2 =
      (Event.message data : Event ω).request?.bind fun _ =>
        session.bridge.storage.map fun _ => session.tasks.length := by
  rw [start_eq, task_onMessage]
  cases (Event.message data : Event ω).request? with
  | none => rfl
  | some request => cases session.bridge.storage <;> rfl

theorem react_message (session : Session ω) (data : String) :
    session.react (.message data) =
      ({ session with
          bridge := (session.bridge.onMessage data).bridge
          tasks := session.tasks ++ (session.bridge.onMessage data).task.toList },
        (session.bridge.onMessage data).effects) := by
  rw [react, start_eq]

/-- A poll changes nothing but what is kept of its task. -/
theorem poll_eq_set (session : Session ω) (number : Nat) :
    ∃ left, (session.poll number).1 = { session with tasks := session.tasks.set number left } := by
  rw [poll]
  cases session.task? number with
  | none =>
    by_cases hlt : number < session.tasks.length
    · exact ⟨session.tasks[number], by simp⟩
    · exact ⟨.ended, by simp [List.set_eq_of_length_le (Nat.le_of_not_lt hlt)]⟩
  | some task => exact ⟨_, rfl⟩

@[simp] theorem world_react (session : Session ω) (event : Event ω) :
    (session.react event).1.world = event.changed session.world := by
  cases event with
  | message data =>
    rw [react_message]
    rfl
  | poll task =>
    obtain ⟨left, h⟩ := session.poll_eq_set task
    rw [react, h]
    rfl
  | _ => rfl

/-- No event changes anything of the bridge but its two buffers. -/
theorem bridge_react (session : Session ω) (event : Event ω) :
    ∃ stdout stderr, (session.react event).1.bridge = { session.bridge with stdout, stderr } := by
  cases event with
  | message data =>
    rw [react_message]
    exact bridge_onMessage session.bridge data
  | poll task =>
    obtain ⟨left, h⟩ := session.poll_eq_set task
    rw [react, h]
    exact ⟨_, _, rfl⟩
  | _ => exact ⟨_, _, rfl⟩

@[simp] theorem storage_react (session : Session ω) (event : Event ω) :
    (session.react event).1.bridge.storage = session.bridge.storage := by
  obtain ⟨stdout, stderr, h⟩ := session.bridge_react event
  rw [h]

@[simp] theorem traced_react (session : Session ω) (event : Event ω) :
    (session.react event).1.bridge.traced = session.bridge.traced := by
  obtain ⟨stdout, stderr, h⟩ := session.bridge_react event
  rw [h]

/-- With a storage, each request gets a task. -/
theorem length_tasks_react {session : Session ω} {storage : Storage ω}
    (h : session.bridge.storage = some storage) (event : Event ω) :
    (session.react event).1.tasks.length =
      session.tasks.length + event.request?.toList.length := by
  cases event with
  | message data =>
    rw [react_message, List.length_append, task_onMessage, h]
    cases (Event.message data : Event ω).request? <;> rfl
  | poll task =>
    obtain ⟨left, h⟩ := session.poll_eq_set task
    rw [react, h]
    exact List.length_set
  | drop task => exact List.length_set
  | _ => rfl

/-- With a storage, a request gets its task under the next number. -/
theorem getElem?_tasks_react_of_request {session : Session ω} {storage : Storage ω}
    (hstorage : session.bridge.storage = some storage) {event : Event ω} {request : FileRequest}
    (hrequest : event.request? = some request) :
    (session.react event).1.tasks[session.tasks.length]? =
      some (request.task session.bridge.traced storage) := by
  obtain ⟨data, rfl, -⟩ := Event.request?_eq_some_iff.1 hrequest
  rw [react_message, task_onMessage, hrequest, hstorage]
  exact List.getElem?_concat_length

/-- An event that does not touch a task leaves it as it is. -/
theorem getElem?_tasks_react {session : Session ω} {number : Nat} {task : Task ω}
    {event : Event ω} (htask : session.tasks[number]? = some task) (h : ¬event.Touches number) :
    (session.react event).1.tasks[number]? = some task := by
  rw [← htask]
  cases event with
  | message data =>
    rw [react_message]
    exact List.getElem?_append_left (List.getElem?_eq_some_iff.1 htask).1
  | poll task =>
    obtain ⟨left, hpoll⟩ := session.poll_eq_set task
    rw [react, hpoll]
    exact List.getElem?_set_ne h
  | drop task => exact List.getElem?_set_ne h
  | _ => rfl

/-! ## One poll -/

theorem task?_eq_some_iff {session : Session ω} {number : Nat} {task : Task ω} :
    session.task? number = some task ↔
      session.tasks[number]? = some task ∧ task.hasEnded = false := by
  rw [task?, Option.filter_eq_some_iff, Bool.not_eq_true']

theorem task?_of_getElem?_none {session : Session ω} {number : Nat}
    (h : session.tasks[number]? = none) : session.task? number = none := by
  rw [task?, h, Option.filter_none]

theorem task?_of_hasEnded {session : Session ω} {number : Nat} {task : Task ω}
    (hget : session.tasks[number]? = some task) (hended : task.hasEnded = true) :
    session.task? number = none := by
  rw [task?, hget, Option.filter_some, hended]
  rfl

theorem poll_of_gone {session : Session ω} {number : Nat} (h : session.task? number = none) :
    session.poll number = (session, [], .gone) := by
  rw [poll, h]

/-- The poll that ends a task. -/
theorem poll_of_ready {session : Session ω} {number : Nat} {task : Task ω} {effects : List Effect}
    (h : session.task? number = some task) (hstep : task.step session.world = (effects, .ended)) :
    session.poll number =
      ({ session with tasks := session.tasks.set number .ended }, effects, .ready) := by
  rw [poll, h]
  simp only [hstep]
  rfl

/-- A poll that leaves a task waiting. -/
theorem poll_of_pending {session : Session ω} {number : Nat} {task : Task ω}
    {effects : List Effect} {next : ω → Task ω} (h : session.task? number = some task)
    (hstep : task.step session.world = (effects, .wait next)) :
    session.poll number =
      ({ session with tasks := session.tasks.set number (.wait next) }, effects, .pending) := by
  rw [poll, h]
  simp only [hstep]
  rfl

/-! ## What a run keeps -/

@[simp] theorem storage_run (session : Session ω) (course : List (Event ω)) :
    (session.run course).1.bridge.storage = session.bridge.storage := by
  induction course generalizing session with
  | nil => rfl
  | cons event rest ih => rw [run_cons, ih, storage_react]

@[simp] theorem traced_run (session : Session ω) (course : List (Event ω)) :
    (session.run course).1.bridge.traced = session.bridge.traced := by
  induction course generalizing session with
  | nil => rfl
  | cons event rest ih => rw [run_cons, ih, traced_react]

@[simp] theorem world_run (session : Session ω) (course : List (Event ω)) :
    (session.run course).1.world = worldAfter session.world course := by
  induction course generalizing session with
  | nil => rfl
  | cons event rest ih =>
    rw [run_cons, ih, world_react]
    rfl

/-- With a storage, the tasks are numbered as the requests. -/
theorem length_tasks_run {session : Session ω} {storage : Storage ω}
    (h : session.bridge.storage = some storage) (course : List (Event ω)) :
    (session.run course).1.tasks.length = session.tasks.length + requestCount course := by
  induction course generalizing session with
  | nil => rfl
  | cons event rest ih =>
    rw [run_cons, ih ((storage_react session event).trans h), length_tasks_react h,
      requestCount_cons, Nat.add_assoc]

/-- In a session that had no tasks at first, there are as many as there have been requests. -/
theorem length_tasks_fresh {bridge : Bridge ω} {world : ω} {storage : Storage ω}
    (h : bridge.storage = some storage) (course : List (Event ω)) :
    ((fresh bridge world).run course).1.tasks.length = requestCount course := by
  have hlength := @length_tasks_run _ (fresh bridge world) _ h course
  rwa [show (fresh bridge world).tasks.length = 0 from rfl, Nat.zero_add] at hlength

/-- A course that does not touch a task leaves it as it is. -/
theorem getElem?_tasks_run {session : Session ω} {number : Nat} {task : Task ω}
    {course : List (Event ω)} (htask : session.tasks[number]? = some task)
    (h : ∀ event ∈ course, ¬event.Touches number) :
    (session.run course).1.tasks[number]? = some task := by
  induction course generalizing session with
  | nil => exact htask
  | cons event rest ih =>
    obtain ⟨hevent, hrest⟩ := List.forall_mem_cons.1 h
    exact ih (getElem?_tasks_react htask hevent) hrest

end Session

end PluginBridge
