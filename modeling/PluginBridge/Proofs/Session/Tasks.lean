import PluginBridge.Proofs.Session.Course

/-!
# What tasks can do

A task replies to the request that started it and does nothing else.  Whatever the storage answers
and when, it does nothing before its last poll, and the effects of that one belong to a reply
(`Effect.IsReply`): no key is typed, and the console hears nothing above the level of information.

`Task.ActsAtEnd` says so of a single task and `TasksEnsure` of the tasks that a session holds.  What
the tasks of new requests ensure is kept by every event (`TasksEnsure.react`), and hence by every
course from the beginning.
-/

namespace PluginBridge

namespace Task

variable {ω : Type} {P : List Effect → Prop}

/-- Whatever worlds the polls find, the task does nothing before the last of them, and what it does
in that one satisfies `P`. -/
def ActsAtEnd (P : List Effect → Prop) : Task ω → Prop
  | wait next => ∀ world, (next world).ActsAtEnd P
  | task => task.left = ended ∧ P task.effects

theorem actsAtEnd_perform {effects : List Effect} (h : P effects) :
    (perform effects ended : Task ω).ActsAtEnd P := by
  cases effects with
  | nil => exact ⟨rfl, h⟩
  | cons effect rest =>
    refine ⟨left_perform (effect :: rest) ended, ?_⟩
    show P (perform (effect :: rest) ended : Task ω).effects
    rw [effects_perform]
    simpa [effects] using h

/-- A task that does not wait ends in its next poll. -/
theorem step_of_left_eq_ended {task : Task ω} (h : task.left = ended) (world : ω) :
    task.step world = (task.effects, ended) := by
  induction task with
  | ended => rfl
  | act effect rest ih => rw [step, ih h, effects]
  | wait next => cases h

/-- A poll ends the task and does what it should, or it does nothing. -/
theorem ActsAtEnd.step {task : Task ω} (h : task.ActsAtEnd P) (world : ω) :
    (∃ effects, P effects ∧ task.step world = (effects, ended)) ∨
      ∃ next, (wait next).ActsAtEnd P ∧ task.step world = ([], wait next) := by
  cases task with
  | ended => exact .inl ⟨[], h.2, rfl⟩
  | act effect rest => exact .inl ⟨_, h.2, step_of_left_eq_ended h.1 world⟩
  | wait next =>
    have hnext : (next world).ActsAtEnd P := h world
    rw [Task.step]
    cases hworld : next world with
    | ended =>
      rw [hworld] at hnext
      exact .inl ⟨[], hnext.2, rfl⟩
    | act effect rest =>
      rw [hworld] at hnext
      exact .inl ⟨_, hnext.2, Prod.ext rfl hnext.1⟩
    | wait later =>
      rw [hworld] at hnext
      exact .inr ⟨later, hnext, rfl⟩

end Task

/-! ## Replies -/

/-- A message that is part of a reply: everything but a keystroke. -/
def HostMessage.IsReply : HostMessage → Prop
  | key _ => False
  | _ => True

/-- An effect that is part of a reply. -/
def Effect.IsReply : Effect → Prop
  | post message => message.IsReply
  | console level _ => level = .info
  | trace _ => True

namespace FileRequest

theorem isReply_closing (request : FileRequest) (status : ReplyStatus) :
    (request.closing status).IsReply := by
  cases request <;> trivial

theorem isReply_close (request : FileRequest) (traced : Bool) (status : ReplyStatus) :
    ∀ effect ∈ request.close traced status, effect.IsReply := by
  intro effect hmem
  rw [close, List.mem_append] at hmem
  rcases hmem with hmem | hmem
  · split at hmem
    · rw [List.mem_singleton.1 hmem]
      exact rfl
    · cases hmem
  · rw [List.mem_singleton.1 hmem]
    exact request.isReply_closing status

theorem isReply_listingReply (traced : Bool) (path : String)
    (answer : Except StorageError (List Child)) :
    ∀ effect ∈ listingReply traced path answer, effect.IsReply := by
  intro effect hmem
  cases answer with
  | ok children =>
    rcases List.mem_append.1 hmem with hmem | hmem
    · obtain ⟨child, -, rfl⟩ := List.mem_map.1 hmem
      exact trivial
    · exact isReply_close _ _ _ effect hmem
  | error err =>
    rcases List.mem_cons.1 hmem with rfl | hmem
    · exact trivial
    · exact isReply_close _ _ _ effect hmem

theorem isReply_statReply (traced : Bool) (path : String) (answer : Except StorageError Unit) :
    ∀ effect ∈ statReply traced path answer, effect.IsReply := by
  intro effect hmem
  cases answer with
  | ok done => exact isReply_close _ _ _ effect hmem
  | error err =>
    rcases List.mem_cons.1 hmem with rfl | hmem
    · exact trivial
    · exact isReply_close _ _ _ effect hmem

/-- The task that waits for an answer does nothing before it is there. -/
theorem actsAtEnd_answering {ω α : Type} {P : List Effect → Prop} {reply : α → List Effect}
    (h : ∀ value, P (reply value)) (answer : Future ω α) :
    (answering reply answer).ActsAtEnd P := by
  rw [answering]
  induction answer.suspended with
  | ready value => exact Task.actsAtEnd_perform (h value)
  | poll next ih => exact ih

/-- **A request is answered at the end.**  While the storage has not answered, its task does nothing
at all; then it does what belongs to a reply. -/
theorem actsAtEnd_task {ω : Type} (traced : Bool) (storage : Storage ω) (request : FileRequest) :
    (request.task traced storage).ActsAtEnd fun effects => ∀ effect ∈ effects, effect.IsReply := by
  cases request with
  | list path => exact actsAtEnd_answering (isReply_listingReply traced path) _
  | stat path => exact actsAtEnd_answering (isReply_statReply traced path) _

end FileRequest

/-! ## Sessions -/

namespace Session

variable {ω : Type} {P : List Effect → Prop}

/-- Each task of the session does nothing before its end, and what it does then satisfies `P`. -/
def TasksEnsure (P : List Effect → Prop) (session : Session ω) : Prop :=
  ∀ task ∈ session.tasks, task.hasEnded = false → task.ActsAtEnd P

/-- Each task of the session does nothing but reply. -/
abbrev OnlyReplies (session : Session ω) : Prop :=
  session.TasksEnsure fun effects => ∀ effect ∈ effects, effect.IsReply

theorem tasksEnsure_fresh (bridge : Bridge ω) (world : ω) :
    (fresh bridge world).TasksEnsure P := by
  intro task hmem
  cases hmem

/-- A poll that ends its task does what the task ensures, any other poll does nothing, and the tasks
still ensure it. -/
theorem TasksEnsure.poll {session : Session ω} (h : session.TasksEnsure P) (number : Nat) :
    (session.poll number).1.TasksEnsure P ∧
      (((session.poll number).2.2 = .ready ∧ P (session.poll number).2.1) ∨
        ((session.poll number).2.2 ≠ .ready ∧ (session.poll number).2.1 = [])) := by
  cases htask : session.task? number with
  | none =>
    rw [poll_of_gone htask]
    exact ⟨h, .inr ⟨by simp, rfl⟩⟩
  | some task =>
    obtain ⟨hget, hunended⟩ := task?_eq_some_iff.1 htask
    rcases (h task (List.mem_of_getElem? hget) hunended).step session.world with
      ⟨effects, hP, hstep⟩ | ⟨next, hnext, hstep⟩
    · rw [poll_of_ready htask hstep]
      refine ⟨?_, .inl ⟨rfl, hP⟩⟩
      intro other hmem hother
      rcases List.mem_or_eq_of_mem_set hmem with hmem | rfl
      · exact h other hmem hother
      · cases hother
    · rw [poll_of_pending htask hstep]
      refine ⟨?_, .inr ⟨by simp, rfl⟩⟩
      intro other hmem hother
      rcases List.mem_or_eq_of_mem_set hmem with hmem | rfl
      · exact h other hmem hother
      · exact hnext

/-- What the tasks of new requests ensure, a session keeps through every event. -/
theorem TasksEnsure.react {session : Session ω} (h : session.TasksEnsure P)
    (hnew : ∀ storage request,
      (FileRequest.task session.bridge.traced storage request : Task ω).ActsAtEnd P)
    (event : Event ω) : (session.react event).1.TasksEnsure P := by
  cases event with
  | message data =>
    rw [react_message, task_onMessage]
    intro task hmem hunended
    rcases List.mem_append.1 hmem with hmem | hmem
    · exact h task hmem hunended
    · -- A new task is that of a request to the storage.
      obtain ⟨request, -, hstorage⟩ := Option.bind_eq_some_iff.1 (Option.mem_toList.1 hmem)
      obtain ⟨storage, -, rfl⟩ := Option.map_eq_some_iff.1 hstorage
      exact hnew storage request
  | poll task => exact (h.poll task).1
  | drop number =>
    intro task hmem hunended
    rcases List.mem_or_eq_of_mem_set hmem with hmem | rfl
    · exact h task hmem hunended
    · cases hunended
  | _ => exact h

theorem OnlyReplies.react {session : Session ω} (h : session.OnlyReplies) (event : Event ω) :
    (session.react event).1.OnlyReplies :=
  TasksEnsure.react h (fun storage request => request.actsAtEnd_task _ storage) event

theorem OnlyReplies.run {session : Session ω} (h : session.OnlyReplies)
    (course : List (Event ω)) : (session.run course).1.OnlyReplies := by
  induction course generalizing session with
  | nil => exact h
  | cons event rest ih => exact ih (OnlyReplies.react h event)

/-- A poll does what belongs to a reply. -/
theorem OnlyReplies.isReply_poll {session : Session ω} (h : session.OnlyReplies) (number : Nat) :
    ∀ effect ∈ (session.poll number).2.1, effect.IsReply := by
  rcases (TasksEnsure.poll h number).2 with ⟨-, hreply⟩ | ⟨-, hnil⟩
  · exact hreply
  · rw [hnil]
    exact fun effect hmem => by cases hmem

/-- A poll that does not end its task does nothing. -/
theorem OnlyReplies.effects_poll {session : Session ω} (h : session.OnlyReplies) {number : Nat}
    (hready : (session.poll number).2.2 ≠ .ready) : (session.poll number).2.1 = [] := by
  rcases (TasksEnsure.poll h number).2 with ⟨hended, -⟩ | ⟨-, hnil⟩
  · exact absurd hended hready
  · exact hnil

end Session

end PluginBridge
