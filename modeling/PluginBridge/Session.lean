import PluginBridge.Bridge.Basic

/-!
# Sessions

A session is a bridge together with the world of its storage and the tasks that its messages have
started.  Tasks are numbered in the order of their messages; one that has ended or was dropped keeps
its number.

`react` handles one event and `run` a course of events, each with the effects that it causes.
`poll_remaining` says that a poll which leaves a task pending uses up one of the polls that remain;
hence the rounds of `join` end.
-/

namespace PluginBridge

/-- A bridge at work. -/
structure Session (ω : Type) where
  bridge : Bridge ω
  world : ω
  /-- What is left of each task that has been started. -/
  tasks : List (Task ω) := []

/-- What has become of a task that was polled. -/
inductive PollResult where
  | pending
  /-- The task ended in this poll. -/
  | ready
  /-- The task had ended before, was dropped or never existed. -/
  | gone
  deriving DecidableEq, Repr, Inhabited

namespace Session

variable {ω : Type}

/-! ## Messages -/

/-- Handles a message.  A task that it starts is kept, unpolled, under the next number. -/
def start (session : Session ω) (data : String) : Session ω × List Effect × Option Nat :=
  let reaction := session.bridge.onMessage data
  match reaction.task with
  | none => ({ session with bridge := reaction.bridge }, reaction.effects, none)
  | some task =>
    ({ session with bridge := reaction.bridge, tasks := session.tasks ++ [task] },
      reaction.effects, some session.tasks.length)

/-- Handles a message and runs its task, if it starts one, to the end. -/
def deliver (session : Session ω) (data : String) : Session ω × List Effect × Bool :=
  let reaction := session.bridge.onMessage data
  let after := { session with bridge := reaction.bridge }
  match reaction.task with
  | none => (after, reaction.effects, false)
  | some task => (after, reaction.effects ++ task.run session.world, true)

/-! ## Tasks -/

/-- The task of a number, unless it is gone. -/
def task? (session : Session ω) (number : Nat) : Option (Task ω) :=
  session.tasks[number]?.filter fun task => !task.hasEnded

/-- Polls a task once. -/
def poll (session : Session ω) (number : Nat) : Session ω × List Effect × PollResult :=
  match session.task? number with
  | none => (session, [], .gone)
  | some task =>
    let (effects, left) := task.step session.world
    ({ session with tasks := session.tasks.set number left }, effects,
      if left.hasEnded then .ready else .pending)

/-- Gives a task up; the answer is whether there was one. -/
def drop (session : Session ω) (number : Nat) : Session ω × Bool :=
  ({ session with tasks := session.tasks.set number .ended }, (session.task? number).isSome)

/-- Polls tasks in order; the answer is whether one of them is still pending. -/
def pollEach (session : Session ω) : List Nat → Session ω × List Effect × Bool
  | [] => (session, [], false)
  | number :: rest =>
    let (session, effects, result) := session.poll number
    let (session, more, pending) := session.pollEach rest
    (session, effects ++ more, result = .pending || pending)

/-- The polls that all tasks together still take while the world stays the same. -/
def remaining (session : Session ω) : Nat :=
  session.tasks.foldr (fun task polls => task.depth session.world + polls) 0

theorem foldr_set_add {α : Type} (f : α → Nat) {l : List α} {i : Nat} {old : α} (new : α)
    (h : l[i]? = some old) :
    (l.set i new).foldr (fun x total => f x + total) 0 + f old =
      l.foldr (fun x total => f x + total) 0 + f new := by
  induction l generalizing i with
  | nil => simp at h
  | cons x xs ih =>
    cases i with
    | zero =>
      simp only [List.getElem?_cons_zero, Option.some.injEq] at h
      subst h
      simp only [List.set_cons_zero, List.foldr_cons]
      omega
    | succ i =>
      have := ih (i := i) (by simpa using h)
      simp only [List.set_cons_succ, List.foldr_cons]
      omega

theorem poll_remaining (session : Session ω) (number : Nat) :
    (session.poll number).1.world = session.world ∧
      (session.poll number).1.remaining + (if (session.poll number).2.2 = .pending then 1 else 0) ≤
        session.remaining := by
  unfold poll
  cases htask : session.task? number with
  | none => simp
  | some task =>
    have hget : session.tasks[number]? = some task := (Option.filter_eq_some_iff.1 htask).1
    have hsum := foldr_set_add (Task.depth session.world) (task.step session.world).2 hget
    have hstep := Task.depth_step session.world task
    cases hended : (task.step session.world).2.hasEnded with
    | true =>
      simp only [remaining, hended, if_true, reduceCtorEq, if_false, true_and]
      omega
    | false =>
      have hlt := Task.depth_step_lt hended
      simp only [remaining, hended, Bool.false_eq_true, if_false, if_true, true_and]
      omega

theorem pollEach_remaining (session : Session ω) (numbers : List Nat) :
    (session.pollEach numbers).1.world = session.world ∧
      (session.pollEach numbers).1.remaining +
          (if (session.pollEach numbers).2.2 = true then 1 else 0) ≤ session.remaining := by
  induction numbers generalizing session with
  | nil => simp [pollEach]
  | cons number rest ih =>
    have ⟨hw, hp⟩ := session.poll_remaining number
    have ⟨hw', hp'⟩ := ih (session.poll number).1
    refine ⟨hw'.trans hw, ?_⟩
    simp only [pollEach, Bool.or_eq_true, decide_eq_true_eq]
    split
    · rename_i hor
      rcases hor with hpend | hpend <;> simp only [hpend, if_true] at hp hp' <;> omega
    · omega

/-- Polls tasks in rounds until none of them is pending; the answer is the number of rounds.  At
least one round is made. -/
def join (session : Session ω) (numbers : List Nat) : Session ω × List Effect × Nat :=
  match h : session.pollEach numbers with
  | (session', effects, false) => (session', effects, 1)
  | (session', effects, true) =>
    have : session'.remaining < session.remaining := by
      have := (session.pollEach_remaining numbers).2
      rw [h] at this
      exact this
    let (last, more, rounds) := session'.join numbers
    (last, effects ++ more, rounds + 1)
termination_by session.remaining

/-! ## Events -/

/-- What can happen to a session. -/
inductive Event (ω : Type) where
  | message (data : String)
  | stdout (text : String)
  | stderr (text : String)
  | keyPress (code : UInt32)
  | keyDown (code : UInt32)
  | keyUp
  | poll (task : Nat)
  | drop (task : Nat)
  /-- Something outside the bridge changes the world. -/
  | change (f : ω → ω)

/-- One event: the session afterwards, and the effects. -/
def react (session : Session ω) : Event ω → Session ω × List Effect
  | .message data =>
    let (session, effects, _) := session.start data
    (session, effects)
  | .stdout text =>
    let (bridge, effects) := session.bridge.writeStdout text
    ({ session with bridge }, effects)
  | .stderr text =>
    let (bridge, effects) := session.bridge.writeStderr text
    ({ session with bridge }, effects)
  | .keyPress code => (session, Bridge.keyPress code)
  | .keyDown code => (session, (Bridge.keyDown code).1)
  | .keyUp => (session, [])
  | .poll task =>
    let (session, effects, _) := session.poll task
    (session, effects)
  | .drop task => ((session.drop task).1, [])
  | .change f => ({ session with world := f session.world }, [])

/-- A course of events: the last session, and the effects of each event. -/
def run (session : Session ω) : List (Event ω) → Session ω × List (List Effect)
  | [] => (session, [])
  | event :: rest =>
    let (session, effects) := session.react event
    let (session, log) := session.run rest
    (session, effects :: log)

end Session

end PluginBridge
