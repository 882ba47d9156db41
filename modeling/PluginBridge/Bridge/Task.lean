import PluginBridge.Future
import PluginBridge.Trace
import PluginBridge.Wire.HostMessage

/-!
# Effects and tasks

What the bridge does is a list of effects, in order: messages posted to the plugin, lines for the
console and events for an observer.

A task is a computation that does such things and waits, by turns.  It goes on when it is polled;
each poll sees the world as it is at that moment, and does everything up to the next wait.
-/

namespace PluginBridge

/-- Something that the bridge does. -/
inductive Effect where
  | post (message : HostMessage)
  | console (level : ConsoleLevel) (text : String)
  | trace (event : TraceEvent)
  deriving DecidableEq, Repr

namespace Effect

/-- The message that is posted. -/
def posted? : Effect → Option HostMessage
  | post message => some message
  | _ => none

/-- The line that is written to the console. -/
def line? : Effect → Option (ConsoleLevel × String)
  | console level text => some (level, text)
  | _ => none

/-- The event that is traced. -/
def event? : Effect → Option TraceEvent
  | trace event => some event
  | _ => none

end Effect

/-- A computation over worlds `ω` that has effects. -/
inductive Task (ω : Type) where
  /-- The task has ended, or was given up. -/
  | ended
  /-- The task does something and goes on at once. -/
  | act (effect : Effect) (rest : Task ω)
  /-- The task goes on when it is polled. -/
  | wait (next : ω → Task ω)

namespace Task

variable {ω α : Type}

/-- Is there nothing that the task still waits for? -/
def hasEnded : Task ω → Bool
  | ended => true
  | act _ rest => rest.hasEnded
  | wait _ => false

/-- Does some effects, in order, and goes on. -/
def perform (effects : List Effect) (rest : Task ω) : Task ω :=
  effects.foldr act rest

/-- Waits for a computation, and goes on with its value in the very poll that brings it. -/
def await (next : α → Task ω) : Future ω α → Task ω
  | .ready value => next value
  | .poll rest => wait fun world => await next (rest world)

/-! ## Polls -/

/-- What a task does before it waits. -/
def effects : Task ω → List Effect
  | act effect rest => effect :: rest.effects
  | _ => []

/-- The task from its next wait on. -/
def left : Task ω → Task ω
  | act _ rest => rest.left
  | task => task

/-- One poll: what is done in it, and what is left of the task. -/
def step (world : ω) : Task ω → List Effect × Task ω
  | ended => ([], ended)
  | act effect rest => (effect :: (rest.step world).1, (rest.step world).2)
  | wait next => ((next world).effects, (next world).left)

/-- All that a task does, in a world that stays the same. -/
def run (world : ω) : Task ω → List Effect
  | ended => []
  | act effect rest => effect :: rest.run world
  | wait next => (next world).run world

/-- The number of polls until the end, in a world that stays the same. -/
def depth (world : ω) : Task ω → Nat
  | ended => 0
  | act _ rest => rest.depth world
  | wait next => (next world).depth world + 1

@[simp] theorem effects_perform (effects : List Effect) (rest : Task ω) :
    (perform effects rest).effects = effects ++ rest.effects := by
  induction effects with
  | nil => rfl
  | cons effect more ih => exact congrArg (effect :: ·) ih

@[simp] theorem hasEnded_perform (effects : List Effect) (rest : Task ω) :
    (perform effects rest).hasEnded = rest.hasEnded := by
  induction effects with
  | nil => rfl
  | cons effect more ih => exact ih

@[simp] theorem step_perform (effects : List Effect) (rest : Task ω) (world : ω) :
    (perform effects rest).step world =
      (effects ++ (rest.step world).1, (rest.step world).2) := by
  induction effects with
  | nil => rfl
  | cons effect more ih =>
    show (effect :: ((perform more rest).step world).1, ((perform more rest).step world).2) = _
    rw [ih]
    rfl

@[simp] theorem left_perform (effects : List Effect) (rest : Task ω) :
    (perform effects rest).left = rest.left := by
  induction effects with
  | nil => rfl
  | cons effect more ih => exact ih

theorem left_cases (task : Task ω) : task.left = ended ∨ ∃ next, task.left = wait next := by
  induction task with
  | ended => exact .inl rfl
  | act effect rest ih => exact ih
  | wait next => exact .inr ⟨next, rfl⟩

/-- A poll ends a task or leaves it waiting. -/
theorem step_cases (task : Task ω) (world : ω) :
    (∃ effects, task.step world = (effects, ended)) ∨
      ∃ effects next, task.step world = (effects, wait next) := by
  induction task with
  | ended => exact .inl ⟨[], rfl⟩
  | act effect rest ih =>
    rcases ih with ⟨effects, hstep⟩ | ⟨effects, next, hstep⟩
    · exact .inl ⟨effect :: effects, by rw [step, hstep]⟩
    · exact .inr ⟨effect :: effects, next, by rw [step, hstep]⟩
  | wait next =>
    rcases (next world).left_cases with hleft | ⟨later, hleft⟩
    · exact .inl ⟨_, Prod.ext rfl hleft⟩
    · exact .inr ⟨_, later, Prod.ext rfl hleft⟩

theorem depth_left (world : ω) (task : Task ω) : task.left.depth world = task.depth world := by
  induction task with
  | act effect rest ih => exact ih
  | _ => rfl

theorem depth_step (world : ω) (task : Task ω) :
    (task.step world).2.depth world = task.depth world - 1 := by
  induction task with
  | ended => rfl
  | act effect rest ih => exact ih
  | wait next => exact depth_left world (next world)

/-- A poll that leaves a task waiting takes one of its polls. -/
theorem depth_step_lt {world : ω} {task : Task ω} (h : (task.step world).2.hasEnded = false) :
    (task.step world).2.depth world < task.depth world := by
  have hdepth := depth_step world task
  rcases task.step_cases world with ⟨effects, hstep⟩ | ⟨effects, next, hstep⟩
  · rw [hstep] at h
    cases h
  · have hpos : 0 < (wait next).depth world := Nat.succ_pos _
    simp only [hstep] at hdepth ⊢
    omega

end Task

end PluginBridge
