/-!
# Computations that wait

A future is a computation that goes on only when it is polled.  Each poll sees the world as it is
at that moment and either leaves the rest of the computation or its value.  Futures are finite: in
a world that stays the same, polling ends with the value `run`.

`andThen` goes on with the next computation in the very poll that ends the first one; `run_andThen`
says that its value is that of the two in turn.
-/

namespace PluginBridge

/-- A computation over worlds `ω` with a value in `α`. -/
inductive Future (ω α : Type) where
  /-- The computation has ended. -/
  | ready (value : α)
  /-- The computation goes on when it is polled. -/
  | poll (next : ω → Future ω α)

namespace Future

variable {ω α β : Type}

/-- One poll. -/
def step (world : ω) : Future ω α → Future ω α
  | ready value => ready value
  | poll next => next world

/-- Changes the value. -/
def map (f : α → β) : Future ω α → Future ω β
  | ready value => ready (f value)
  | poll next => poll fun world => (next world).map f

/-- What is left after a poll of a computation has been continued by `f`: if it ended, the next one
is polled at once. -/
def resume (f : α → Future ω β) : Future ω α → ω → Future ω β
  | ready value, world => (f value).step world
  | poll next, _ => poll fun world => resume f (next world) world

/-- Runs `f` on the value, in the same poll. -/
def andThen (future : Future ω α) (f : α → Future ω β) : Future ω β :=
  match future with
  | ready value => f value
  | poll next => poll fun world => resume f (next world) world

/-- A value that shows after `polls` more polls. -/
def delayed : (polls : Nat) → α → Future ω α
  | 0, value => ready value
  | polls + 1, value => poll fun _ => delayed polls value

/-- A computation that does nothing before its first poll, not even looks at the world. -/
def suspended (future : Future ω α) : Future ω α :=
  poll fun world => future.step world

/-- The value after as many polls as it takes, in a world that stays the same. -/
def run (world : ω) : Future ω α → α
  | ready value => value
  | poll next => (next world).run world

@[simp] theorem run_step (world : ω) (future : Future ω α) :
    (future.step world).run world = future.run world := by
  cases future <;> rfl

@[simp] theorem run_map (world : ω) (f : α → β) (future : Future ω α) :
    (future.map f).run world = f (future.run world) := by
  induction future with
  | ready value => rfl
  | poll next ih => exact ih world

theorem run_resume (world : ω) (f : α → Future ω β) (future : Future ω α) :
    (resume f future world).run world = (f (future.run world)).run world := by
  induction future with
  | ready value => simp [resume, run]
  | poll next ih => exact ih world

@[simp] theorem run_andThen (world : ω) (f : α → Future ω β) (future : Future ω α) :
    (future.andThen f).run world = (f (future.run world)).run world := by
  cases future with
  | ready value => rfl
  | poll next => exact run_resume world f (next world)

@[simp] theorem run_delayed (world : ω) (polls : Nat) (value : α) :
    (delayed polls value).run world = value := by
  induction polls with
  | zero => rfl
  | succ polls ih => exact ih

end Future

end PluginBridge
