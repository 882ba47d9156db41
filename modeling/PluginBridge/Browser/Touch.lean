import PluginBridge.Browser.Value
import PluginBridge.Future

/-!
# What a page touches

While a page is made, it looks things up outside of it and calls functions that it finds there.
Each of these is a `Touch`.  A function that touches something hands out the touches with its
result, so that none of them is lost when the result is thrown away.

`onSuccess` is the one way to go on: the touches of a failure are all that there are.
-/

namespace PluginBridge.Browser

/-- Something outside the page that is looked up or called while the page is made. -/
inductive Touch where
  /-- The property `postMessage` of the target is looked up. -/
  | postMessage
  /-- The window is looked for. -/
  | window
  /-- The storage of the window is looked up. -/
  | storage
  /-- The property `estimate` of the storage is looked up. -/
  | estimate
  /-- The function `estimate` is called. -/
  | callEstimate
  /-- The property `quota` of an estimate is looked up. -/
  | quota
  /-- The function `getDirectory` of the storage is called. -/
  | callGetDirectory
  deriving DecidableEq, Repr

/-- A result, and what was touched on the way to it, in order. -/
structure Touched (α : Type) where
  touches : List Touch
  result : α

namespace Touched

variable {ω α β : Type}

/-- Changes the result. -/
def map (f : α → β) (touched : Touched α) : Touched β :=
  { touched with result := f touched.result }

/-- Goes on with a success; a failure is the end, and nothing more is touched. -/
def onSuccess (first : Touched (Except Value α))
    (next : α → Future ω (Touched (Except Value β))) : Future ω (Touched (Except Value β)) :=
  match first.result with
  | .error value => .ready { first with result := .error value }
  | .ok result =>
    (next result).map fun second => { second with touches := first.touches ++ second.touches }

/-- The results go on as if nothing were touched. -/
theorem result_run_onSuccess (world : ω) (first : Touched (Except Value α))
    (next : α → Future ω (Touched (Except Value β))) :
    ((first.onSuccess next).run world).result =
      first.result.bind fun result => ((next result).run world).result := by
  rw [onSuccess]
  cases first.result with
  | error value => rfl
  | ok result => simp [Except.bind]

/-- The touches of the first come first, and after a failure they are all. -/
theorem touches_run_onSuccess (world : ω) (first : Touched (Except Value α))
    (next : α → Future ω (Touched (Except Value β))) :
    ((first.onSuccess next).run world).touches =
      first.touches ++ match first.result with
        | .error _ => []
        | .ok result => ((next result).run world).touches := by
  rw [onSuccess]
  cases first.result with
  | error value => exact (List.append_nil _).symm
  | ok result => simp

end Touched

end PluginBridge.Browser
