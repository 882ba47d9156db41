import PluginBridge.Browser.Touch
import PluginBridge.Bridge.Reply

/-!
# Posting to an element

Messages go to the plugin through the function `postMessage` of an element of the page.  A call may
throw; that is told on the console, and nothing else comes of it.
-/

namespace PluginBridge.Page

open Browser

/-- What became of a call of `postMessage`. -/
inductive Posting where
  /-- The plugin has the message. -/
  | delivered
  /-- The function did nothing with it. -/
  | ignored
  | threw (value : Value)
  deriving Repr

/-- The function that takes messages.  What it does may depend on the number of calls before. -/
structure Outlet where
  call : (before : Nat) → String → Posting

/-- What is given to the page as the receiver of messages. -/
inductive Target where
  /-- An element that receives messages; `throws` tells which calls throw. -/
  | receiver (throws : (before : Nat) → String → Option Value)
  /-- Any value of the page. -/
  | value (value : Value)

/-- The property `postMessage` of a target as an outlet.  It needs to be a function. -/
def Target.outletOf : Target → Except Value Outlet
  | receiver throws => .ok
    { call := fun before message =>
        match throws before message with
        | some thrown => .threw thrown
        | none => .delivered }
  | value given =>
    match given.property? "postMessage" with
    | .error thrown => .error thrown
    | .ok .function => .ok { call := fun _ _ => .ignored }
    | .ok _ => .error (.string "target has no postMessage function")

/-- The outlet of a target, and that the target was touched for it. -/
def Target.outlet (target : Target) : Touched (Except Value Outlet) :=
  ⟨[.postMessage], target.outletOf⟩

/-- Something that the page does for the bridge. -/
inductive Action where
  /-- A text was handed to `postMessage`. -/
  | post (message : String) (posting : Posting)
  /-- The page's console was called. -/
  | console (level : ConsoleLevel) (arguments : List Value)
  | trace (event : TraceEvent)
  deriving Repr

namespace Action

/-- The text that was handed to `postMessage`, whatever came of it. -/
def handed? : Action → Option String
  | post message _ => some message
  | _ => none

/-- The text that the plugin received. -/
def received? : Action → Option String
  | post message .delivered => some message
  | _ => none

/-- The call of the console. -/
def line? : Action → Option (ConsoleLevel × List Value)
  | console level arguments => some (level, arguments)
  | _ => none

/-- The event that is traced. -/
def event? : Action → Option TraceEvent
  | trace event => some event
  | _ => none

end Action

/-- One call of `postMessage`, and what is told about it. -/
def Outlet.post (outlet : Outlet) (before : Nat) (message : String) : List Action :=
  let posting := outlet.call before message
  .post message posting ::
    match posting with
    | .threw value => [.console .error [.string "postMessage failed", value]]
    | _ => []

/-- Carries out effects in order; the answer includes the number of calls so far. -/
def Outlet.perform (outlet : Outlet) (before : Nat) : List Effect → Nat × List Action
  | [] => (before, [])
  | .post message :: rest =>
    let (calls, actions) := outlet.perform (before + 1) rest
    (calls, outlet.post before message.encode ++ actions)
  | .console level text :: rest =>
    let (calls, actions) := outlet.perform before rest
    (calls, .console level [.string text] :: actions)
  | .trace event :: rest =>
    let (calls, actions) := outlet.perform before rest
    (calls, .trace event :: actions)

end PluginBridge.Page
