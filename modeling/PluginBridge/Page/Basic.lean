import PluginBridge.Browser.Environment
import PluginBridge.Settings.Basic
import PluginBridge.Page.Outlet
import PluginBridge.Session

/-!
# The bridge on a page

A page owns a session whose messages come from events and whose effects go to an element and to the
page's console.  It can be driven in two ways: by calling its handlers with an event, or by letting
it listen to an event target.

* `create` makes a page.  It fails only on a bad configuration, which is noticed before anything is
  touched, or a target that takes no messages; a storage that cannot be had is told on the console.
* `attach` registers the listeners one after another and stops at the first that is refused.
-/

namespace PluginBridge

open Browser

/-- What can be listened to. -/
inductive Page.EventKind where
  | message
  | keyPress
  | keyDown
  | keyUp
  deriving DecidableEq, Repr

/-- The name of an event kind, as listeners are registered for it. -/
def Page.EventKind.type : Page.EventKind → String
  | message => "message"
  | keyPress => "keypress"
  | keyDown => "keydown"
  | keyUp => "keyup"

/-- What an event carries.  Key presses have a character code, the other key events a key code. -/
structure Page.EventData where
  data : Value := .undefined
  charCode : UInt32 := 0
  keyCode : UInt32 := 0

/-- A session on a page. -/
structure Page (ω : Type) where
  session : Session ω
  outlet : Page.Outlet
  /-- The calls of `postMessage` so far. -/
  calls : Nat := 0
  /-- The event targets, each with the kinds that it listens to. -/
  targets : List (List Page.EventKind) := []

namespace Page

variable {ω : Type}

/-! ## Making a page -/

/-- The configuration of a page: the default, unless there is a text. -/
def configOf : Option String → Except Value Settings
  | none => .ok {}
  | some text => (Settings.parse text).mapError fun err => .string err.message

/-- What the making of a page comes to. -/
structure Made (ω : Type) where
  page : Except Value (Page ω)
  /-- What was looked up and called outside the page, in order. -/
  touches : List Touch := []
  /-- What was done in the end, when nothing more was touched. -/
  actions : List Action := []

/-- Makes a page for a target. -/
def create {η : Type} [Handle η] (env : Environment η ω) (world : ω) (target : Target)
    (config : Option String) : Made ω :=
  match configOf config with
  | .error value => { page := .error value }
  | .ok config =>
    let ⟨looked, outlet⟩ := target.outlet
    match outlet with
    | .error value => { page := .error value, touches := looked }
    | .ok outlet =>
      let page (storage : Option (Storage ω)) : Page ω :=
        { session := { bridge := { storage, traced := config.traced }, world }, outlet }
      let acquired := (env.acquire config.quota).run world
      let touches := looked ++ acquired.touches
      match acquired.result with
      | .ok root =>
        { page := .ok (page (some (env.storageAt root config.quota))), touches
          actions := [.trace (.storageAcquired config.quota), .trace (.storageReady config.quota)] }
      | .error value =>
        { page := .ok (page none), touches
          actions := [.console .error [.string "RequestFileSystem failed", value]] }

/-- Was a storage acquired? -/
def hasStorage (page : Page ω) : Bool := page.session.bridge.hasStorage

/-! ## Handlers -/

/-- Carries out the effects of a session that has moved on. -/
def perform (page : Page ω) (session : Session ω) (effects : List Effect) :
    Page ω × List Action :=
  let (calls, actions) := page.outlet.perform page.calls effects
  ({ page with session, calls }, actions)

/-- A message event.  Data that is no string is no message; a task that is started is spawned. -/
def onMessage (page : Page ω) (data : Value) : Page ω × List Action :=
  match data.asString? with
  | none => (page, [])
  | some text =>
    let (session, effects) := page.session.react (.message text)
    page.perform session effects

/-- A key press event. -/
def onKeyPress (page : Page ω) (event : EventData) : Page ω × List Action :=
  page.perform page.session (Bridge.keyPress event.charCode)

/-- A key down event; the answer is whether the page goes on with it. -/
def onKeyDown (page : Page ω) (event : EventData) : Page ω × List Action × Bool :=
  let (effects, handling) := Bridge.keyDown event.keyCode
  let (page, actions) := page.perform page.session effects
  (page, actions, handling.allowsDefault)

/-- A key up event; the answer is whether the page goes on with it. -/
def onKeyUp (page : Page ω) (_event : EventData) : Page ω × List Action × Bool :=
  (page, [], Bridge.keyUp.allowsDefault)

/-- Calls the handler of a kind of event.  The answer is what the handler returns: whether the page
goes on with the event, for a key going down or up. -/
def call (page : Page ω) (kind : EventKind) (event : EventData) :
    Page ω × List Action × Option Bool :=
  match kind with
  | .message =>
    let (page, actions) := page.onMessage event.data
    (page, actions, none)
  | .keyPress =>
    let (page, actions) := page.onKeyPress event
    (page, actions, none)
  | .keyDown =>
    let (page, actions, allowed) := page.onKeyDown event
    (page, actions, some allowed)
  | .keyUp =>
    let (page, actions, allowed) := page.onKeyUp event
    (page, actions, some allowed)

/-! ## Listeners -/

/-- The kinds in the order of their registration. -/
def listened : List EventKind := [.message, .keyPress, .keyDown, .keyUp]

/-- Registers the kinds one by one.  The answer is the kinds that are registered, and the value that
was thrown if one was refused. -/
def register (refuses : EventKind → Option Value) :
    List EventKind → List EventKind × Except Value Unit
  | [] => ([], .ok ())
  | kind :: rest =>
    match refuses kind with
    | some value => ([], .error value)
    | none =>
      let (kinds, outcome) := register refuses rest
      (kind :: kinds, outcome)

/-- Listens to a new event target, which gets the next number.  The listeners that were registered
before a refusal stay. -/
def attach (page : Page ω) (refuses : EventKind → Option Value) :
    Page ω × List Action × Except Value Nat :=
  let (kinds, outcome) := register refuses listened
  let after := { page with targets := page.targets ++ [kinds] }
  match outcome with
  | .ok () => (after, [.trace .listenersAttached], .ok page.targets.length)
  | .error value => (after, [], .error value)

/-- What a listener does with an event; the answer is whether it prevents the default. -/
def listen (page : Page ω) (kind : EventKind) (event : EventData) :
    Page ω × List Action × Bool :=
  match kind with
  | .message =>
    let (page, actions) := page.onMessage event.data
    (page, actions, false)
  | .keyPress =>
    let (page, actions) := page.perform page.session (Bridge.keyPress event.charCode)
    (page, actions, false)
  | .keyDown =>
    let (effects, handling) := Bridge.keyDown event.keyCode
    let (page, actions) := page.perform page.session effects
    (page, actions, !handling.allowsDefault)
  | .keyUp => (page, [], !Bridge.keyUp.allowsDefault)

/-- What has become of an event. -/
structure Dispatched where
  /-- The listeners that were called. -/
  called : Nat := 0
  prevented : Bool := false
  deriving DecidableEq, Repr

/-- Gives an event to each of some listeners, in order. -/
def notify (page : Page ω) (event : EventData) :
    List EventKind → Page ω × List Action × Dispatched
  | [] => (page, [], {})
  | kind :: rest =>
    let (page, actions, prevented) := page.listen kind event
    let (page, more, dispatched) := page.notify event rest
    (page, actions ++ more, ⟨dispatched.called + 1, prevented || dispatched.prevented⟩)

/-- Gives an event to every listener of its type on a target. -/
def dispatch (page : Page ω) (target : Nat) (type : String) (event : EventData) :
    Page ω × List Action × Dispatched :=
  page.notify event ((page.targets[target]?.getD []).filter fun kind => kind.type = type)

/-! ## Spawned tasks -/

/-- The numbers of all tasks. -/
def spawned (page : Page ω) : List Nat := List.range page.session.tasks.length

/-- The tasks that have not ended. -/
def unfinished (page : Page ω) : Nat := page.session.tasks.countP fun task => !task.hasEnded

/-- Polls every task once; the answer is the number left. -/
def tick (page : Page ω) : Page ω × List Action × Nat :=
  let (session, effects, _) := page.session.pollEach page.spawned
  let (page, actions) := page.perform session effects
  (page, actions, page.unfinished)

/-- Polls every task until none is left; the answer is the number of rounds. -/
def settle (page : Page ω) : Page ω × List Action × Nat :=
  let (session, effects, rounds) := page.session.join page.spawned
  let (page, actions) := page.perform session effects
  (page, actions, rounds)

/-! ## Events -/

/-- What can happen to a page. -/
inductive Event (ω : Type) where
  /-- A handler is called. -/
  | call (kind : EventKind) (event : EventData)
  /-- An event reaches a target. -/
  | dispatch (target : Nat) (type : String) (event : EventData)
  | attach (refuses : EventKind → Option Value)
  /-- A spawned task is polled. -/
  | poll (task : Nat)
  /-- Something outside the bridge changes the world. -/
  | change (f : ω → ω)

/-- One event: the page afterwards, and what was done. -/
def react (page : Page ω) : Event ω → Page ω × List Action
  | .call kind event =>
    let (page, actions, _) := page.call kind event
    (page, actions)
  | .dispatch target type event =>
    let (page, actions, _) := page.dispatch target type event
    (page, actions)
  | .attach refuses =>
    let (page, actions, _) := page.attach refuses
    (page, actions)
  | .poll task =>
    let (session, effects) := page.session.react (.poll task)
    page.perform session effects
  | .change f => ({ page with session := (page.session.react (.change f)).1 }, [])

/-- A course of events: the last page, and what was done in each event. -/
def run (page : Page ω) : List (Event ω) → Page ω × List (List Action)
  | [] => (page, [])
  | event :: rest =>
    let (page, actions) := page.react event
    let (page, log) := page.run rest
    (page, actions :: log)

end Page

end PluginBridge
