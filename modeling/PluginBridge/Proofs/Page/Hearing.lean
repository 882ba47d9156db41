import PluginBridge.Page.Basic
import PluginBridge.Proofs.Session.Keys

/-!
# What a session hears of its page

An event of a page comes down to a course of events for the page's session, and what the page does
is to carry out the effects of that course.  So whatever holds of all courses of a session holds of
all courses of a page:

* `react_eq_enact`: an event that is no registration is enacted by what the session hears of it;
* `session_run`: in a course of events the session goes where it goes by itself;
* `handed_react`: the texts handed to `postMessage` in an event are those that the session posts,
  whatever comes of the calls.
-/

namespace PluginBridge.Page

open Browser

variable {ω : Type}

/-! ## Effects carried out -/

/-- The texts that were handed to `postMessage`. -/
def handed (actions : List Action) : List String :=
  actions.filterMap Action.handed?

@[simp] theorem handed_append (a b : List Action) : handed (a ++ b) = handed a ++ handed b :=
  List.filterMap_append

/-- A call of `postMessage` hands one text over, also if it throws. -/
@[simp] theorem handed_post (outlet : Outlet) (before : Nat) (message : String) :
    handed (outlet.post before message) = [message] := by
  rw [Outlet.post]
  cases outlet.call before message <;> rfl

/-- The calls that effects make begin where those before them end. -/
theorem perform_append (outlet : Outlet) (before : Nat) (a b : List Effect) :
    outlet.perform before (a ++ b) =
      ((outlet.perform (outlet.perform before a).1 b).1,
        (outlet.perform before a).2 ++ (outlet.perform (outlet.perform before a).1 b).2) := by
  induction a generalizing before with
  | nil => rfl
  | cons effect rest ih => cases effect <;> simp [Outlet.perform, ih]

theorem handed_perform (outlet : Outlet) (before : Nat) (effects : List Effect) :
    handed (outlet.perform before effects).2 = sent effects := by
  induction effects generalizing before with
  | nil => rfl
  | cons effect rest ih =>
    cases effect with
    | post message => simp [Outlet.perform, ih]
    | console level text => exact ih before
    | trace event => exact ih before

/-- A call of `postMessage` is told on the console only if it throws. -/
theorem console_of_mem_post {outlet : Outlet} {before : Nat} {message : String}
    {level : ConsoleLevel} {arguments : List Value}
    (h : .console level arguments ∈ outlet.post before message) :
    ∃ value, level = .error ∧ arguments = [.string "postMessage failed", value] := by
  rw [Outlet.post] at h
  cases hposting : outlet.call before message <;> simp_all

/-- On the page's console there are the lines of the session, each of one argument, and the reports
of calls that threw. -/
theorem console_of_mem_perform {outlet : Outlet} {before : Nat} {effects : List Effect}
    {level : ConsoleLevel} {arguments : List Value}
    (h : .console level arguments ∈ (outlet.perform before effects).2) :
    (∃ text, arguments = [.string text]) ∨
      ∃ value, level = .error ∧ arguments = [.string "postMessage failed", value] := by
  induction effects generalizing before with
  | nil => cases h
  | cons effect rest ih =>
    cases effect with
    | post message =>
      rcases List.mem_append.1 h with h | h
      · exact .inr (console_of_mem_post h)
      · exact ih h
    | console level' text =>
      rcases List.mem_cons.1 h with h | h
      · cases h
        exact .inl ⟨text, rfl⟩
      · exact ih h
    | trace event =>
      rcases List.mem_cons.1 h with h | h
      · cases h
      · exact ih h

/-! ## Events enacted -/

/-- The page after its session has gone through a course, and what was done. -/
def enact (page : Page ω) (course : List (Session.Event ω)) : Page ω × List Action :=
  page.perform (page.session.run course).1 (page.session.run course).2.flatten

section

variable (page : Page ω) (course : List (Session.Event ω))

@[simp] theorem session_enact :
    (page.enact course).1.session = (page.session.run course).1 := rfl

@[simp] theorem handed_enact : handed (page.enact course).2 = page.session.posts course :=
  handed_perform _ _ _

variable {page course} in
theorem console_of_mem_enact {level : ConsoleLevel} {arguments : List Value}
    (h : .console level arguments ∈ (page.enact course).2) :
    (∃ text, arguments = [.string text]) ∨
      ∃ value, level = .error ∧ arguments = [.string "postMessage failed", value] :=
  console_of_mem_perform h

end

theorem enact_append (page : Page ω) (before after : List (Session.Event ω)) :
    page.enact (before ++ after) =
      (((page.enact before).1.enact after).1,
        (page.enact before).2 ++ ((page.enact before).1.enact after).2) := by
  simp only [enact, perform, Session.run_append, List.flatten_append, perform_append]

/-- One event of the session is enacted by carrying out its effects. -/
theorem enact_singleton (page : Page ω) (event : Session.Event ω) :
    page.enact [event] =
      page.perform (page.session.react event).1 (page.session.react event).2 := by
  simp [enact]

/-! ## What is heard of an event -/

/-- What the session hears when the handler of a kind is given an event.  Data that is no string is
not heard of. -/
def EventKind.events (event : EventData) : EventKind → List (Session.Event ω)
  | .message => event.data.asString?.toList.map .message
  | .keyPress => [.keyPress event.charCode]
  | .keyDown => [.keyDown event.keyCode]
  | .keyUp => [.keyUp]

/-- What the session hears of an event of the page. -/
def heard (page : Page ω) : Event ω → List (Session.Event ω)
  | .call kind event => kind.events event
  | .dispatch target type event =>
    ((page.targets[target]?.getD []).filter fun kind => kind.type = type).flatMap
      (EventKind.events event)
  | .attach _ => []
  | .poll task => [.poll task]
  | .change f => [.change f]

/-- What the session hears in a course of events of the page. -/
def heardIn (page : Page ω) : List (Event ω) → List (Session.Event ω)
  | [] => []
  | event :: rest => page.heard event ++ (page.react event).1.heardIn rest

theorem onMessage_eq_enact (page : Page ω) (event : EventData) :
    page.onMessage event.data = page.enact (EventKind.message.events event) := by
  rw [onMessage, EventKind.events]
  cases event.data.asString? with
  | none => rfl
  | some text => exact (page.enact_singleton (.message text)).symm

/-- A handler enacts what the session hears. -/
theorem call_eq_enact (page : Page ω) (kind : EventKind) (event : EventData) :
    ((page.call kind event).1, (page.call kind event).2.1) = page.enact (kind.events event) := by
  cases kind with
  | message => exact page.onMessage_eq_enact event
  | keyPress => exact (page.enact_singleton (.keyPress event.charCode)).symm
  | keyDown => exact (page.enact_singleton (.keyDown event.keyCode)).symm
  | keyUp => rfl

/-- A listener does what the handler does, and prevents the default where the handler answers that
the page must not go on. -/
theorem listen_eq_call (page : Page ω) (kind : EventKind) (event : EventData) :
    page.listen kind event =
      ((page.call kind event).1, (page.call kind event).2.1,
        decide ((page.call kind event).2.2 = some false)) := by
  cases kind with
  | message => rfl
  | keyPress => rfl
  | keyDown =>
    rw [listen, call, onKeyDown]
    cases (Bridge.keyDown event.keyCode).2.allowsDefault <;> simp
  | keyUp => rfl

/-- So it enacts what the session hears, too. -/
theorem listen_eq_enact (page : Page ω) (kind : EventKind) (event : EventData) :
    ((page.listen kind event).1, (page.listen kind event).2.1) =
      page.enact (kind.events event) := by
  rw [listen_eq_call]
  exact page.call_eq_enact kind event

theorem notify_eq_enact (page : Page ω) (event : EventData) (kinds : List EventKind) :
    ((page.notify event kinds).1, (page.notify event kinds).2.1) =
      page.enact (kinds.flatMap (EventKind.events event)) := by
  induction kinds generalizing page with
  | nil => rfl
  | cons kind rest ih =>
    rw [List.flatMap_cons, enact_append, ← page.listen_eq_enact kind event, ← ih]
    rfl

/-- An event that registers no listeners is enacted by what the session hears of it. -/
theorem react_eq_enact (page : Page ω) {event : Event ω}
    (h : ∀ refuses, event ≠ .attach refuses) :
    page.react event = page.enact (page.heard event) := by
  cases event with
  | call kind event => exact page.call_eq_enact kind event
  | dispatch target type event => exact page.notify_eq_enact event _
  | attach refuses => exact absurd rfl (h refuses)
  | poll task => exact (page.enact_singleton (.poll task)).symm
  | change f => rfl

/-- The page as it is with other event targets. -/
def withTargets (page : Page ω) (targets : List (List EventKind)) : Page ω :=
  { page with targets }

/-- What can be registered is listened to on a new target, also if not all could be. -/
theorem react_attach_eq_withTargets (page : Page ω) (refuses : EventKind → Option Value) :
    (page.react (.attach refuses)).1 =
      page.withTargets (page.targets ++ [(register refuses listened).1]) := by
  rcases hregister : register refuses listened with ⟨kinds, outcome⟩
  cases outcome <;> simp [react, attach, hregister, withTargets]

/-- Registering listeners does nothing but trace it, and the session hears nothing of it. -/
theorem react_attach (page : Page ω) (refuses : EventKind → Option Value) :
    (page.react (.attach refuses)).1.session = page.session ∧
      ∀ action ∈ (page.react (.attach refuses)).2, action = .trace .listenersAttached := by
  refine ⟨by rw [react_attach_eq_withTargets, withTargets], ?_⟩
  rcases hregister : register refuses listened with ⟨kinds, outcome⟩
  cases outcome <;> simp [react, attach, hregister]

/-! ## One event -/

section

variable (page : Page ω) (event : Event ω)

/-- The session goes where it goes by itself. -/
theorem session_react :
    (page.react event).1.session = (page.session.run (page.heard event)).1 := by
  cases event with
  | attach refuses => exact (page.react_attach refuses).1
  | _ => rw [react_eq_enact page (by simp), session_enact]

/-- What is handed to `postMessage` is what the session posts. -/
theorem handed_react : handed (page.react event).2 = page.session.posts (page.heard event) := by
  cases event with
  | attach refuses =>
    apply List.filterMap_eq_nil_iff.2
    intro action hmem
    rw [(page.react_attach refuses).2 action hmem]
    rfl
  | _ => rw [react_eq_enact page (by simp), handed_enact]

variable {event} in
theorem console_of_mem_react {level : ConsoleLevel} {arguments : List Value}
    (h : .console level arguments ∈ (page.react event).2) :
    (∃ text, arguments = [.string text]) ∨
      ∃ value, level = .error ∧ arguments = [.string "postMessage failed", value] := by
  cases event with
  | attach refuses => cases (page.react_attach refuses).2 _ h
  | _ =>
    rw [react_eq_enact page (by simp)] at h
    exact console_of_mem_enact h

end

/-! ## Courses of events -/

@[simp] theorem run_cons (page : Page ω) (event : Event ω) (rest : List (Event ω)) :
    page.run (event :: rest) =
      (((page.react event).1.run rest).1,
        (page.react event).2 :: ((page.react event).1.run rest).2) := rfl

theorem session_run (page : Page ω) (course : List (Event ω)) :
    (page.run course).1.session = (page.session.run (page.heardIn course)).1 := by
  induction course generalizing page with
  | nil => rfl
  | cons event rest ih =>
    rw [run_cons, ih, session_react, heardIn, Session.run_append]

end PluginBridge.Page
