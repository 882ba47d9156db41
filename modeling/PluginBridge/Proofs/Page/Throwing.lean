import PluginBridge.Proofs.Page.Hearing

/-!
# Posts that throw

A call of `postMessage` that throws is told on the page's console, and that is all that comes of it.
The page goes on as if the call had returned: it ends in the same state, hands over the same texts
in the same events, and its actions are those of a page on which no call throws, with one report
right after each call that does (`Outlet.replay`).

The argument is made for the effects that a page carries out (`perform_eq_replay`); events and
courses come down to them by what the session hears.  `throwing_is_only_told` puts it together.
-/

namespace PluginBridge.Page

open Browser

variable {ω : Type}

namespace Outlet

/-- No call throws. -/
def IsCalm (outlet : Outlet) : Prop :=
  ∀ before message value, outlet.call before message ≠ .threw value

/-- Actions as they are when their calls of `postMessage` are made on another outlet, the first of
them after `before` others.  A call that throws is followed by its report. -/
def replay (outlet : Outlet) : (before : Nat) → List Action → List Action
  | _, [] => []
  | before, .post message _ :: rest =>
    match outlet.call before message with
    | .threw value =>
      .post message (.threw value) :: .console .error [.string "postMessage failed", value] ::
        outlet.replay (before + 1) rest
    | posting => .post message posting :: outlet.replay (before + 1) rest
  | before, action :: rest => action :: outlet.replay before rest

/-- The same for the actions of several events. -/
def replayEach (outlet : Outlet) : (before : Nat) → List (List Action) → List (List Action)
  | _, [] => []
  | before, actions :: rest =>
    outlet.replay before actions :: outlet.replayEach (before + (handed actions).length) rest

variable {outlet calm : Outlet}

/-- On a calm outlet nothing is told of a call. -/
theorem IsCalm.post_eq (h : calm.IsCalm) (before : Nat) (message : String) :
    ∃ posting, calm.post before message = [.post message posting] := by
  rw [post]
  cases hcall : calm.call before message with
  | threw value => exact absurd hcall (h before message value)
  | _ => exact ⟨_, rfl⟩

/-- A call is made as the outlet has it, whatever came of it elsewhere. -/
theorem replay_post (before : Nat) (message : String) (posting : Posting) (rest : List Action) :
    outlet.replay before (.post message posting :: rest) =
      outlet.post before message ++ outlet.replay (before + 1) rest := by
  rw [replay, post]
  cases outlet.call before message <;> rfl

/-- What is no call stays as it is. -/
theorem replay_eq_self {actions : List Action} (h : handed actions = []) (before : Nat) :
    outlet.replay before actions = actions := by
  induction actions with
  | nil => rfl
  | cons action rest ih =>
    cases action with
    | post message posting => cases h
    | _ => exact congrArg _ (ih h)

/-- A call hands its text over on any outlet. -/
theorem handed_replay (outlet : Outlet) (before : Nat) (actions : List Action) :
    handed (outlet.replay before actions) = handed actions := by
  induction actions generalizing before with
  | nil => rfl
  | cons action rest ih =>
    cases action with
    | post message posting =>
      rw [replay_post, handed_append, handed_post, ih]
      rfl
    | _ => exact ih before

theorem map_handed_replayEach (outlet : Outlet) (before : Nat) (log : List (List Action)) :
    (outlet.replayEach before log).map handed = log.map handed := by
  induction log generalizing before with
  | nil => rfl
  | cons actions rest ih => rw [replayEach, List.map_cons, List.map_cons, handed_replay, ih]

/-- **Carrying effects out.**  On any outlet as many calls are made as on a calm one, and what is
done is what is done there, with the calls replayed. -/
theorem perform_eq_replay (hcalm : calm.IsCalm) (outlet : Outlet) (before : Nat)
    (effects : List Effect) :
    outlet.perform before effects =
      ((calm.perform before effects).1, outlet.replay before (calm.perform before effects).2) := by
  induction effects generalizing before with
  | nil => rfl
  | cons effect rest ih =>
    cases effect with
    | post message =>
      obtain ⟨posting, hposting⟩ := hcalm.post_eq before message.encode
      simp only [perform, ih, hposting, List.singleton_append, replay_post]
    | console level text => simp only [perform, ih, replay]
    | trace event => simp only [perform, ih, replay]

/-- Every text that is handed over is counted. -/
theorem calls_perform (outlet : Outlet) (before : Nat) (effects : List Effect) :
    (outlet.perform before effects).1 =
      before + (handed (outlet.perform before effects).2).length := by
  induction effects generalizing before with
  | nil => rfl
  | cons effect rest ih =>
    cases effect with
    | post message =>
      simp only [perform, handed_append, handed_post, List.length_append, List.length_singleton, ih]
      omega
    | _ => exact ih before

end Outlet

/-! ## Pages on another outlet -/

/-- The page as it is with another outlet. -/
def onOutlet (page : Page ω) (outlet : Outlet) : Page ω :=
  { page with outlet }

section

variable {page : Page ω} (outlet : Outlet) (event : Event ω)

theorem perform_onOutlet (hcalm : page.outlet.IsCalm) (session : Session ω)
    (effects : List Effect) :
    (page.onOutlet outlet).perform session effects =
      ((page.perform session effects).1.onOutlet outlet,
        outlet.replay page.calls (page.perform session effects).2) := by
  simp only [perform, onOutlet, Outlet.perform_eq_replay hcalm outlet]

/-- **A course of the session.**  On any outlet the page goes where it goes on a calm one, and does
what it does there, with the calls replayed. -/
theorem enact_onOutlet (hcalm : page.outlet.IsCalm) (course : List (Session.Event ω)) :
    (page.onOutlet outlet).enact course =
      ((page.enact course).1.onOutlet outlet,
        outlet.replay page.calls (page.enact course).2) :=
  perform_onOutlet outlet hcalm _ _

theorem calls_enact (course : List (Session.Event ω)) :
    (page.enact course).1.calls = page.calls + (handed (page.enact course).2).length :=
  page.outlet.calls_perform page.calls (page.session.run course).2.flatten

theorem heard_onOutlet : (page.onOutlet outlet).heard event = page.heard event := by
  cases event <;> rfl

variable {event} in
/-- Registering listeners makes no call. -/
theorem handed_attach (refuses : EventKind → Option Value) :
    handed (page.react (.attach refuses)).2 = [] := by
  rw [handed_react]
  rfl

theorem outlet_react : (page.react event).1.outlet = page.outlet := by
  cases event with
  | attach refuses =>
    rw [react_attach_eq_withTargets]
    rfl
  | _ =>
    rw [react_eq_enact page (by simp)]
    rfl

theorem calls_react :
    (page.react event).1.calls = page.calls + (handed (page.react event).2).length := by
  cases event with
  | attach refuses =>
    rw [handed_attach, react_attach_eq_withTargets]
    rfl
  | _ =>
    rw [react_eq_enact page (by simp)]
    exact calls_enact _

/-- **One event.** -/
theorem react_onOutlet (hcalm : page.outlet.IsCalm) :
    (page.onOutlet outlet).react event =
      ((page.react event).1.onOutlet outlet, outlet.replay page.calls (page.react event).2) := by
  cases event with
  | attach refuses =>
    rw [Outlet.replay_eq_self (handed_attach refuses)]
    rcases hregister : register refuses listened with ⟨kinds, outcome⟩
    cases outcome <;> simp [react, attach, hregister, onOutlet]
  | _ =>
    rw [react_eq_enact page (by simp), react_eq_enact (page.onOutlet outlet) (by simp),
      heard_onOutlet, enact_onOutlet outlet hcalm]

/-- **A course of events.** -/
theorem run_onOutlet (hcalm : page.outlet.IsCalm) (course : List (Event ω)) :
    (page.onOutlet outlet).run course =
      ((page.run course).1.onOutlet outlet, outlet.replayEach page.calls (page.run course).2) := by
  induction course generalizing page with
  | nil => rfl
  | cons event rest ih =>
    have hcalm' : (page.react event).1.outlet.IsCalm := by rwa [outlet_react]
    rw [run_cons, run_cons, react_onOutlet outlet event hcalm, ih hcalm', calls_react]
    rfl

end

/-! ## Listings -/

/-- The poll in which a listing succeeds hands over every child and the success, whatever comes of
the calls. -/
theorem handed_poll_of_listing (page : Page ω) {storage : Storage ω} {traced : Bool}
    {path : String} {number : Nat} {worlds : List ω} {children : List Child}
    (htask : page.session.task? number =
      some (((FileRequest.list path).task traced storage).steps worlds))
    (hanswer : (storage.list path).answer? (worlds ++ [page.session.world]) =
      some (.ok children)) :
    handed (page.react (.poll number)).2 =
      children.map (fun child => "X5D" ++ String.singleton child.kind.marker ++ child.name) ++
        ["X5D_0"] := by
  -- This poll ends the task, which has not ended before, with the reply that is due.
  have hdue := FileRequest.sent_of_task traced storage (.list path) (worlds ++ [page.session.world])
  rw [FileRequest.dueTexts?, hanswer] at hdue
  obtain ⟨effects, hending, hsent⟩ := Option.map_eq_some_iff.1 hdue
  have hready := Task.step_steps_of_ending? (Session.task?_eq_some_iff.1 htask).2 hending
  rw [handed_react]
  show sent ((page.session.react (.poll number)).2 ++ []) = _
  rw [List.append_nil, Session.react, Session.poll_of_ready htask hready]
  exact hsent

/-! ## Main result -/

/-- **A post that throws is only told.**  Compare a page on which no call of `postMessage` throws
with the same page on any outlet.

* Whatever its session goes through, and in every course of its own events, it ends with the same
  buffers, tasks and listeners, and after as many calls.
* Event by event it does the same with its calls replayed: each is made with the same text, and one
  report follows right after each that throws.
* In particular a listing that succeeds hands over all its children and its end. -/
theorem throwing_is_only_told (page : Page ω) (hcalm : page.outlet.IsCalm) (outlet : Outlet) :
    (∀ course : List (Session.Event ω),
      (page.onOutlet outlet).enact course =
        ((page.enact course).1.onOutlet outlet,
          outlet.replay page.calls (page.enact course).2)) ∧
    (∀ course : List (Event ω),
      ((page.onOutlet outlet).run course).1 = (page.run course).1.onOutlet outlet ∧
      ((page.onOutlet outlet).run course).2.map handed = (page.run course).2.map handed ∧
      ((page.onOutlet outlet).run course).2 =
        outlet.replayEach page.calls (page.run course).2) ∧
    ∀ (course : List (Event ω)) storage traced path number worlds children,
      let reached := ((page.onOutlet outlet).run course).1
      reached.session.task? number =
        some (((FileRequest.list path).task traced storage).steps worlds) →
      (storage.list path).answer? (worlds ++ [reached.session.world]) = some (.ok children) →
      handed (reached.react (.poll number)).2 =
        children.map (fun child => "X5D" ++ String.singleton child.kind.marker ++ child.name) ++
          ["X5D_0"] := by
  refine ⟨enact_onOutlet outlet hcalm, ?_, ?_⟩
  · intro course
    rw [run_onOutlet outlet hcalm course]
    exact ⟨rfl, outlet.map_handed_replayEach _ _, rfl⟩
  · intro course storage traced path number worlds children reached htask hanswer
    exact reached.handed_poll_of_listing htask hanswer

/-- A listing of two children, both of which are lost on the way. -/
theorem throwing_is_only_told_of_children :
    let storage : Storage Unit :=
      .scripted [] [("/d", { answer := .ok [⟨"a", .file⟩, ⟨"b", .directory⟩] })]
    let page : Page Unit :=
      { session := .fresh { storage } (), outlet := { call := fun _ _ => .delivered } }
    let broken : Outlet :=
      { call := fun before message => if before < 2 then .threw (.string message) else .delivered }
    let course : List (Event Unit) := [.call .message { data := .string "X5D/d" }, .poll 0]
    page.outlet.IsCalm ∧
      ((page.onOutlet broken).run course).2.map handed = (page.run course).2.map handed ∧
      (page.run course).2.map handed = [[], ["X5DFa", "X5DDb", "X5D_0"]] := by
  intro storage page broken course
  have hcalm : page.outlet.IsCalm := fun _ _ _ h => by cases h
  exact ⟨hcalm, ((throwing_is_only_told page hcalm broken).2.1 course).2.1, by decide⟩

end PluginBridge.Page
