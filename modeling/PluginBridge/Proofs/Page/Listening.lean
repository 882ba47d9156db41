import Mathlib.Data.List.Nodup
import PluginBridge.Proofs.Page.Hearing

/-!
# Listening to a target

A page can be driven by calling its handlers, or by letting it listen to a target on which the
events occur.  The two are wired apart, and still a target stands in for the handlers of the kinds
that are registered on it (`StandsIn`): each event of such a kind does what its handler does, and
the default is prevented exactly where the handler answers that the page must not go on.  An event of
another kind does nothing.

One event is compared in `dispatch_of_mem` and `dispatch_of_not_mem`, a course of events in
`run_onTarget`.  Which kinds are registered, `Registered` says: all of them, or those before the
first that is refused.  `listening_is_calling` puts this together.
-/

namespace PluginBridge.Page

open Browser

variable {ω : Type}

/-! ## Pages with other targets -/

theorem enact_withTargets (page : Page ω) (targets : List (List EventKind))
    (course : List (Session.Event ω)) :
    (page.withTargets targets).enact course =
      ((page.enact course).1.withTargets targets, (page.enact course).2) := rfl

/-- What a handler does and answers does not depend on who listens. -/
theorem call_withTargets (page : Page ω) (targets : List (List EventKind)) (kind : EventKind)
    (event : EventData) :
    (page.withTargets targets).call kind event =
      ((page.call kind event).1.withTargets targets, (page.call kind event).2) := by
  cases kind with
  | message =>
    rw [call, call, onMessage_eq_enact, onMessage_eq_enact, enact_withTargets]
  | _ => rfl

/-! ## One event -/

theorem EventKind.type_injective {a b : EventKind} (h : a.type = b.type) : a = b := by
  cases a <;> cases b <;> simp_all [type]

/-- Among listeners of different kinds, at most one hears of an event. -/
theorem filter_type_eq {kinds : List EventKind} (hnodup : kinds.Nodup) (kind : EventKind) :
    (kinds.filter fun other => other.type = kind.type) = if kind ∈ kinds then [kind] else [] := by
  have hsame : (kinds.filter fun other => other.type = kind.type) = kinds.filter (· = kind) :=
    List.filter_congr fun other _ => by
      simp only [decide_eq_decide]
      exact ⟨EventKind.type_injective, congrArg EventKind.type⟩
  rw [hsame, List.filter_eq]
  by_cases hmem : kind ∈ kinds
  · rw [if_pos hmem, List.count_eq_one_of_mem hnodup hmem, List.replicate_one]
  · rw [if_neg hmem, List.count_eq_zero_of_not_mem hmem, List.replicate_zero]

section

variable {page : Page ω} {number : Nat} {kinds : List EventKind} {kind : EventKind}

/-- An event of a kind that a target listens to does what its handler does. -/
theorem dispatch_of_mem (hlistens : page.targets[number]? = some kinds) (hnodup : kinds.Nodup)
    (hmem : kind ∈ kinds) (event : EventData) :
    page.dispatch number kind.type event =
      ((page.call kind event).1, (page.call kind event).2.1,
        ⟨1, decide ((page.call kind event).2.2 = some false)⟩) := by
  rw [dispatch, hlistens, Option.getD_some, filter_type_eq hnodup, if_pos hmem]
  simp [notify, listen_eq_call]

/-- An event of any other kind does nothing. -/
theorem dispatch_of_not_mem (hlistens : page.targets[number]? = some kinds)
    (hnodup : kinds.Nodup) (hmem : kind ∉ kinds) (event : EventData) :
    page.dispatch number kind.type event = (page, [], {}) := by
  rw [dispatch, hlistens, Option.getD_some, filter_type_eq hnodup, if_neg hmem]
  rfl

end

/-- Message events and key presses are never kept from the page. -/
theorem eq_keyDown_or_keyUp_of_call {page : Page ω} {kind : EventKind} {event : EventData}
    {allowed : Bool} (h : (page.call kind event).2.2 = some allowed) :
    kind = .keyDown ∨ kind = .keyUp := by
  cases kind with
  | message => cases h
  | keyPress => cases h
  | keyDown => exact .inl rfl
  | keyUp => exact .inr rfl

/-- Data that is no string is no message. -/
theorem call_message_of_no_text (page : Page ω) {event : EventData}
    (h : event.data.asString? = none) : page.call .message event = (page, [], none) := by
  simp only [call, onMessage, h]

/-! ## Courses of events -/

/-- What happens to a page in use, apart from how the events come to it. -/
inductive Happening (ω : Type) where
  | occurs (kind : EventKind) (event : EventData)
  /-- A spawned task is polled. -/
  | polled (task : Nat)
  /-- Something outside the bridge changes the world. -/
  | changed (f : ω → ω)

namespace Happening

/-- The event is given to the handler of its kind. -/
def called : Happening ω → Event ω
  | occurs kind event => .call kind event
  | polled task => .poll task
  | changed f => .change f

/-- The event occurs on a target. -/
def onTarget (number : Nat) : Happening ω → Event ω
  | occurs kind event => .dispatch number kind.type event
  | polled task => .poll task
  | changed f => .change f

/-- What is left of it for those who care for some kinds of events only: any other event is nothing
to them, and the world stays as it is. -/
def among (kinds : List EventKind) : Happening ω → Happening ω
  | occurs kind event => if kind ∈ kinds then occurs kind event else changed id
  | happening => happening

@[simp] theorem among_listened (happening : Happening ω) :
    happening.among listened = happening := by
  cases happening with
  | occurs kind event => cases kind <;> rfl
  | _ => rfl

end Happening

section

variable {page : Page ω} {targets : List (List EventKind)} {number : Nat} {kinds : List EventKind}

/-- **One event.**  On a target that listens to some kinds, it does what the handlers of these kinds
do. -/
theorem react_onTarget (hlistens : targets[number]? = some kinds) (hnodup : kinds.Nodup)
    (happening : Happening ω) :
    (page.withTargets targets).react (happening.onTarget number) =
      ((page.react (happening.among kinds).called).1.withTargets targets,
        (page.react (happening.among kinds).called).2) := by
  cases happening with
  | occurs kind event =>
    rw [Happening.onTarget, react, Happening.among]
    by_cases hmem : kind ∈ kinds
    · rw [dispatch_of_mem hlistens hnodup hmem, call_withTargets, if_pos hmem]
      rfl
    · rw [dispatch_of_not_mem hlistens hnodup hmem, if_neg hmem]
      rfl
  | polled task => rfl
  | changed f => rfl

/-- **A course of events.** -/
theorem run_onTarget (hlistens : targets[number]? = some kinds) (hnodup : kinds.Nodup)
    (course : List (Happening ω)) :
    (page.withTargets targets).run (course.map (Happening.onTarget number)) =
      ((page.run (course.map fun happening => (happening.among kinds).called)).1.withTargets
          targets,
        (page.run (course.map fun happening => (happening.among kinds).called)).2) := by
  induction course generalizing page with
  | nil => rfl
  | cons happening rest ih =>
    rw [List.map_cons, List.map_cons, run_cons, run_cons, react_onTarget hlistens hnodup, ih]

end

/-! ## Registration -/

/-- How the registration of some kinds ends: all of them are registered, or those before the first
that is refused. -/
inductive Registered (refuses : EventKind → Option Value) (kinds : List EventKind) :
    List EventKind × Except Value Unit → Prop where
  | all (hgranted : ∀ kind ∈ kinds, refuses kind = none) : Registered refuses kinds (kinds, .ok ())
  | before {granted later : List EventKind} {refused : EventKind} {value : Value}
      (hkinds : kinds = granted ++ refused :: later)
      (hgranted : ∀ kind ∈ granted, refuses kind = none) (hrefused : refuses refused = some value) :
      Registered refuses kinds (granted, .error value)

theorem registered (refuses : EventKind → Option Value) (kinds : List EventKind) :
    Registered refuses kinds (register refuses kinds) := by
  induction kinds with
  | nil => exact .all (by simp)
  | cons kind rest ih =>
    rw [register]
    cases hkind : refuses kind with
    | some value => exact .before (List.nil_append _).symm (by simp) hkind
    | none =>
      generalize register refuses rest = result at ih
      cases ih with
      | all hgranted => exact .all (List.forall_mem_cons.2 ⟨hkind, hgranted⟩)
      | @before granted later refused value hkinds hgranted hrefused =>
        exact .before (congrArg (kind :: ·) hkinds) (List.forall_mem_cons.2 ⟨hkind, hgranted⟩)
          hrefused

theorem attach_outcome (page : Page ω) (refuses : EventKind → Option Value) :
    (page.attach refuses).2.2 =
      (register refuses listened).2.map fun _ => page.targets.length := by
  rcases hregister : register refuses listened with ⟨kinds, outcome⟩
  cases outcome <;> simp [attach, hregister, Except.map]

/-! ## Main result -/

/-- A target that listens to some kinds, on a page `heard`, stands in for the handlers of the page
`called`. -/
structure StandsIn (number : Nat) (kinds : List EventKind) (heard called : Page ω) : Prop where
  /-- Only in their targets do the two pages differ. -/
  same : heard = called.withTargets heard.targets
  /-- An event of these kinds does what its handler does, and its default is prevented exactly if the
  handler answers that the page must not go on. -/
  registered : ∀ kind ∈ kinds, ∀ event,
    heard.dispatch number kind.type event =
      ((called.call kind event).1.withTargets heard.targets, (called.call kind event).2.1,
        ⟨1, decide ((called.call kind event).2.2 = some false)⟩)
  /-- An event of another kind does nothing. -/
  others : ∀ kind ∉ kinds, ∀ event, heard.dispatch number kind.type event = (heard, [], {})
  /-- Messages and key presses are never kept from the page. -/
  prevented : ∀ (kind : EventKind) event, (heard.dispatch number kind.type event).2.2.prevented →
    kind = .keyDown ∨ kind = .keyUp
  /-- A message event without a string does nothing, on either way. -/
  noText : ∀ event, event.data.asString? = none →
    (heard.dispatch number EventKind.message.type event).1 = heard ∧
    (heard.dispatch number EventKind.message.type event).2.1 = [] ∧
    called.call .message event = (called, [], none)

/-- Two pages that differ only in a target which listens to some kinds. -/
theorem standsIn_withTargets {targets : List (List EventKind)} {number : Nat}
    {kinds : List EventKind} (hlistens : targets[number]? = some kinds) (hnodup : kinds.Nodup)
    (page : Page ω) : StandsIn number kinds (page.withTargets targets) page := by
  have hmem : ∀ kind ∈ kinds, ∀ event,
      (page.withTargets targets).dispatch number kind.type event =
        ((page.call kind event).1.withTargets targets, (page.call kind event).2.1,
          ⟨1, decide ((page.call kind event).2.2 = some false)⟩) := by
    intro kind hkind event
    rw [dispatch_of_mem hlistens hnodup hkind, call_withTargets]
  have hothers : ∀ kind ∉ kinds, ∀ event,
      (page.withTargets targets).dispatch number kind.type event =
        (page.withTargets targets, [], {}) := by
    intro kind hkind event
    exact dispatch_of_not_mem hlistens hnodup hkind event
  refine ⟨rfl, hmem, hothers, ?_, ?_⟩
  · intro kind event hprevented
    by_cases hkind : kind ∈ kinds
    · rw [hmem kind hkind] at hprevented
      exact eq_keyDown_or_keyUp_of_call (of_decide_eq_true hprevented)
    · rw [hothers kind hkind] at hprevented
      cases hprevented
  · intro event htext
    have hcall := page.call_message_of_no_text htext
    by_cases hkind : EventKind.message ∈ kinds
    · rw [hmem .message hkind, hcall]
      exact ⟨rfl, rfl, rfl⟩
    · rw [hothers .message hkind]
      exact ⟨rfl, rfl, hcall⟩

/-- A new target stands in for the handlers of the kinds that are registered on it, at every moment
of every course of events. -/
theorem run_attached (page : Page ω) {kinds : List EventKind} (hnodup : kinds.Nodup)
    (course : List (Happening ω)) :
    let heard := (page.withTargets (page.targets ++ [kinds])).run
      (course.map (Happening.onTarget page.targets.length))
    let called := page.run (course.map fun happening => (happening.among kinds).called)
    heard.2 = called.2 ∧ StandsIn page.targets.length kinds heard.1 called.1 := by
  intro heard called
  have hlistens : (page.targets ++ [kinds])[page.targets.length]? = some kinds := by simp
  have hrun : heard = (called.1.withTargets (page.targets ++ [kinds]), called.2) :=
    run_onTarget hlistens hnodup course
  rw [hrun]
  exact ⟨rfl, standsIn_withTargets hlistens hnodup called.1⟩

/-- **Listening is calling the handlers.**  Compare a page that listens to a new target, on which
events occur, with the same page that listens to nothing new and whose handlers are called with these
events, while the spawned tasks are polled and the world changes alike.

* If all kinds are registered, both do the same in each event and end with the same session.  At every
  moment the target stands in for the handlers of all kinds.
* If a kind is refused, the target stands in for the handlers of the kinds before it, and any other
  event does nothing. -/
theorem listening_is_calling (page : Page ω) (refuses : EventKind → Option Value) :
    let attached := page.attach refuses
    (∀ number, attached.2.2 = .ok number → ∀ course : List (Happening ω),
      let heard := attached.1.run (course.map (Happening.onTarget number))
      let called := page.run (course.map Happening.called)
      heard.2 = called.2 ∧ StandsIn number listened heard.1 called.1) ∧
    (∀ value, attached.2.2 = .error value →
      ∃ granted refused later, listened = granted ++ refused :: later ∧
        (∀ kind ∈ granted, refuses kind = none) ∧ refuses refused = some value ∧
        ∀ course : List (Happening ω),
          let heard := attached.1.run (course.map (Happening.onTarget page.targets.length))
          let called := page.run (course.map fun happening => (happening.among granted).called)
          heard.2 = called.2 ∧ StandsIn page.targets.length granted heard.1 called.1) := by
  intro attached
  have hlistened : listened.Nodup := by decide
  have hattached : attached.1 = _ := page.react_attach_eq_withTargets refuses
  have houtcome : attached.2.2 = _ := page.attach_outcome refuses
  rw [hattached, houtcome]
  have hregistered := registered refuses listened
  generalize register refuses listened = result at hregistered
  cases hregistered with
  | all hgranted =>
    constructor
    · intro number hnumber course
      cases hnumber
      have hrun := page.run_attached hlistened course
      simp only [Happening.among_listened] at hrun
      exact hrun
    · intro value herr
      cases herr
  | @before granted later refused value hkinds hgranted hrefused =>
    constructor
    · intro number hok
      cases hok
    · intro value' herr
      cases herr
      have hnodup : granted.Nodup :=
        hlistened.sublist (hkinds ▸ List.sublist_append_left granted (refused :: later))
      exact ⟨granted, refused, later, hkinds, hgranted, hrefused, page.run_attached hnodup⟩

/-- A listing is asked for, backspace goes down and a message without a string comes before the task
is polled.  Where the listener for keys going down is refused, backspace does nothing. -/
theorem listening_is_calling_with_and_without_keyDown :
    let storage : Storage Unit := .scripted [] [("/d", { answer := .ok [⟨"a", .file⟩] })]
    let page : Page Unit :=
      { session := .fresh { storage } (), outlet := { call := fun _ _ => .delivered } }
    let refuses : EventKind → Option Value := fun kind =>
      if kind = .keyDown then some (.string "refused") else none
    let course : List (Happening Unit) :=
      [.occurs .message { data := .string "X5D/d" }, .occurs .keyDown { keyCode := 8 },
        .occurs .message { data := .null }, .polled 0]
    let whole := page.attach fun _ => none
    let partly := page.attach refuses
    let heard := whole.1.run (course.map (Happening.onTarget 0))
    let missed := partly.1.run (course.map (Happening.onTarget 0))
    whole.2.2 = .ok 0 ∧ partly.2.2 = .error (.string "refused") ∧
      heard.2.map handed = [[], ["S0\x08"], [], ["X5DFa", "X5D_0"]] ∧
      (heard.1.dispatch 0 "keydown" { keyCode := 8 }).2.2 = ⟨1, true⟩ ∧
      missed.1.dispatch 0 "keydown" { keyCode := 8 } = (missed.1, [], {}) := by
  intro storage page refuses course whole partly heard missed
  obtain ⟨hactions, hstands⟩ := (listening_is_calling page fun _ => none).1 0 rfl course
  obtain ⟨granted, refused, later, -, hgranted, -, hcourse⟩ :=
    (listening_is_calling page refuses).2 _ rfl
  have hkeyDown : EventKind.keyDown ∉ granted := fun hmem => nomatch hgranted .keyDown hmem
  refine ⟨rfl, rfl, ?_, ?_, ?_⟩
  · exact (congrArg (List.map handed) hactions).trans (by decide)
  · have hkey := hstands.registered .keyDown (by decide) { keyCode := 8 }
    exact congrArg (fun result => result.2.2) hkey
  · exact (hcourse course).2.others .keyDown hkeyDown _

end PluginBridge.Page
