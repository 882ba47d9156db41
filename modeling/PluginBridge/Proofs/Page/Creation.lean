import PluginBridge.Proofs.Browser.Acquisition
import PluginBridge.Proofs.Page.Hearing

/-!
# Making a page

A page is made unless its configuration is wrong or its target takes no messages.  That the storage
cannot be had, for whatever reason, is told once on the console; the page then refuses every request
in the event that brings it, for as long as it lives: `failures_contained`.

`Created` lists the ways in which the making can go, with all that is touched in each of them.
-/

namespace PluginBridge

open Browser

variable {η ω : Type}

/-! ## Sessions without a storage -/

namespace Session

/-- The texts that an event calls for where there is no storage: the refusal of the request that it
makes, or the key that it types. -/
def Event.answers (event : Event ω) : List String :=
  event.request?.elim [] FileRequest.refusalTexts ++ event.keystroke?.toList.map keyText

/-- Nothing can succeed, and nothing is under way. -/
structure Unsupplied (session : Session ω) : Prop where
  storage : session.bridge.storage = none
  tasks : session.tasks = []

theorem Unsupplied.run {session : Session ω} (h : session.Unsupplied) (course : List (Event ω)) :
    (session.run course).1.Unsupplied where
  storage := (storage_run session course).trans h.storage
  tasks := tasks_run_of_no_storage h.storage h.tasks course

theorem Unsupplied.sent_react {session : Session ω} (h : session.Unsupplied) (event : Event ω) :
    sent (session.react event).2 = event.answers := by
  cases event with
  | message data =>
    rw [react_message, sent_onMessage, h.storage, Event.answers]
    cases (Event.message data : Event ω).request? with
    | none => rfl
    | some request => exact (List.append_nil _).symm
  | stdout text => exact sent_map_console _ _
  | stderr text => exact sent_map_console _ _
  | poll task =>
    have hgone : session.task? task = none := task?_of_getElem?_none (by rw [h.tasks]; rfl)
    rw [react, poll_of_gone hgone]
    rfl
  | keyPress code => exact @sent_react_of_isKey _ session (.keyPress code) trivial
  | keyDown code => exact @sent_react_of_isKey _ session (.keyDown code) trivial
  | _ => rfl

theorem Unsupplied.posts {session : Session ω} (h : session.Unsupplied)
    (course : List (Event ω)) : session.posts course = course.flatMap Event.answers := by
  induction course generalizing session with
  | nil => rfl
  | cons event rest ih =>
    have hafter : (session.react event).1.Unsupplied := h.run [event]
    rw [posts_cons, h.sent_react, ih hafter, List.flatMap_cons]

end Session

namespace Page

/-! ## Targets and configurations -/

/-- Has a target a function that takes messages? -/
def Target.TakesMessages : Target → Prop
  | receiver _ => True
  | value given => given.property? "postMessage" = .ok .function

theorem Target.takesMessages_iff {target : Target} :
    target.TakesMessages ↔ ∃ outlet, target.outletOf = .ok outlet := by
  cases target with
  | receiver throws => exact iff_of_true trivial ⟨_, rfl⟩
  | value given =>
    rw [TakesMessages, outletOf]
    split <;> simp_all

theorem configOf_of_error {text : String} {err : Settings.Error}
    (hparse : Settings.parse text = .error err) :
    configOf (some text) = .error (.string err.message) := by
  rw [configOf, hparse]
  rfl

theorem configOf_of_ok {text : String} {settings : Settings}
    (hparse : Settings.parse text = .ok settings) : configOf (some text) = .ok settings := by
  rw [configOf, hparse]
  rfl

theorem configOf_eq_error_iff {config : Option String} {value : Value} :
    configOf config = .error value ↔
      ∃ text err, config = some text ∧ Settings.parse text = .error err ∧
        value = .string err.message := by
  cases config with
  | none => simp [configOf]
  | some text =>
    cases hparse : Settings.parse text with
    | ok settings => simp [configOf_of_ok hparse, hparse]
    | error err => simp [configOf_of_error hparse, hparse, eq_comm]

/-! ## What is made -/

/-- The ways in which the making of a page can go, each with what it comes to. -/
inductive Created [Handle η] (env : Environment η ω) (world : ω) (target : Target)
    (config : Option String) : Made ω → Prop where
  /-- Nothing is touched. -/
  | misconfigured {value : Value} (hconfig : configOf config = .error value) :
      Created env world target config { page := .error value, touches := [], actions := [] }
  /-- Only the target is touched. -/
  | noTarget {settings : Settings} {value : Value} (hconfig : configOf config = .ok settings)
      (htarget : target.outletOf = .error value) :
      Created env world target config
        { page := .error value, touches := [.postMessage], actions := [] }
  /-- The storage cannot be had.  That is told, and nothing else is done. -/
  | without {settings : Settings} {outlet : Outlet} {value : Value}
      (hconfig : configOf config = .ok settings) (htarget : target.outletOf = .ok outlet)
      (hrefused : Acquires env world settings.quota (.error value)) :
      Created env world target config
        { page := .ok { session := .fresh { traced := settings.traced } world, outlet }
          touches := .postMessage :: ((env.acquire settings.quota).run world).touches
          actions := [.console .error [.string "RequestFileSystem failed", value]] }
  | supplied {settings : Settings} {outlet : Outlet} {root : η}
      (hconfig : configOf config = .ok settings) (htarget : target.outletOf = .ok outlet)
      (hgranted : Acquires env world settings.quota (.ok root)) :
      Created env world target config
        { page := .ok
            { session := .fresh
                { storage := env.storageAt root settings.quota, traced := settings.traced } world
              outlet }
          touches := .postMessage :: ((env.acquire settings.quota).run world).touches
          actions :=
            [.trace (.storageAcquired settings.quota), .trace (.storageReady settings.quota)] }

theorem created [Handle η] (env : Environment η ω) (world : ω) (target : Target)
    (config : Option String) :
    Created env world target config (create env world target config) := by
  rw [create]
  cases hconfig : configOf config with
  | error value => exact .misconfigured hconfig
  | ok settings =>
    simp only [Target.outlet]
    cases htarget : target.outletOf with
    | error value => exact .noTarget hconfig htarget
    | ok outlet =>
      have hacquires := acquires_run env world settings.quota
      simp only
      cases hrun : ((env.acquire settings.quota).run world).result with
      | error value => exact .without hconfig htarget (hrun ▸ hacquires)
      | ok root => exact .supplied hconfig htarget (hrun ▸ hacquires)

namespace Created

variable [Handle η] {env : Environment η ω} {world : ω} {target : Target} {config : Option String}
  {made : Made ω} (hmade : Created env world target config made)

include hmade

/-- A page fails to be made exactly for its configuration or its target. -/
theorem isError_iff : (∃ value, made.page = .error value) ↔
    (∃ text err, config = some text ∧ Settings.parse text = .error err) ∨
      ¬target.TakesMessages := by
  -- The configuration is right wherever a page is made.
  have right {settings : Settings} (hconfig : configOf config = .ok settings) :
      ¬∃ text err, config = some text ∧ Settings.parse text = .error err := by
    rintro ⟨text, err, hsome, hparse⟩
    cases hconfig.symm.trans (configOf_eq_error_iff.2 ⟨text, err, hsome, hparse, rfl⟩)
  cases hmade with
  | misconfigured hconfig =>
    obtain ⟨text, err, hsome, hparse, -⟩ := configOf_eq_error_iff.1 hconfig
    exact iff_of_true ⟨_, rfl⟩ (.inl ⟨text, err, hsome, hparse⟩)
  | noTarget hconfig htarget =>
    refine iff_of_true ⟨_, rfl⟩ (.inr ?_)
    simp [Target.takesMessages_iff, htarget]
  | without hconfig htarget hrefused =>
    have htakes := Target.takesMessages_iff.2 ⟨_, htarget⟩
    exact iff_of_false (by simp) (not_or.2 ⟨right hconfig, not_not_intro htakes⟩)
  | supplied hconfig htarget hgranted =>
    have htakes := Target.takesMessages_iff.2 ⟨_, htarget⟩
    exact iff_of_false (by simp) (not_or.2 ⟨right hconfig, not_not_intro htakes⟩)

theorem eq_of_misconfigured {text : String} {err : Settings.Error} (hsome : config = some text)
    (hparse : Settings.parse text = .error err) :
    made = { page := .error (.string err.message), touches := [], actions := [] } := by
  have hwrong := configOf_eq_error_iff.2 ⟨text, err, hsome, hparse, rfl⟩
  cases hmade with
  | misconfigured hconfig =>
    cases hconfig.symm.trans hwrong
    rfl
  | noTarget hconfig htarget => cases hconfig.symm.trans hwrong
  | without hconfig htarget hrefused => cases hconfig.symm.trans hwrong
  | supplied hconfig htarget hgranted => cases hconfig.symm.trans hwrong

/-- Once the configuration is right, the target is touched, and after it the storage in order. -/
theorem touches_of_configured {settings : Settings} (hright : configOf config = .ok settings) :
    ∃ later, made.touches = .postMessage :: later ∧
      later.Sublist [.window, .storage, .estimate, .callEstimate, .quota, .callGetDirectory] := by
  cases hmade with
  | misconfigured hconfig => cases hconfig.symm.trans hright
  | noTarget hconfig htarget => exact ⟨[], rfl, List.nil_sublist _⟩
  | without hconfig htarget hrefused => exact ⟨_, rfl, touches_acquire_sublist ..⟩
  | supplied hconfig htarget hgranted => exact ⟨_, rfl, touches_acquire_sublist ..⟩

end Created

/-! ## The life of a page -/

/-- A page that can only refuse, as it stands at some moment. -/
structure Refusing (page : Page ω) : Prop where
  hasNoStorage : page.hasStorage = false
  hasNoTask : page.session.tasks = []
  /-- Whatever comes next, nothing is told about the acquisition. -/
  silent : ∀ event level value,
    .console level [.string "RequestFileSystem failed", value] ∉ (page.react event).2
  /-- Whatever comes next is answered at once. -/
  answered : ∀ event, handed (page.react event).2 = (page.heard event).flatMap Session.Event.answers
  /-- In particular the handler of a message that makes a request refuses it. -/
  refused : ∀ text request, PluginMessage.parse text = .ok (.rpc request) →
    handed (page.onMessage (.string text)).2 = request.refusalTexts

theorem refusing_of_unsupplied {page : Page ω} (h : page.session.Unsupplied) : page.Refusing where
  hasNoStorage := by
    rw [hasStorage, Bridge.hasStorage, h.storage]
    rfl
  hasNoTask := h.tasks
  silent := by
    intro event level value hmem
    rcases page.console_of_mem_react hmem with ⟨text, heq⟩ | ⟨value', -, heq⟩
    · cases heq
    · simp at heq
  answered event := by rw [handed_react, h.posts]
  refused := by
    intro text request hparse
    have hrequest : (Session.Event.message text : Session.Event ω).request? = some request :=
      Session.Event.request?_eq_some_iff.2 ⟨text, rfl, hparse⟩
    rw [page.onMessage_eq_enact { data := .string text }, handed_enact, h.posts]
    show Session.Event.answers (.message text) ++ [] = _
    rw [Session.Event.answers, hrequest]
    simp [Session.Event.keystroke?]

/-- A session without a storage keeps its page refusing. -/
theorem refusing_run {page : Page ω} (h : page.session.Unsupplied) (course : List (Event ω)) :
    (page.run course).1.Refusing := by
  apply refusing_of_unsupplied
  rw [session_run]
  exact h.run _

/-- What becomes of a page that is made: the acquisition of its storage decides. -/
theorem Created.life [Handle η] {env : Environment η ω} {world : ω} {target : Target}
    {config : Option String} {made : Made ω} {page : Page ω}
    (hmade : Created env world target config made) (hpage : made.page = .ok page) :
    ∃ settings, configOf config = .ok settings ∧
      (page.hasStorage = false ↔ ∃ value, Acquires env world settings.quota (.error value)) ∧
      ∀ value, Acquires env world settings.quota (.error value) →
        made.actions = [.console .error [.string "RequestFileSystem failed", value]] ∧
        ∀ course, (page.run course).1.Refusing := by
  cases hmade with
  | misconfigured hconfig => cases hpage
  | noTarget hconfig htarget => cases hpage
  | @without settings outlet value hconfig htarget hrefused =>
    cases hpage
    refine ⟨settings, hconfig, iff_of_true rfl ⟨value, hrefused⟩, ?_⟩
    intro value' hrefused'
    cases hrefused.run_eq.symm.trans hrefused'.run_eq
    exact ⟨rfl, refusing_run ⟨rfl, rfl⟩⟩
  | @supplied settings outlet root hconfig htarget hgranted =>
    cases hpage
    have hnone : ¬∃ value, Acquires env world settings.quota (.error value) := by
      rintro ⟨value, hrefused⟩
      cases hrefused.run_eq.symm.trans hgranted.run_eq
    refine ⟨settings, hconfig, iff_of_false Bool.noConfusion hnone, ?_⟩
    intro value hrefused
    exact absurd ⟨value, hrefused⟩ hnone

/-- **Failures of the storage are contained.**  A page fails to be made exactly if its configuration
is refused or its target takes no messages; a configuration is refused whatever the target and the
browser are like, before either of them is touched, and nothing is done.  Once it is right, the
target is touched first and the storage after it.  Any other page is made, without a storage exactly
if the acquisition ends in an error.  In whichever of its ways it does, that is told in one report,
and at every later moment the page can only refuse. -/
theorem failures_contained [Handle η] (env : Environment η ω) (world : ω) (target : Target)
    (config : Option String) :
    let made := create env world target config
    ((∃ value, made.page = .error value) ↔
      (∃ text err, config = some text ∧ Settings.parse text = .error err) ∨
        ¬target.TakesMessages) ∧
    (∀ text err, config = some text → Settings.parse text = .error err →
      ∀ (env : Environment η ω) (world : ω) (target : Target),
        create env world target config =
          { page := .error (.string err.message), touches := [], actions := [] }) ∧
    (∀ settings, configOf config = .ok settings →
      ∃ later, made.touches = .postMessage :: later ∧
        later.Sublist [.window, .storage, .estimate, .callEstimate, .quota, .callGetDirectory]) ∧
    ∀ page, made.page = .ok page → ∃ settings, configOf config = .ok settings ∧
      (page.hasStorage = false ↔ ∃ value, Acquires env world settings.quota (.error value)) ∧
      ∀ value, Acquires env world settings.quota (.error value) →
        made.actions = [.console .error [.string "RequestFileSystem failed", value]] ∧
        ∀ course, (page.run course).1.Refusing := by
  intro made
  have hmade : Created env world target config made := created env world target config
  refine ⟨hmade.isError_iff, ?_, fun settings hright => hmade.touches_of_configured hright, ?_⟩
  · intro text err hconfig hparse env world target
    exact (created env world target config).eq_of_misconfigured hconfig hparse
  · intro page hpage
    exact hmade.life hpage

end Page

end PluginBridge
