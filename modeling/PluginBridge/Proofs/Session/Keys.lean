import PluginBridge.Proofs.Session.Console
import PluginBridge.Proofs.Session.Ledger

/-!
# Keys and requests

Keystrokes and replies leave through one port.  They cannot be confused, since a keystroke begins
with `S` and a reply with `X5`; and neither kind of traffic has any effect on the other, since a key
event leaves the session as it is (`react_of_isKey`) and nothing but a key event types
(`startsWith_sent_react`).

`keys_and_requests_apart` puts this together for whole courses, with and without the events of the
other kind, and reads the codes of the keys back from what is posted.
-/

namespace PluginBridge

/-- Does a text begin with another one? -/
abbrev StartsWith (start text : String) : Prop :=
  start.toList <+: text.toList

theorem not_startsWith_S_of_X5 {text : String} (h : StartsWith "X5" text) :
    ¬StartsWith "S" text := by
  obtain ⟨rest, hrest⟩ := h
  rintro ⟨other, hother⟩
  rw [← hrest] at hother
  simp at hother

theorem HostMessage.IsReply.startsWith {message : HostMessage} (h : message.IsReply) :
    StartsWith "X5" message.encode := by
  cases message with
  | key c => cases h
  | _ => simp [StartsWith, encode]

theorem startsWith_of_isReply {effects : List Effect} (h : ∀ effect ∈ effects, effect.IsReply) :
    ∀ text ∈ sent effects, StartsWith "X5" text := by
  intro text hmem
  obtain ⟨message, hmessage, rfl⟩ := List.mem_map.1 hmem
  obtain ⟨effect, heffect, hposted⟩ := List.mem_filterMap.1 hmessage
  cases effect with
  | post posted =>
    cases hposted
    exact HostMessage.IsReply.startsWith (h _ heffect)
  | _ => cases hposted

namespace Session

variable {ω : Type}

/-! ## Kinds of events -/

/-- Is it an event of the keyboard? -/
def Event.IsKey : Event ω → Prop
  | .keyPress _ | .keyDown _ | .keyUp => True
  | _ => False

/-- Is it a message of the plugin, or a poll of a task that a message has started? -/
def Event.IsInbound : Event ω → Prop
  | .message _ | .poll _ => True
  | _ => False

instance : (event : Event ω) → Decidable event.IsKey
  | .keyPress _ | .keyDown _ | .keyUp => .isTrue trivial
  | .message _ | .stdout _ | .stderr _ | .poll _ | .drop _ | .change _ => .isFalse not_false

instance : (event : Event ω) → Decidable event.IsInbound
  | .message _ | .poll _ => .isTrue trivial
  | .stdout _ | .stderr _ | .keyPress _ | .keyDown _ | .keyUp | .drop _ | .change _ =>
    .isFalse not_false

/-- The code that an event forwards to the plugin. -/
def Event.forwarded? : Event ω → Option UInt32
  | .keyPress code => if code.isValidChar then some code else none
  | .keyDown code => if code = Keyboard.backspace then some code else none
  | _ => none

/-- What is posted for a key. -/
def keyText (key : Char) : String :=
  "S0" ++ String.singleton key

/-- The code of the key in a post. -/
def typedCode? (text : String) : Option UInt32 :=
  match text.toList with
  | ['S', '0', key] => some key.val
  | _ => none

theorem typedCode?_keyText (key : Char) : typedCode? (keyText key) = some key.val := by
  simp [typedCode?, keyText]

theorem startsWith_keyText (key : Char) : StartsWith "S" (keyText key) := by
  simp [StartsWith, keyText]

/-- The key that an event types is the one of the code that it forwards. -/
theorem Event.forwarded?_eq (event : Event ω) :
    event.forwarded? = event.keystroke?.map Char.val := by
  cases event with
  | keyPress code =>
    rw [Event.forwarded?, Event.keystroke?]
    split <;> simp [*]
  | keyDown code =>
    rw [Event.forwarded?, Event.keystroke?]
    split <;> simp_all [Keyboard.backspace]
  | _ => rfl

theorem Event.isKey_of_keystroke {event : Event ω} {key : Char}
    (h : event.keystroke? = some key) : event.IsKey := by
  cases event <;> trivial

/-! ## One event -/

/-- A key event leaves the session as it is. -/
theorem react_of_isKey (session : Session ω) {event : Event ω} (h : event.IsKey) :
    (session.react event).1 = session := by
  cases event <;> first | rfl | cases h

/-- What a key event does is to post keys. -/
theorem exists_map_post_of_isKey (session : Session ω) {event : Event ω} (h : event.IsKey) :
    ∃ messages : List HostMessage, (session.react event).2 = messages.map .post := by
  cases event with
  | keyPress code => exact ⟨_, rfl⟩
  | keyDown code => exact ⟨_, rfl⟩
  | keyUp => exact ⟨[], rfl⟩
  | _ => cases h

theorem written_react_of_isKey (session : Session ω) {event : Event ω} (h : event.IsKey) :
    written (session.react event).2 = [] := by
  obtain ⟨messages, hmessages⟩ := exists_map_post_of_isKey session h
  rw [hmessages, written_map_post]

/-- A key event posts the key that it types. -/
theorem sent_react_of_isKey (session : Session ω) {event : Event ω} (h : event.IsKey) :
    sent (session.react event).2 = event.keystroke?.toList.map keyText := by
  have hline : sent (session.react event).2 = lineTexts (event.keystroke?.map .keystroke) := by
    cases event with
    | keyPress code => exact sent_keyPress code
    | keyDown code => exact sent_keyDown code
    | keyUp => rfl
    | _ => cases h
  rw [hline]
  cases event.keystroke? <;> rfl

/-- Any other event posts replies only. -/
theorem startsWith_sent_react {session : Session ω} (h : session.OnlyReplies) {event : Event ω}
    (hkey : ¬event.IsKey) : ∀ text ∈ sent (session.react event).2, StartsWith "X5" text := by
  have nothing {effects : List Effect} (hnil : sent effects = []) :
      ∀ text ∈ sent effects, StartsWith "X5" text := by
    rw [hnil]
    exact fun text hmem => by cases hmem
  cases event with
  | message data =>
    rw [react_message, sent_onMessage]
    split
    · rename_i request _ _
      cases request <;> simp [FileRequest.refusalTexts, StartsWith]
    · exact fun text hmem => by cases hmem
  | poll task => exact startsWith_of_isReply (h.isReply_poll task)
  | stdout text => exact nothing (sent_map_console _ _)
  | stderr text => exact nothing (sent_map_console _ _)
  | drop task => exact nothing rfl
  | change f => exact nothing rfl
  | _ => exact absurd trivial hkey

/-- The keystrokes among the posts of an event are the key that it types. -/
theorem filter_S_react {session : Session ω} (h : session.OnlyReplies) (event : Event ω) :
    (sent (session.react event).2).filter (StartsWith "S") =
      event.keystroke?.toList.map keyText := by
  by_cases hkey : event.IsKey
  · rw [sent_react_of_isKey session hkey]
    apply List.filter_eq_self.2
    intro text hmem
    obtain ⟨key, -, rfl⟩ := List.mem_map.1 hmem
    exact decide_eq_true (startsWith_keyText key)
  · have hnone : event.keystroke? = none := by
      cases hkeystroke : event.keystroke? with
      | none => rfl
      | some key => exact absurd (Event.isKey_of_keystroke hkeystroke) hkey
    rw [hnone]
    apply List.filter_eq_nil_iff.2
    intro text hmem hS
    exact not_startsWith_S_of_X5 (startsWith_sent_react h hkey text hmem) (of_decide_eq_true hS)

/-- Whatever is posted is a keystroke or part of a reply. -/
theorem startsWith_react {session : Session ω} (h : session.OnlyReplies) (event : Event ω) :
    ∀ text ∈ sent (session.react event).2, StartsWith "S" text ∨ StartsWith "X5" text := by
  intro text hmem
  by_cases hkey : event.IsKey
  · rw [sent_react_of_isKey session hkey] at hmem
    obtain ⟨key, -, rfl⟩ := List.mem_map.1 hmem
    exact .inl (startsWith_keyText key)
  · exact .inr (startsWith_sent_react h hkey text hmem)

/-! ## Whole courses -/

/-- Everything that a course posts. -/
def posts (session : Session ω) (course : List (Event ω)) : List String :=
  sent (session.run course).2.flatten

@[simp] theorem posts_cons (session : Session ω) (event : Event ω) (rest : List (Event ω)) :
    session.posts (event :: rest) =
      sent (session.react event).2 ++ (session.react event).1.posts rest := by
  rw [posts, run_cons, List.flatten_cons, sent_append, posts]

theorem filter_S_posts {session : Session ω} (h : session.OnlyReplies)
    (course : List (Event ω)) :
    (session.posts course).filter (StartsWith "S") =
      (course.filterMap Event.keystroke?).map keyText := by
  induction course generalizing session with
  | nil => rfl
  | cons event rest ih =>
    rw [posts_cons, List.filter_append, filter_S_react h, ih (h.react event)]
    cases hkeystroke : event.keystroke? <;> simp [hkeystroke]

theorem startsWith_posts {session : Session ω} (h : session.OnlyReplies)
    (course : List (Event ω)) :
    ∀ text ∈ session.posts course, StartsWith "S" text ∨ StartsWith "X5" text := by
  induction course generalizing session with
  | nil => exact fun text hmem => by cases hmem
  | cons event rest ih =>
    intro text hmem
    rw [posts_cons] at hmem
    rcases List.mem_append.1 hmem with hmem | hmem
    · exact startsWith_react h event text hmem
    · exact ih (h.react event) text hmem

/-- Without its key events a course leaves the same session, writes the same lines and posts the
same replies. -/
theorem run_without_keys (session : Session ω) (course : List (Event ω)) :
    let unkeyed := course.filter fun event => ¬event.IsKey
    (session.run unkeyed).1 = (session.run course).1 ∧
      written (session.run unkeyed).2.flatten = written (session.run course).2.flatten ∧
      (session.posts unkeyed).filter (StartsWith "X5") =
        (session.posts course).filter (StartsWith "X5") := by
  intro unkeyed
  induction course generalizing session with
  | nil => exact ⟨rfl, rfl, rfl⟩
  | cons event rest ih =>
    obtain ⟨hsession, hwritten, hposts⟩ := ih (session.react event).1
    by_cases hkey : event.IsKey
    -- A key event leaves the session, so the rest runs from the same one.
    · have hunkeyed : unkeyed = rest.filter fun event => ¬event.IsKey := by
        simp [unkeyed, hkey]
      have htyped : (sent (session.react event).2).filter (StartsWith "X5") = [] := by
        rw [sent_react_of_isKey session hkey]
        cases event.keystroke? <;> simp [StartsWith, keyText]
      rw [react_of_isKey session hkey] at hsession hwritten hposts
      rw [hunkeyed, run_cons, List.flatten_cons, written_append, posts_cons, List.filter_append,
        written_react_of_isKey session hkey, htyped, react_of_isKey session hkey]
      exact ⟨hsession, hwritten, hposts⟩
    · have hunkeyed : unkeyed = event :: rest.filter fun event => ¬event.IsKey := by
        simp [unkeyed, hkey]
      rw [hunkeyed, run_cons, run_cons, posts_cons, posts_cons, List.flatten_cons,
        List.flatten_cons, written_append, written_append, List.filter_append, List.filter_append]
      exact ⟨hsession, congrArg _ hwritten, congrArg _ hposts⟩

/-- The keys of a course are typed by its key events, so they stay when events of another kind are
deleted. -/
theorem filterMap_keystroke_without_inbound (course : List (Event ω)) :
    (course.filter fun event => ¬event.IsInbound).filterMap Event.keystroke? =
      course.filterMap Event.keystroke? := by
  rw [List.filterMap_filter]
  congr 1
  funext event
  cases event <;> rfl

/-- The codes of the keys of a course are those that its key events forward. -/
theorem map_typedCode?_keyText (course : List (Event ω)) :
    ((course.filterMap Event.keystroke?).map keyText).map typedCode? =
      (course.filterMap Event.forwarded?).map some := by
  induction course with
  | nil => rfl
  | cons event rest ih =>
    rw [List.filterMap_cons, List.filterMap_cons, Event.forwarded?_eq]
    cases event.keystroke? with
    | none => exact ih
    | some key =>
      simp only [Option.map_some, List.map_cons, typedCode?_keyText]
      rw [ih]

/-- **Keys and requests do not interfere.**  In every course the posts that begin with `S` are the
keys that are typed, in their order, and all others begin with `X5`.  Without the key events every
moment finds the same session, with its buffers and tasks, the same lines have been written and the
same replies posted.  Without messages and polls the same keys are posted; and their codes can be
read off the posts. -/
theorem keys_and_requests_apart (bridge : Bridge ω) (world : ω) (course : List (Event ω)) :
    let session := fresh bridge world
    let unkeyed := course.filter fun event => ¬event.IsKey
    let unasked := course.filter fun event => ¬event.IsInbound
    let keys := (session.posts course).filter (StartsWith "S")
    keys = (course.filterMap Event.keystroke?).map (fun key => "S0" ++ String.singleton key) ∧
    (∀ text ∈ session.posts course, ¬StartsWith "S" text → StartsWith "X5" text) ∧
    (∀ before after, course = before ++ after →
      (session.run (before.filter fun event => ¬event.IsKey)).1 = (session.run before).1) ∧
    written (session.run unkeyed).2.flatten = written (session.run course).2.flatten ∧
    (session.posts unkeyed).filter (StartsWith "X5") =
      (session.posts course).filter (StartsWith "X5") ∧
    (session.posts unasked).filter (StartsWith "S") = keys ∧
    keys.map typedCode? = (course.filterMap Event.forwarded?).map some := by
  intro session unkeyed unasked keys
  have hreplies : session.OnlyReplies := tasksEnsure_fresh bridge world
  have hkeys : keys = (course.filterMap Event.keystroke?).map keyText :=
    filter_S_posts hreplies course
  obtain ⟨-, hwritten, hposts⟩ := run_without_keys session course
  refine ⟨hkeys, ?_, ?_, hwritten, hposts, ?_, ?_⟩
  · intro text hmem hS
    exact (startsWith_posts hreplies course text hmem).resolve_left hS
  · intro before after _
    exact (run_without_keys session before).1
  · rw [hkeys, filter_S_posts hreplies, filterMap_keystroke_without_inbound]
  · rw [hkeys, map_typedCode?_keyText]

end Session

end PluginBridge
