import PluginBridge.Proofs.Session.Keys
import PluginBridge.Proofs.Wire.Grammar

/-!
# Rejected messages

A text that is no message of the plugin is reported on the console and has no other consequence.
The report is worded in three ways, and for an unknown request it is put together from what the
reader has left of the text; still every report repeats the whole text after a heading that its
first character decides (`report_eq`).

`rejections_reported` says what a session does with such a text, in any state that it may be in, and
`run_past_rejected` that no event after it can tell.
-/

namespace PluginBridge

/-! ## The wording of a report -/

/-- The heading of a report: what begins with the tag of requests is an unknown request. -/
def reportHeading (data : String) : String :=
  if StartsWith "X" data then "unknown RPC: " else "unknown message: "

/-- What a report adds about the cause.  An unknown request is its own cause. -/
def MessageError.remark : MessageError → String
  | .unknownRpc _ => ""
  | err => " (" ++ err.message ++ ")"

theorem reportHeading_of_request {data : String} (h : StartsWith "X" data) :
    reportHeading data = "unknown RPC: " :=
  if_pos h

theorem reportHeading_of_tag {tag : Char} (hX : tag ≠ 'X') (rest : String) :
    reportHeading (String.singleton tag ++ rest) = "unknown message: " := by
  apply if_neg
  simpa [StartsWith] using hX.symm

/-- **A report repeats its message.**  Whatever the cause, the heading and the whole text come
first. -/
theorem report_eq {data : String} {err : MessageError} (hempty : data ≠ "")
    (herr : PluginMessage.parse data = .error err) :
    Bridge.report data err = reportHeading data ++ data ++ err.remark := by
  -- Three of the wordings add the cause in parentheses.
  have worded (heading cause : String) : heading ++ data ++ " (" ++ cause ++ ")" =
      heading ++ data ++ (" (" ++ cause ++ ")") := by
    simp only [String.append_assoc]
  cases PluginMessage.parse_eq_iff.1 herr with
  | empty => exact absurd rfl hempty
  | unknownTag rest hE hS hX =>
    rw [reportHeading_of_tag hX]
    exact worded _ _
  | missingStreamId => exact worded _ _
  | unknownRpc hbody =>
    -- The fourth puts the tag before the body again.
    rw [reportHeading_of_request (by simp [StartsWith]), MessageError.remark, String.append_empty,
      ← String.append_assoc]
    rfl
  | missingCommand => exact worded _ _
  | unknownCommand rest hD hS =>
    rw [reportHeading_of_request (by simp [StartsWith])]
    exact worded _ _

namespace Session

variable {ω : Type}

/-! ## One message -/

/-- The empty message is nothing at all. -/
theorem start_empty (session : Session ω) : session.start "" = (session, [], none) := rfl

/-- A rejected message is traced and reported, and the session stays as it is. -/
theorem start_of_rejected (session : Session ω) {data : String} {err : MessageError}
    (hempty : data ≠ "") (herr : PluginMessage.parse data = .error err) :
    session.start data =
      (session,
        [.trace (.messageDropped data err),
          .console .error (reportHeading data ++ data ++ err.remark)], none) := by
  rw [start_eq, Bridge.onMessage, if_neg hempty, herr, ← report_eq hempty herr]
  simp

/-- **Rejections are reported and nothing else.**  In any session, whatever its storage, buffers and
tasks, the empty message does nothing.  Any other text that is rejected leaves the session as it is,
starts no task and posts nothing; it brings one line on the console, an error, which begins with the
heading of its tag and the whole text. -/
theorem rejections_reported (session : Session ω) (data : String) :
    (data = "" → session.start data = (session, [], none)) ∧
    ∀ err, data ≠ "" → PluginMessage.parse data = .error err →
      (session.start data).1 = session ∧
      (session.start data).2.2 = none ∧
      sent (session.start data).2.1 = [] ∧
      written (session.start data).2.1 =
        [(.error, reportHeading data ++ data ++ err.remark)] := by
  constructor
  · rintro rfl
    exact session.start_empty
  · intro err hempty herr
    rw [session.start_of_rejected hempty herr]
    exact ⟨rfl, rfl, rfl, rfl⟩

/-! ## Courses -/

/-- The events after a rejected message do what they would do without it. -/
theorem run_past_rejected (session : Session ω) {data : String} {err : MessageError}
    (hempty : data ≠ "") (herr : PluginMessage.parse data = .error err)
    (before after : List (Event ω)) :
    session.run (before ++ .message data :: after) =
      ((session.run (before ++ after)).1,
        (session.run before).2 ++
          [.trace (.messageDropped data err),
            .console .error (reportHeading data ++ data ++ err.remark)] ::
          ((session.run before).1.run after).2) := by
  have hreact : ∀ state : Session ω, state.react (.message data) =
      (state, (state.start data).2.1) := by
    intro state
    rw [react, state.start_of_rejected hempty herr]
  rw [run_append, run_append, run_cons, hreact, start_of_rejected _ hempty herr]

end Session

end PluginBridge
