import PluginBridge.Proofs.Session.Tasks
import PluginBridge.Proofs.Text.Lines

/-!
# What reaches the console

The plugin's two output streams reach the console line by line.  Each event adds a text, mostly
none, to each of them (`Event.textOn`), and nothing but this text moves a buffer or brings a line
at the level of its stream, the reports of malformed messages apart (`takes_react`).

Since it does not matter how a stream is cut, a whole course shows on the console what the
concatenation of its texts would show if it came at once: `streams_as_one_chunk`.
-/

namespace PluginBridge

/-- What effects write to the console, each line with its level. -/
def written (effects : List Effect) : List (ConsoleLevel × String) :=
  effects.filterMap Effect.line?

/-- The lines that effects write to the console at a level. -/
def linesAt (level : ConsoleLevel) (effects : List Effect) : List String :=
  ((written effects).filter fun line => line.1 = level).map Prod.snd

@[simp] theorem written_append (a b : List Effect) : written (a ++ b) = written a ++ written b :=
  List.filterMap_append

@[simp] theorem written_map_post (messages : List HostMessage) :
    written (messages.map .post) = [] := by
  induction messages with
  | nil => rfl
  | cons message rest ih => exact ih

section

variable (level : ConsoleLevel)

@[simp] theorem linesAt_nil : linesAt level [] = [] := rfl

@[simp] theorem linesAt_append (a b : List Effect) :
    linesAt level (a ++ b) = linesAt level a ++ linesAt level b := by
  simp [linesAt]

@[simp] theorem linesAt_trace (event : TraceEvent) (rest : List Effect) :
    linesAt level (.trace event :: rest) = linesAt level rest := rfl

@[simp] theorem linesAt_console (l : ConsoleLevel) (text : String) (rest : List Effect) :
    linesAt level (.console l text :: rest) =
      (if l = level then [text] else []) ++ linesAt level rest := by
  by_cases h : l = level <;> simp [linesAt, written, Effect.line?, h]

@[simp] theorem linesAt_map_console (l : ConsoleLevel) (lines : List String) :
    linesAt level (lines.map (.console l)) = if l = level then lines else [] := by
  induction lines with
  | nil => simp
  | cons line rest ih =>
    rw [List.map_cons, linesAt_console, ih]
    split <;> simp

theorem linesAt_flatten (log : List (List Effect)) :
    linesAt level log.flatten = (log.map (linesAt level)).flatten := by
  induction log with
  | nil => rfl
  | cons effects rest ih => simp [ih]

@[simp] theorem linesAt_map_post (messages : List HostMessage) :
    linesAt level (messages.map .post) = [] := by
  simp [linesAt]

end

/-- A reply writes to the console at the level of information only. -/
theorem linesAt_of_isReply {level : ConsoleLevel} (hlevel : level ≠ .info) {effects : List Effect}
    (h : ∀ effect ∈ effects, effect.IsReply) : linesAt level effects = [] := by
  induction effects with
  | nil => rfl
  | cons effect rest ih =>
    obtain ⟨heffect, hrest⟩ := List.forall_mem_cons.1 h
    cases effect with
    | console l text =>
      cases (heffect : l = .info)
      rw [linesAt_console, if_neg hlevel.symm, ih hrest, List.nil_append]
    | _ => exact ih hrest

/-- What a request does while its message is handled is part of a reply. -/
theorem isReply_dispatch {ω : Type} (bridge : Bridge ω) (request : FileRequest) :
    ∀ effect ∈ (bridge.dispatch request).effects, effect.IsReply := by
  intro effect hmem
  have hannounced : ∀ effect ∈ (Effect.trace (.rpcRequest request) ::
      if bridge.traced then [.console .info request.announcement] else []), effect.IsReply := by
    intro effect hmem
    rcases List.mem_cons.1 hmem with rfl | hmem
    · exact trivial
    split at hmem
    · rw [List.mem_singleton.1 hmem]
      exact rfl
    · cases hmem
  rw [Bridge.dispatch] at hmem
  cases hstorage : bridge.storage with
  | none =>
    simp only [hstorage] at hmem
    rcases List.mem_append.1 hmem with hmem | hmem
    · exact hannounced effect hmem
    · exact request.isReply_close _ _ effect hmem
  | some storage =>
    simp only [hstorage] at hmem
    exact hannounced effect hmem

namespace Session

variable {ω : Type}

/-! ## Output streams -/

/-- A stream on which the plugin writes. -/
inductive Output where
  | stdout
  | stderr

namespace Output

/-- The name of the stream in a message. -/
def streamId : Output → StreamId
  | stdout => .stdout
  | stderr => .stderr

/-- The level at which the lines of the stream are shown. -/
def level : Output → ConsoleLevel
  | stdout => .warn
  | stderr => .error

/-- The unfinished line of the stream. -/
def buffer (bridge : Bridge ω) : Output → LineBuffer
  | stdout => bridge.stdout
  | stderr => bridge.stderr

theorem level_ne_info (output : Output) : output.level ≠ .info := by
  cases output <;> decide

theorem level_ne_log (output : Output) : output.level ≠ .log := by
  cases output <;> decide

end Output

/-- The text that an event adds to a stream. -/
def Event.textOn (output : Output) : Event ω → String
  | .message data =>
    match PluginMessage.parse data with
    | .ok (.stream id text) => if id = output.streamId then text else ""
    | _ => ""
  | .stdout text => match output with
    | .stdout => text
    | .stderr => ""
  | .stderr text => match output with
    | .stdout => ""
    | .stderr => text
  | _ => ""

/-- The concatenation of all text on a stream. -/
def textOn (output : Output) (course : List (Event ω)) : String :=
  String.join (course.map (Event.textOn output))

/-- The report that a malformed message brings. -/
def Event.report? : Event ω → Option String
  | .message data =>
    if data = "" then none
    else match PluginMessage.parse data with
      | .ok _ => none
      | .error err => some (Bridge.report data err)
  | _ => none

/-- The lines of an event without the one report that a malformed message brings. -/
def Event.unreported (event : Event ω) (lines : List String) : List String :=
  event.report?.elim lines lines.erase

/-- The report of an event, if it is written where the lines of a stream are: reports and the error
stream share their level. -/
def Event.reportsOn (event : Event ω) : Output → List String
  | .stdout => []
  | .stderr => event.report?.toList

/-! ## One event -/

/-- Some text comes on a stream.  Its buffer takes the text, and the console shows the reports and
then the lines that the text completes. -/
structure Output.Takes (output : Output) (bridge : Bridge ω) (text : String)
    (reports : List String) (after : Bridge ω) (effects : List Effect) : Prop where
  buffer : output.buffer after = ((output.buffer bridge).push text).1
  lines : linesAt output.level effects = reports ++ ((output.buffer bridge).push text).2

/-- No text on a stream leaves its buffer as it is and completes no line. -/
theorem Output.takes_empty {output : Output} {bridge after : Bridge ω} {reports : List String}
    {effects : List Effect} (hbuffer : output.buffer after = output.buffer bridge)
    (hlines : linesAt output.level effects = reports) :
    output.Takes bridge "" reports after effects := by
  constructor
  · rw [LineBuffer.push_empty_text, hbuffer]
  · rw [LineBuffer.push_empty_text, hlines, List.append_nil]

/-- A message on a stream passes its text to the buffer of that stream. -/
theorem takes_receive (bridge : Bridge ω) (id : StreamId) (text : String) (output : Output) :
    output.Takes bridge (if id = output.streamId then text else "") []
      (bridge.receive id text).1 (bridge.receive id text).2 := by
  constructor <;> cases id <;> cases output <;>
    simp [Bridge.receive, Bridge.writeStdout, Bridge.writeStderr, Output.buffer, Output.streamId,
      Output.level]

theorem takes_onMessage (bridge : Bridge ω) (data : String) (output : Output) :
    output.Takes bridge ((Event.message data : Event ω).textOn output)
      ((Event.message data : Event ω).reportsOn output)
      (bridge.onMessage data).bridge (bridge.onMessage data).effects := by
  by_cases hempty : data = ""
  · subst hempty
    exact Output.takes_empty rfl (by cases output <;> rfl)
  rw [Bridge.onMessage, if_neg hempty, Event.textOn]
  cases hparse : PluginMessage.parse data with
  | error err =>
    -- The report of a message that is dropped shares its level with the error stream.
    refine Output.takes_empty rfl ?_
    cases output <;> simp [Output.level, Event.reportsOn, Event.report?, hempty, hparse]
  | ok message =>
    have hreports : (Event.message data : Event ω).reportsOn output = [] := by
      cases output <;> simp [Event.reportsOn, Event.report?, hempty, hparse]
    rw [hreports]
    cases message with
    | errorLog text =>
      refine Output.takes_empty rfl ?_
      rw [linesAt_console, if_neg output.level_ne_log.symm, linesAt_nil, List.append_nil]
    | stream id text => exact takes_receive bridge id text output
    | rpc request =>
      refine Output.takes_empty ?_ <|
        linesAt_of_isReply output.level_ne_info (isReply_dispatch bridge request)
      simp only [Bridge.dispatch]
      cases bridge.storage <;> rfl

/-- An event without a report contributes none to either stream. -/
theorem Event.reportsOn_eq_nil {event : Event ω} (h : event.report? = none) (output : Output) :
    event.reportsOn output = [] := by
  cases output with
  | stdout => rfl
  | stderr => rw [Event.reportsOn, h, Option.toList_none]

/-- **One event.**  It passes its text to the buffer of a stream, and the console shows the lines
that this completes; only the report of a malformed message comes on top of them. -/
theorem takes_react {session : Session ω} (h : session.OnlyReplies) (event : Event ω)
    (output : Output) :
    output.Takes session.bridge (event.textOn output) (event.reportsOn output)
      (session.react event).1.bridge (session.react event).2 := by
  cases event with
  | message data =>
    rw [react_message]
    exact takes_onMessage session.bridge data output
  | stdout text =>
    rw [Event.reportsOn_eq_nil rfl]
    cases output <;> exact takes_receive session.bridge .stdout text _
  | stderr text =>
    rw [Event.reportsOn_eq_nil rfl]
    cases output <;> exact takes_receive session.bridge .stderr text _
  | poll task =>
    rw [Event.reportsOn_eq_nil rfl]
    refine Output.takes_empty ?_ <|
      linesAt_of_isReply output.level_ne_info (h.isReply_poll task)
    obtain ⟨slot, hslot⟩ := session.poll_eq_set task
    rw [react, hslot]
  | keyPress code =>
    rw [Event.reportsOn_eq_nil rfl]
    exact Output.takes_empty rfl (linesAt_map_post _ _)
  | keyDown code =>
    rw [Event.reportsOn_eq_nil rfl]
    exact Output.takes_empty rfl (linesAt_map_post _ _)
  | _ =>
    rw [Event.reportsOn_eq_nil rfl]
    exact Output.takes_empty rfl rfl

/-! ## A whole course -/

@[simp] theorem textOn_nil (output : Output) : textOn output ([] : List (Event ω)) = "" := rfl

@[simp] theorem textOn_cons (output : Output) (event : Event ω) (rest : List (Event ω)) :
    textOn output (event :: rest) = event.textOn output ++ textOn output rest := by
  rw [textOn, List.map_cons, String.join_cons, textOn]

/-- A course leaves of a stream what its whole text leaves. -/
theorem buffer_run {session : Session ω} (h : session.OnlyReplies) (course : List (Event ω))
    (output : Output) :
    output.buffer (session.run course).1.bridge =
      ((output.buffer session.bridge).push (textOn output course)).1 := by
  induction course generalizing session with
  | nil => rw [textOn_nil, LineBuffer.push_empty_text, run_nil]
  | cons event rest ih =>
    rw [run_cons, ih (h.react event), (takes_react h event output).buffer, textOn_cons,
      LineBuffer.push_append]

/-- A course shows at the level of the standard output the lines that its whole text completes. -/
theorem warn_run {session : Session ω} (h : session.OnlyReplies) (course : List (Event ω)) :
    linesAt .warn (session.run course).2.flatten =
      (session.bridge.stdout.push (textOn .stdout course)).2 := by
  induction course generalizing session with
  | nil => rw [textOn_nil, LineBuffer.push_empty_text, run_nil, List.flatten_nil, linesAt_nil]
  | cons event rest ih =>
    -- What the event leaves in the buffer is cut together with the rest of the text.
    have hbuffer : (session.react event).1.bridge.stdout = _ := (takes_react h event .stdout).buffer
    have hlines : linesAt .warn (session.react event).2 = _ := (takes_react h event .stdout).lines
    rw [run_cons, List.flatten_cons, linesAt_append, ih (h.react event), hbuffer, hlines,
      textOn_cons, LineBuffer.push_append]
    rfl

theorem Event.unreported_append (event : Event ω) (lines : List String) :
    event.unreported (event.reportsOn .stderr ++ lines) = lines := by
  cases hreport : event.report? <;> simp [Event.unreported, Event.reportsOn, hreport]

/-- Apart from the reports, the same holds at the level of the error stream. -/
theorem error_run {session : Session ω} (h : session.OnlyReplies) (course : List (Event ω)) :
    (List.zipWith Event.unreported course
        ((session.run course).2.map (linesAt .error))).flatten =
      (session.bridge.stderr.push (textOn .stderr course)).2 := by
  induction course generalizing session with
  | nil => rw [textOn_nil, LineBuffer.push_empty_text, List.zipWith_nil_left, List.flatten_nil]
  | cons event rest ih =>
    have hbuffer : (session.react event).1.bridge.stderr = _ := (takes_react h event .stderr).buffer
    have hlines : linesAt .error (session.react event).2 = _ := (takes_react h event .stderr).lines
    rw [run_cons, List.map_cons, List.zipWith_cons_cons, List.flatten_cons, ih (h.react event),
      hbuffer, hlines, Event.unreported_append, textOn_cons, LineBuffer.push_append]
    rfl

/-- A malformed message brings its report and nothing else. -/
theorem error_react_of_report {session : Session ω} (h : session.OnlyReplies) {event : Event ω}
    {report : String} (hreport : event.report? = some report) :
    linesAt .error (session.react event).2 = [report] := by
  have htext : event.textOn .stderr = "" := by
    cases event with
    | message data =>
      rw [Event.textOn]
      cases hparse : PluginMessage.parse data with
      | error err => rfl
      | ok message => simp [Event.report?, hparse] at hreport
    | _ => cases hreport
  have hlines : linesAt .error (session.react event).2 = _ := (takes_react h event .stderr).lines
  rw [hlines, htext, LineBuffer.push_empty_text, Event.reportsOn, hreport]
  rfl

/-- **The streams do not depend on the course.**  However the text of the two streams is cut and
whatever happens in between, the lines on the console and the unfinished line are those of a bridge
that is given all the text at once.  The error stream shares its level with the reports of malformed
messages; each of those adds its one report and nothing else. -/
theorem streams_as_one_chunk (storage : Option (Storage ω)) (traced : Bool) (world : ω)
    (course : List (Event ω)) :
    let session : Session ω := fresh { storage, traced } world
    let stdout := session.run [.stdout (textOn .stdout course)]
    let stderr := session.run [.stderr (textOn .stderr course)]
    (linesAt .warn (session.run course).2.flatten = linesAt .warn stdout.2.flatten ∧
      (session.run course).1.bridge.stdout.pending = stdout.1.bridge.stdout.pending) ∧
    ((List.zipWith Event.unreported course ((session.run course).2.map (linesAt .error))).flatten =
        linesAt .error stderr.2.flatten ∧
      (session.run course).1.bridge.stderr.pending = stderr.1.bridge.stderr.pending) ∧
    ∀ before event after report, course = before ++ event :: after →
      event.report? = some report →
      linesAt .error ((session.run before).1.react event).2 = [report] := by
  intro session stdout stderr
  have hreplies : session.OnlyReplies := tasksEnsure_fresh _ world
  have hstdout : linesAt .warn stdout.2.flatten =
      (session.bridge.stdout.push (textOn .stdout course)).2 := by
    simp [stdout, Session.react, Bridge.writeStdout]
  have hstderr : linesAt .error stderr.2.flatten =
      (session.bridge.stderr.push (textOn .stderr course)).2 := by
    simp [stderr, Session.react, Bridge.writeStderr]
  refine ⟨⟨?_, ?_⟩, ⟨?_, ?_⟩, ?_⟩
  · rw [warn_run hreplies, hstdout]
  · exact congrArg LineBuffer.pending (buffer_run hreplies course .stdout)
  · rw [error_run hreplies, hstderr]
  · exact congrArg LineBuffer.pending (buffer_run hreplies course .stderr)
  · intro before event after report _ hreport
    exact error_react_of_report (hreplies.run before) hreport

end Session

end PluginBridge
