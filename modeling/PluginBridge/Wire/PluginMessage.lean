import PluginBridge.Wire.Request

/-!
# Messages from the plugin

The first character of a message is its tag:

* `E` and a text: a line for the log,
* `S`, a stream character and a text: a chunk of a standard stream,
* `X` and a body: a request (`FileRequest`).

`print_of_parse` says that reading loses nothing, `parse_print` that every message whose stream is
named canonically is read back.
-/

namespace PluginBridge

/-- A standard stream of the plugin, named by the character after the `S` tag. -/
inductive StreamId where
  | stdin
  | stdout
  | stderr
  /-- A stream without a meaning of its own. -/
  | other (id : Char)
  deriving DecidableEq, Repr, Inhabited

namespace StreamId

/-- The stream that a character names. -/
def ofChar (id : Char) : StreamId :=
  if id = '0' then stdin else if id = '1' then stdout else if id = '2' then stderr else other id

/-- The character that names a stream. -/
def toChar : StreamId → Char
  | stdin => '0'
  | stdout => '1'
  | stderr => '2'
  | other id => id

/-- An id is canonical if its character names it: `other` does not stand for a known stream. -/
def IsCanonical : StreamId → Prop
  | other id => id ≠ '0' ∧ id ≠ '1' ∧ id ≠ '2'
  | _ => True

@[simp] theorem toChar_ofChar (id : Char) : (ofChar id).toChar = id := by
  unfold ofChar
  repeat' split
  all_goals simp_all [toChar]

theorem ofChar_toChar {id : StreamId} (h : id.IsCanonical) : ofChar id.toChar = id := by
  cases id with
  | other c => obtain ⟨h0, h1, h2⟩ := h; simp [ofChar, toChar, h0, h1, h2]
  | _ => rfl

end StreamId

/-- A message received from the plugin. -/
inductive PluginMessage where
  | errorLog (text : String)
  | stream (id : StreamId) (text : String)
  | rpc (request : FileRequest)
  deriving DecidableEq, Repr, Inhabited

namespace PluginMessage

/-- The written form of a message. -/
def print : PluginMessage → String
  | errorLog text => String.ofList ('E' :: text.toList)
  | stream id text => String.ofList ('S' :: id.toChar :: text.toList)
  | rpc request => String.ofList ('X' :: request.print.toList)

/-- Reads one message. -/
def parse (data : String) : Except MessageError PluginMessage :=
  match data.toList with
  | [] => .error .empty
  | tag :: body =>
    if tag = 'E' then .ok (errorLog (String.ofList body))
    else if tag = 'S' then
      match body with
      | [] => .error .missingStreamId
      | id :: text => .ok (stream (StreamId.ofChar id) (String.ofList text))
    else if tag = 'X' then (FileRequest.parse (String.ofList body)).map rpc
    else .error (.unknownTag tag)

/-- A message is canonical if it names its stream canonically. -/
def IsCanonical : PluginMessage → Prop
  | stream id _ => id.IsCanonical
  | _ => True

theorem parse_print {message : PluginMessage} (h : message.IsCanonical) :
    parse message.print = .ok message := by
  cases message with
  | errorLog text => simp [parse, print]
  | stream id text => simp [parse, print, StreamId.ofChar_toChar h]
  | rpc request => simp [parse, print, FileRequest.parse_print, Except.map]

theorem print_of_parse {data : String} {message : PluginMessage}
    (h : parse data = .ok message) : message.print = data := by
  unfold parse at h
  split at h
  · cases h
  · rename_i tag body heq
    split at h
    · injection h with h; subst h
      exact String.toList_inj.1 (by simp_all [print])
    split at h
    · split at h
      · cases h
      · injection h with h; subst h
        exact String.toList_inj.1 (by simp_all [print])
    split at h
    · cases hp : FileRequest.parse (String.ofList body) with
      | error e => rw [hp] at h; cases h
      | ok request =>
        rw [hp] at h
        injection h with h; subst h
        exact String.toList_inj.1 (by simp_all [print, FileRequest.print_of_parse hp])
    · cases h

end PluginMessage

end PluginBridge
