import Mathlib.Logic.ExistsUnique
import PluginBridge.Wire.PluginMessage

/-!
# The grammar of plugin messages

`Reads` writes the language of the plugin down as rules: three forms of messages, and for each text
that has none of them the one cause for which it is rejected.  `parse_eq_iff` says that reading
follows these rules and no others, so each text falls under exactly one, and `parse_grammar` reads
off when each result arises.
-/

namespace PluginBridge.PluginMessage

/-! ## The rules -/

/-- What a text is read as, or the cause of its rejection. -/
inductive Reads : String → Except MessageError PluginMessage → Prop where
  | errorLog (text : String) : Reads ("E" ++ text) (.ok (.errorLog text))
  | stream (id : Char) (text : String) :
      Reads ("S" ++ String.singleton id ++ text) (.ok (.stream (StreamId.ofChar id) text))
  | list (path : String) : Reads ("X5D" ++ path) (.ok (.rpc (.list path)))
  | stat (path : String) : Reads ("X5S" ++ path) (.ok (.rpc (.stat path)))
  | empty : Reads "" (.error .empty)
  | unknownTag {tag : Char} (rest : String) (hE : tag ≠ 'E') (hS : tag ≠ 'S') (hX : tag ≠ 'X') :
      Reads (String.singleton tag ++ rest) (.error (.unknownTag tag))
  | missingStreamId : Reads "S" (.error .missingStreamId)
  | unknownRpc {body : String} (hbody : ∀ rest, body ≠ "5" ++ rest) :
      Reads ("X" ++ body) (.error (.unknownRpc body))
  | missingCommand : Reads "X5" (.error .missingCommand)
  | unknownCommand {command : Char} (rest : String) (hD : command ≠ 'D') (hS : command ≠ 'S') :
      Reads ("X5" ++ String.singleton command ++ rest) (.error (.unknownCommand command))

/-! ## Reading follows the rules -/

/-- A body that does not begin with the version is given back whole. -/
theorem parse_of_not_version {body : String} (h : ∀ rest, body ≠ "5" ++ rest) :
    FileRequest.parse body = .error (.unknownRpc body) := by
  have hcons : ∀ rest, body.toList ≠ '5' :: rest := by
    intro rest heq
    apply h (String.ofList rest)
    apply String.toList_injective
    simpa using heq
  rw [FileRequest.parse]
  split
  · rename_i heq
    exact absurd heq (hcons _)
  · rename_i heq
    exact absurd heq (hcons _)
  · rfl

theorem Reads.parse_eq {data : String} {result : Except MessageError PluginMessage}
    (h : Reads data result) : parse data = result := by
  cases h with
  | errorLog text => simp [parse]
  | stream id text => simp [parse]
  | list path => simp [parse, FileRequest.parse, Except.map]
  | stat path => simp [parse, FileRequest.parse, Except.map]
  | empty => simp [parse]
  | unknownTag rest hE hS hX => simp [parse, hE, hS, hX]
  | missingStreamId => simp [parse]
  | unknownRpc hbody => simp [parse, parse_of_not_version hbody, Except.map]
  | missingCommand => simp [parse, FileRequest.parse, Except.map]
  | unknownCommand rest hD hS => simp [parse, FileRequest.parse, hD, hS, Except.map]

/-- A text is empty, or a character and a text. -/
theorem eq_empty_or_singleton_append (text : String) :
    text = "" ∨ ∃ c rest, text = String.singleton c ++ rest := by
  cases htext : text.toList with
  | nil => exact .inl (String.toList_injective htext)
  | cons c rest =>
    refine .inr ⟨c, String.ofList rest, String.toList_injective ?_⟩
    simpa using htext

/-- Every text falls under a rule. -/
theorem exists_reads (data : String) : ∃ result, Reads data result := by
  rcases eq_empty_or_singleton_append data with rfl | ⟨tag, body, rfl⟩
  · exact ⟨_, .empty⟩
  by_cases hE : tag = 'E'
  · subst hE
    exact ⟨_, .errorLog body⟩
  by_cases hS : tag = 'S'
  · subst hS
    rcases eq_empty_or_singleton_append body with rfl | ⟨id, text, rfl⟩
    · exact ⟨_, .missingStreamId⟩
    · rw [← String.append_assoc]
      exact ⟨_, .stream id text⟩
  by_cases hX : tag = 'X'
  · subst hX
    by_cases hbody : ∃ rest, body = "5" ++ rest
    · obtain ⟨rest, rfl⟩ := hbody
      rcases eq_empty_or_singleton_append rest with rfl | ⟨command, path, rfl⟩
      · exact ⟨_, .missingCommand⟩
      have hdata : String.singleton 'X' ++ ("5" ++ (String.singleton command ++ path)) =
          "X5" ++ String.singleton command ++ path := by
        apply String.toList_injective
        simp
      rw [hdata]
      by_cases hD : command = 'D'
      · subst hD
        exact ⟨_, .list path⟩
      by_cases hS : command = 'S'
      · subst hS
        exact ⟨_, .stat path⟩
      · exact ⟨_, .unknownCommand path hD hS⟩
    · exact ⟨_, .unknownRpc (not_exists.1 hbody)⟩
  · exact ⟨_, .unknownTag body hE hS hX⟩

/-- A text is read as the one rule says under which it falls. -/
theorem parse_eq_iff {data : String} {result : Except MessageError PluginMessage} :
    parse data = result ↔ Reads data result := by
  constructor
  · rintro rfl
    obtain ⟨result, hreads⟩ := exists_reads data
    rwa [hreads.parse_eq]
  · intro hreads
    exact hreads.parse_eq

/-! ## Messages and their written forms -/

theorem isCanonical_ofChar (id : Char) : (StreamId.ofChar id).IsCanonical := by
  unfold StreamId.ofChar
  split
  · trivial
  split
  · trivial
  split
  · trivial
  · rename_i h0 h1 h2
    exact ⟨h0, h1, h2⟩

/-- What has been read is canonical. -/
theorem isCanonical_of_parse {data : String} {message : PluginMessage}
    (h : parse data = .ok message) : message.IsCanonical := by
  cases parse_eq_iff.1 h with
  | errorLog text => trivial
  | stream id text => exact isCanonical_ofChar id
  | list path => trivial
  | stat path => trivial

theorem parse_eq_ok_iff {data : String} {message : PluginMessage} :
    parse data = .ok message ↔ message.IsCanonical ∧ message.print = data := by
  constructor
  · intro h
    exact ⟨isCanonical_of_parse h, print_of_parse h⟩
  · rintro ⟨hcanonical, rfl⟩
    exact parse_print hcanonical

/-- Every message has the written form of a canonical one. -/
theorem exists_parse_print (message : PluginMessage) :
    ∃ read, parse message.print = .ok read := by
  cases message with
  | errorLog text => exact ⟨_, @parse_print (.errorLog text) trivial⟩
  | rpc request => exact ⟨_, @parse_print (.rpc request) trivial⟩
  | stream id text =>
    refine ⟨.stream (StreamId.ofChar id.toChar) text, ?_⟩
    simp [parse, print]

/-! ## Rejected texts -/

/-- The texts that a cause describes. -/
def Describes : MessageError → String → Prop
  | .empty, data => data = ""
  | .unknownTag tag, data =>
    tag ≠ 'E' ∧ tag ≠ 'S' ∧ tag ≠ 'X' ∧ ∃ rest, data = String.singleton tag ++ rest
  | .missingStreamId, data => data = "S"
  | .unknownRpc body, data => data = "X" ++ body ∧ ∀ rest, body ≠ "5" ++ rest
  | .missingCommand, data => data = "X5"
  | .unknownCommand command, data =>
    command ≠ 'D' ∧ command ≠ 'S' ∧ ∃ rest, data = "X5" ++ String.singleton command ++ rest

theorem parse_eq_error_iff {data : String} {err : MessageError} :
    parse data = .error err ↔ Describes err data := by
  rw [parse_eq_iff]
  constructor
  · intro h
    cases h with
    | empty => rfl
    | unknownTag rest hE hS hX => exact ⟨hE, hS, hX, rest, rfl⟩
    | missingStreamId => rfl
    | unknownRpc hbody => exact ⟨rfl, hbody⟩
    | missingCommand => rfl
    | unknownCommand rest hD hS => exact ⟨hD, hS, rest, rfl⟩
  · intro h
    cases err with
    | empty =>
      cases h
      exact .empty
    | unknownTag tag =>
      obtain ⟨hE, hS, hX, rest, rfl⟩ := h
      exact .unknownTag rest hE hS hX
    | missingStreamId =>
      cases h
      exact .missingStreamId
    | unknownRpc body =>
      obtain ⟨rfl, hbody⟩ := h
      exact .unknownRpc hbody
    | missingCommand =>
      cases h
      exact .missingCommand
    | unknownCommand command =>
      obtain ⟨hD, hS, rest, rfl⟩ := h
      exact .unknownCommand rest hD hS

/-- What is no written form is described by one cause, and what is one by none. -/
theorem ne_print_iff {data : String} :
    (∀ message : PluginMessage, message.print ≠ data) ↔ ∃! err, Describes err data := by
  simp only [← parse_eq_error_iff]
  constructor
  · intro hnone
    cases hparse : parse data with
    | ok message => exact absurd (print_of_parse hparse) (hnone message)
    | error err => exact ⟨err, rfl, fun other hother => (Except.error.inj hother).symm⟩
  · rintro ⟨err, herr, -⟩ message rfl
    obtain ⟨read, hread⟩ := exists_parse_print message
    cases hread.symm.trans herr

/-- **The grammar of plugin messages.**  A text is read as a message exactly if it is the written
form of that message and the message names its stream canonically; so reading loses nothing, and
undoes writing.  It is rejected for a cause exactly if the cause describes it, and what is no
written form is described by exactly one. -/
theorem parse_grammar :
    (∀ data message, parse data = .ok message ↔ message.IsCanonical ∧ message.print = data) ∧
    (∀ data err, parse data = .error err ↔ Describes err data) ∧
    (∀ data, (∀ message : PluginMessage, message.print ≠ data) ↔ ∃! err, Describes err data) :=
  ⟨fun _ _ => parse_eq_ok_iff, fun _ _ => parse_eq_error_iff, fun _ => ne_print_iff⟩

end PluginBridge.PluginMessage
