import Mathlib.Logic.Function.Basic
import PluginBridge.Storage.Basic
import PluginBridge.Wire.HostMessage
import PluginBridge.Wire.PluginMessage

/-!
# The receiver of the host's messages

Messages in both directions share one grammar: `HostMessage.reading` is what a message to the plugin
reads as, and `parse_encode` says that it does.  A receiver therefore reads a text with
`PluginMessage.parse` and then only has to look at the characters behind the header.  `receive?` is
that receiver for one text and `receiveListing?` for the texts of a listing; each accepts what the
host writes and nothing else (`receive?_eq_some_iff`, `receiveListing?_eq_some_iff`).

Children and the end of a listing share their header and are told apart by the next character
(`NodeKind.marker_ne_underscore`), so no name can be taken for an end; statuses are told apart since
their character lies in one byte (`ReplyStatus.ofChar?_toChar`).
-/

namespace PluginBridge

/-! ## Statuses and markers -/

namespace ReplyStatus

/-- The character of a status lies in one byte, so nothing is lost when it is written. -/
theorem toNat_toChar (status : ReplyStatus) :
    status.toChar.toNat = (0x30 + status.code.toUInt8).toNat := by
  have hbyte : (0x30 + status.code.toUInt8).toNat < 256 := UInt8.toNat_lt _
  have hvalid : (0x30 + status.code.toUInt8).toNat.isValidChar := .inl (by omega)
  rw [toChar, Char.ofNat, dif_pos hvalid]
  rfl

/-- The status whose code is the byte of a character less `'0'`. -/
def ofChar? (c : Char) : Option ReplyStatus :=
  if c.toNat < 256 then some ⟨(UInt8.ofNat c.toNat - 0x30).toInt8⟩ else none

@[simp] theorem ofChar?_toChar (status : ReplyStatus) : ofChar? status.toChar = some status := by
  have hbyte : status.toChar.toNat < 256 := by
    rw [toNat_toChar]
    exact UInt8.toNat_lt _
  have hcode : UInt8.ofNat status.toChar.toNat - 0x30 = status.code.toUInt8 := by
    rw [toNat_toChar, UInt8.ofNat_toNat, UInt8.add_comm, UInt8.add_sub_cancel]
  rw [ofChar?, if_pos hbyte, hcode, Int8.toInt8_toUInt8]

theorem toChar_of_ofChar? {c : Char} {status : ReplyStatus} (h : ofChar? c = some status) :
    status.toChar = c := by
  obtain ⟨hbyte, rfl⟩ : c.toNat < 256 ∧ ⟨(UInt8.ofNat c.toNat - 0x30).toInt8⟩ = status := by
    simpa [ofChar?] using h
  rw [toChar, UInt8.toUInt8_toInt8, UInt8.add_comm, UInt8.sub_add_cancel,
    UInt8.toNat_ofNat_of_lt' hbyte, Char.ofNat_toNat]

theorem toChar_injective : Function.Injective toChar := by
  intro a b h
  have hsome : ofChar? a.toChar = ofChar? b.toChar := congrArg ofChar? h
  simpa using hsome

end ReplyStatus

namespace NodeKind

/-- The kind that a character stands for. -/
def ofMarker? (c : Char) : Option NodeKind :=
  if c = 'D' then some directory else if c = 'F' then some file
  else if c = ' ' then some other else none

@[simp] theorem ofMarker?_marker (kind : NodeKind) : ofMarker? kind.marker = some kind := by
  cases kind <;> rfl

theorem marker_of_ofMarker? {c : Char} {kind : NodeKind} (h : ofMarker? c = some kind) :
    kind.marker = c := by
  unfold ofMarker? at h
  split at h
  · cases h; simp_all [marker]
  split at h
  · cases h; simp_all [marker]
  split at h
  · cases h; simp_all [marker]
  · cases h

/-- No kind is written as the mark that ends a listing. -/
theorem marker_ne_underscore (kind : NodeKind) : kind.marker ≠ '_' := by
  cases kind <;> decide

end NodeKind

/-! ## One message -/

namespace HostMessage

/-- What a message to the plugin reads as. -/
def reading : HostMessage → PluginMessage
  | key c => .stream .stdin (String.singleton c)
  | child kind name => .rpc (.list (String.singleton kind.marker ++ name))
  | listEnd status => .rpc (.list ("_" ++ String.singleton status.toChar))
  | statEnd status => .rpc (.stat (String.singleton status.toChar))

theorem isCanonical_reading (message : HostMessage) : message.reading.IsCanonical := by
  cases message <;> trivial

theorem print_reading (message : HostMessage) : message.reading.print = message.encode := by
  apply String.toList_injective
  cases message <;>
    simp [reading, encode, PluginMessage.print, StreamId.toChar, FileRequest.print,
      FileRequest.command, FileRequest.path]

theorem parse_encode (message : HostMessage) :
    PluginMessage.parse message.encode = .ok message.reading := by
  rw [← print_reading]
  exact PluginMessage.parse_print message.isCanonical_reading

/-- The message to the plugin that reads so. -/
def ofReading? : PluginMessage → Option HostMessage
  | .stream .stdin text =>
    match text.toList with
    | [c] => some (key c)
    | _ => none
  | .rpc (.list body) =>
    match body.toList with
    | '_' :: rest =>
      match rest with
      | [c] => (ReplyStatus.ofChar? c).map listEnd
      | _ => none
    | marker :: name => (NodeKind.ofMarker? marker).map (child · (String.ofList name))
    | [] => none
  | .rpc (.stat body) =>
    match body.toList with
    | [c] => (ReplyStatus.ofChar? c).map statEnd
    | _ => none
  | _ => none

theorem ofReading?_reading (message : HostMessage) : ofReading? message.reading = some message := by
  cases message with
  | key c => simp [reading, ofReading?]
  | child kind name => simp [reading, ofReading?, kind.marker_ne_underscore]
  | listEnd status => simp [reading, ofReading?]
  | statEnd status => simp [reading, ofReading?]

theorem reading_of_ofReading? {read : PluginMessage} {message : HostMessage}
    (h : ofReading? read = some message) : message.reading = read := by
  unfold ofReading? at h
  split at h
  · split at h
    · rename_i heq
      cases h
      simp [reading, ← String.toList_inj, heq]
    · cases h
  · split at h
    · rename_i heq
      split at h
      · obtain ⟨status, hstatus, rfl⟩ := Option.map_eq_some_iff.1 h
        simp [reading, ← String.toList_inj, heq, ReplyStatus.toChar_of_ofChar? hstatus]
      · cases h
    · rename_i heq
      obtain ⟨kind, hkind, rfl⟩ := Option.map_eq_some_iff.1 h
      simp [reading, ← String.toList_inj, heq, NodeKind.marker_of_ofMarker? hkind]
    · cases h
  · split at h
    · rename_i heq
      obtain ⟨status, hstatus, rfl⟩ := Option.map_eq_some_iff.1 h
      simp [reading, ← String.toList_inj, heq, ReplyStatus.toChar_of_ofChar? hstatus]
    · cases h
  · cases h

theorem reading_injective : Function.Injective reading := by
  intro a b h
  have hsome : ofReading? a.reading = ofReading? b.reading := congrArg ofReading? h
  simpa [ofReading?_reading] using hsome

/-- The message that a text carries. -/
def receive? (text : String) : Option HostMessage :=
  (PluginMessage.parse text).toOption.bind ofReading?

theorem receive?_encode (message : HostMessage) : receive? message.encode = some message := by
  rw [receive?, parse_encode]
  exact ofReading?_reading message

theorem receive?_eq_some_iff {text : String} {message : HostMessage} :
    receive? text = some message ↔ message.encode = text := by
  constructor
  · intro h
    obtain ⟨read, hread, hmessage⟩ := Option.bind_eq_some_iff.1 h
    have hparse : PluginMessage.parse text = .ok read := by
      cases hp : PluginMessage.parse text with
      | error err => simp [hp, Except.toOption] at hread
      | ok other => simpa [hp, Except.toOption] using hread
    rw [← print_reading, reading_of_ofReading? hmessage]
    exact PluginMessage.print_of_parse hparse
  · rintro rfl
    exact receive?_encode message

/-! ## A listing -/

/-- The texts of a listing: one for each child, then the end. -/
def listingPosts (children : List Child) (status : ReplyStatus) : List String :=
  children.map (fun item => (child item.kind item.name).encode) ++ [(listEnd status).encode]

/-- Takes a listing from the front of what was posted: its children, its status and the posts that
follow it. -/
def receiveListing? : List String → Option (List Child × ReplyStatus × List String)
  | [] => none
  | post :: posts =>
    match receive? post with
    | some (child kind name) =>
      (receiveListing? posts).map fun (children, listing) => (⟨name, kind⟩ :: children, listing)
    | some (listEnd status) => some ([], status, posts)
    | _ => none

theorem receiveListing?_listingPosts (children : List Child) (status : ReplyStatus)
    (rest : List String) :
    receiveListing? (listingPosts children status ++ rest) = some (children, status, rest) := by
  induction children with
  | nil => simp [listingPosts, receiveListing?, receive?_encode]
  | cons item children ih =>
    have hcons : listingPosts (item :: children) status ++ rest =
        (child item.kind item.name).encode :: (listingPosts children status ++ rest) := rfl
    rw [hcons, receiveListing?, receive?_encode, ih]
    rfl

theorem eq_of_receiveListing? {posts rest : List String} {children : List Child}
    {status : ReplyStatus} (h : receiveListing? posts = some (children, status, rest)) :
    posts = listingPosts children status ++ rest := by
  induction posts generalizing children with
  | nil => cases h
  | cons post posts ih =>
    rw [receiveListing?] at h
    split at h
    · rename_i kind name hpost
      obtain ⟨⟨others, listing⟩, hothers, heq⟩ := Option.map_eq_some_iff.1 h
      cases heq
      rw [ih hothers, ← receive?_eq_some_iff.1 hpost]
      rfl
    · rename_i hpost
      cases h
      rw [← receive?_eq_some_iff.1 hpost]
      rfl
    · cases h

theorem receiveListing?_eq_some_iff {posts rest : List String} {children : List Child}
    {status : ReplyStatus} :
    receiveListing? posts = some (children, status, rest) ↔
      posts = listingPosts children status ++ rest := by
  constructor
  · exact eq_of_receiveListing?
  · rintro rfl
    exact receiveListing?_listingPosts children status rest

/-- **The host's messages are unambiguous.**  Every message is read by the grammar of the plugin, as
`reading` says, and no two messages are read as the same or written the same, whatever names and
statuses they carry.  A child is never read as the end of a listing.  Out of the posts of a listing,
with anything behind them, the receiver takes exactly its children and its status, and it takes a
listing out of nothing else.  Two statuses never share a character. -/
theorem encode_unambiguous :
    (∀ message : HostMessage, PluginMessage.parse message.encode = .ok message.reading) ∧
    Function.Injective reading ∧
    Function.Injective encode ∧
    (∀ kind name status, (child kind name).reading ≠ (listEnd status).reading) ∧
    (∀ posts children status rest, receiveListing? posts = some (children, status, rest) ↔
      posts = listingPosts children status ++ rest) ∧
    Function.Injective ReplyStatus.toChar := by
  refine ⟨parse_encode, reading_injective, ?_, ?_, ?_, ReplyStatus.toChar_injective⟩
  · intro a b h
    have hsome : receive? a.encode = some b := receive?_eq_some_iff.2 h.symm
    simpa [receive?_encode] using hsome
  · intro kind name status h
    cases reading_injective h
  · intro posts children status rest
    exact receiveListing?_eq_some_iff

end HostMessage

end PluginBridge
