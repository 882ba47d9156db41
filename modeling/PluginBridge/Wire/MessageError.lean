import PluginBridge.Text.Quoted

/-!
# Why a message is rejected

A plugin message that fits no form of the grammar is rejected with exactly one cause.  The causes
carry the part of the message that they are about; `message` is their wording.
-/

namespace PluginBridge

/-- The reason why a text is no plugin message. -/
inductive MessageError where
  /-- There is no tag character. -/
  | empty
  /-- The first character is no tag. -/
  | unknownTag (tag : Char)
  /-- A stream chunk ends before the character of its stream. -/
  | missingStreamId
  /-- A request body does not begin with the protocol version. -/
  | unknownRpc (body : String)
  /-- A request body ends after the protocol version. -/
  | missingCommand
  /-- The command character names no request. -/
  | unknownCommand (command : Char)
  deriving DecidableEq, Repr, Inhabited

/-- The wording of a rejection. -/
def MessageError.message : MessageError → String
  | .empty => "empty message"
  | .unknownTag tag => "unknown message tag " ++ Text.quotedChar tag
  | .missingStreamId => "stream message without a port id"
  | .unknownRpc body => "unknown RPC: X" ++ body
  | .missingCommand => "RPC request without a command"
  | .unknownCommand command => "unknown RPC command " ++ Text.quotedChar command

end PluginBridge
