import PluginBridge.NodeKind

/-!
# Messages to the plugin

A keystroke goes to the standard input, `S0` and the character.  Replies repeat the header of
their request: a listing is one `X5D` message per child, the kind's marker before the name, and
ends with `X5D_` and a status; a stat is answered by `X5S` and a status.
-/

namespace PluginBridge

/-- The result code of a request. -/
structure ReplyStatus where
  code : Int8
  deriving DecidableEq, Repr, Inhabited

namespace ReplyStatus

/-- The request succeeded. -/
def ok : ReplyStatus := ⟨0⟩

/-- The request failed. -/
def failed : ReplyStatus := ⟨-1⟩

/-- The status of a computation that may fail: only success counts. -/
def ofExcept {ε α : Type} : Except ε α → ReplyStatus
  | .ok _ => ok
  | .error _ => failed

/-- Is the code that of success? -/
def isOk (status : ReplyStatus) : Bool := status.code = 0

/-- The plugin subtracts `'0'` from the status character, so the code is added to it: success is
`'0'` and failure the character before, `'/'`.  The sum stays within one byte. -/
def toChar (status : ReplyStatus) : Char :=
  Char.ofNat (0x30 + status.code.toUInt8).toNat

end ReplyStatus

/-- A message sent to the plugin. -/
inductive HostMessage where
  /-- One keystroke for the plugin's standard input. -/
  | key (key : Char)
  /-- One child of the directory being listed. -/
  | child (kind : NodeKind) (name : String)
  /-- The end of a listing. -/
  | listEnd (status : ReplyStatus)
  /-- The answer to a stat request. -/
  | statEnd (status : ReplyStatus)
  deriving DecidableEq, Repr, Inhabited

/-- The text that is posted for a message. -/
def HostMessage.encode : HostMessage → String
  | key c => String.ofList ['S', '0', c]
  | child kind name => String.ofList ('X' :: '5' :: 'D' :: kind.marker :: name.toList)
  | listEnd status => String.ofList ['X', '5', 'D', '_', status.toChar]
  | statEnd status => String.ofList ['X', '5', 'S', status.toChar]

end PluginBridge
