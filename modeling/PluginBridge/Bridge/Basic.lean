import PluginBridge.Bridge.Reply
import PluginBridge.Keyboard
import PluginBridge.LineBuffer
import PluginBridge.Wire.PluginMessage

/-!
# The bridge

A bridge stands between a plugin and the page around it.  It holds the unfinished lines of the
plugin's two output streams and the storage from which requests are answered; without a storage
every request fails at once.

* Complete lines of the standard output go to the console as warnings, those of the error stream
  as errors.
* A message that fits no form is reported to the console and dropped.
* A request with a storage becomes a task for the caller to poll.
-/

namespace PluginBridge

/-- The state of a bridge. -/
structure Bridge (ω : Type) where
  storage : Option (Storage ω) := none
  /-- Are requests and their failures shown on the console? -/
  traced : Bool := true
  stdout : LineBuffer := .empty
  stderr : LineBuffer := .empty

/-- What a message does: the bridge afterwards, the effects at once and the work that is left. -/
structure Reaction (ω : Type) where
  bridge : Bridge ω
  effects : List Effect := []
  task : Option (Task ω) := none

namespace Bridge

variable {ω : Type}

/-- Can requests succeed at all? -/
def hasStorage (bridge : Bridge ω) : Bool := bridge.storage.isSome

/-! ## Streams -/

/-- Text on the standard output. -/
def writeStdout (bridge : Bridge ω) (text : String) : Bridge ω × List Effect :=
  let (buffer, lines) := bridge.stdout.push text
  ({ bridge with stdout := buffer }, lines.map (.console .warn))

/-- Text on the error stream. -/
def writeStderr (bridge : Bridge ω) (text : String) : Bridge ω × List Effect :=
  let (buffer, lines) := bridge.stderr.push text
  ({ bridge with stderr := buffer }, lines.map (.console .error))

/-- A chunk of a stream.  What comes on any other stream is logged with its character. -/
def receive (bridge : Bridge ω) (id : StreamId) (text : String) : Bridge ω × List Effect :=
  match id with
  | .stdout => bridge.writeStdout text
  | .stderr => bridge.writeStderr text
  | other => (bridge, [.console .log s!"port {other.toChar}: {text}"])

/-! ## Messages -/

/-- The console line about a message that is dropped. -/
def report (data : String) : MessageError → String
  | err@(.unknownRpc _) => err.message
  | err@.missingCommand | err@(.unknownCommand _) => s!"unknown RPC: {data} ({err.message})"
  | err => s!"unknown message: {data} ({err.message})"

/-- A request: it is announced, and answered at once if there is no storage. -/
def dispatch (bridge : Bridge ω) (request : FileRequest) : Reaction ω :=
  let announced : List Effect :=
    .trace (.rpcRequest request) ::
      if bridge.traced then [.console .info request.announcement] else []
  match bridge.storage with
  | none => { bridge, effects := announced ++ request.close bridge.traced .failed }
  | some held =>
    { bridge, effects := announced, task := some (request.task bridge.traced held) }

/-- One message of the plugin.  The empty message is nothing at all. -/
def onMessage (bridge : Bridge ω) (data : String) : Reaction ω :=
  if data = "" then { bridge }
  else match PluginMessage.parse data with
  | .ok (.errorLog text) => { bridge, effects := [.console .log text] }
  | .ok (.stream id text) =>
    let (bridge, effects) := bridge.receive id text
    { bridge, effects }
  | .ok (.rpc request) => bridge.dispatch request
  | .error err =>
    { bridge, effects := [.trace (.messageDropped data err), .console .error (report data err)] }

/-! ## Keys -/

/-- A key press: its character, if it has one, goes to the plugin. -/
def keyPress (code : UInt32) : List Effect :=
  (Keyboard.press code).toList.map .post

/-- A key going down, and what the page does with it. -/
def keyDown (code : UInt32) : List Effect × KeyHandling :=
  let (key, handling) := Keyboard.down code
  (key.toList.map .post, handling)

/-- A key going up sends nothing. -/
def keyUp : KeyHandling := Keyboard.up

end Bridge

end PluginBridge
