import PluginBridge.Storage.Basic
import PluginBridge.Wire.Request

/-!
# Trace events

What the library reports to whoever observes it, apart from the console.  `TraceEvent` lists the
events by meaning; `level`, `target`, `message` and `fields` are the record that an observer sees.
-/

namespace PluginBridge

/-- The four methods of a console. -/
inductive ConsoleLevel where
  | log
  | info
  | warn
  | error
  deriving DecidableEq, Repr, Inhabited

/-- The severity of an event. -/
inductive TraceLevel where
  | debug
  | info
  | warn
  | error
  deriving DecidableEq, Repr, Inhabited

/-- Something that an observer is told. -/
inductive TraceEvent where
  /-- A request is about to be handled. -/
  | rpcRequest (request : FileRequest)
  /-- A directory, named as in the request, could not be listed. -/
  | listingFailed (path : String) (error : StorageError)
  /-- A path, spelled as in the request, could not be resolved to a directory. -/
  | statFailed (path : String) (error : StorageError)
  /-- A message fits no form of the grammar. -/
  | messageDropped (data : String) (error : MessageError)
  /-- A write was refused for want of space. -/
  | quotaExceeded (path : String) (wanted : Nat) (quota : UInt64)
  /-- The private storage of the browser was acquired. -/
  | storageAcquired (quota : UInt64)
  /-- A bridge was given its filesystem. -/
  | storageReady (quota : UInt64)
  /-- All listeners of an event target are registered. -/
  | listenersAttached
  /-- A console line, where the console is the trace itself. -/
  | console (level : ConsoleLevel) (text : String)
  deriving DecidableEq, Repr

namespace TraceEvent

/-- Plain log lines have no severity of their own and count as information. -/
def level : TraceEvent → TraceLevel
  | quotaExceeded .. => .warn
  | console .log _ => .info
  | console .info _ => .info
  | console .warn _ => .warn
  | console .error _ => .error
  | _ => .debug

/-- The part of the program that an event comes from. -/
def target : TraceEvent → String
  | rpcRequest _ | listingFailed .. | statFailed .. => "naclfs_bridge::rpc"
  | messageDropped .. => "naclfs_bridge::bridge"
  | quotaExceeded .. => "naclfs_vfs::memory"
  | storageAcquired _ => "naclfs_vfs::opfs"
  | storageReady _ => "naclfs_ui"
  | listenersAttached => "naclfs_ui::listeners"
  | console .. => "naclfs::console"

/-- The text of an event. -/
def message : TraceEvent → String
  | rpcRequest _ => "rpc request"
  | listingFailed .. => "directory list failed"
  | statFailed .. => "stat failed"
  | messageDropped .. => "dropping plugin message"
  | quotaExceeded .. => "memory fs quota exceeded"
  | storageAcquired _ => "acquired OPFS root"
  | storageReady _ => "sandboxed filesystem acquired"
  | listenersAttached => "listeners attached"
  | console _ text => text

/-- The named values of an event, in order.  Only a dropped message is quoted. -/
def fields : TraceEvent → List (String × String)
  | rpcRequest request =>
    [("command", String.singleton request.command), ("path", request.path)]
  | listingFailed path error | statFailed path error =>
    [("path", path), ("error", error.message)]
  | messageDropped data error =>
    [("data", Text.quotedString data), ("error", error.message)]
  | quotaExceeded path wanted quota =>
    [("path", path), ("wanted", toString wanted), ("quota", toString quota)]
  | storageAcquired quota | storageReady quota => [("quota", toString quota)]
  | listenersAttached | console .. => []

end TraceEvent

/-- The events that a refusal of the storage in memory gives rise to. -/
def StorageError.events : StorageError → List TraceEvent
  | .quotaExceeded path wanted quota => [.quotaExceeded path wanted quota]
  | _ => []

end PluginBridge
