import PluginBridge.Wire.HostMessage

/-!
# Keyboard events

Printable keys arrive as key presses.  Backspace never does, so its key down sends the keystroke
and keeps the page from acting on it.
-/

namespace PluginBridge

/-- What the page does with an event after the bridge has seen it. -/
inductive KeyHandling where
  /-- The page goes on with its own handling. -/
  | passOn
  /-- The page must not handle the event. -/
  | suppress
  deriving DecidableEq, Repr, Inhabited

/-- Does the page go on with its own handling? -/
def KeyHandling.allowsDefault (handling : KeyHandling) : Bool :=
  handling = .passOn

namespace Keyboard

/-- The key code of backspace, which is also its character. -/
def backspace : UInt32 := 8

/-- The keystroke of a character code; a code that is no Unicode scalar value has none. -/
def press (code : UInt32) : Option HostMessage :=
  if h : code.isValidChar then some (.key ⟨code, h⟩) else none

/-- The keystroke of a key going down, and what the page does with it. -/
def down (code : UInt32) : Option HostMessage × KeyHandling :=
  if code = backspace then (press code, .suppress) else (none, .passOn)

/-- A key going up sends nothing and never reaches the page. -/
def up : KeyHandling := .suppress

end Keyboard

end PluginBridge
