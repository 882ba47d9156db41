/-!
# Kinds of directory entries
-/

namespace PluginBridge

/-- What a child of a directory is. -/
inductive NodeKind where
  | directory
  | file
  /-- Anything that is neither a directory nor a regular file. -/
  | other
  deriving DecidableEq, Repr, Inhabited

/-- The character that stands for a kind on the wire. -/
def NodeKind.marker : NodeKind → Char
  | .directory => 'D'
  | .file => 'F'
  | .other => ' '

end PluginBridge
