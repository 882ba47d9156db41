/-!
# Ranges of code points

A Unicode property is a list of closed ranges.
-/

namespace PluginBridge.Text

/-- A closed range of code points, first and last. -/
abbrev CodeRange := Nat × Nat

/-- Is `code` in one of the ranges? -/
def covers (ranges : List CodeRange) (code : Nat) : Bool :=
  ranges.any fun range => range.1 ≤ code && code ≤ range.2

end PluginBridge.Text
