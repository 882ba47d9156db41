import PluginBridge.Text.Split

/-!
# Line buffers

A stream arrives in arbitrary chunks.  A buffer releases every line that a chunk completes and
keeps the unfinished rest, which by its type holds no line break.
-/

namespace PluginBridge

/-- The text of a stream since its last line break. -/
structure LineBuffer where
  pending : String := ""
  unbroken : '\n' ∉ pending.toList := by decide
  deriving DecidableEq

namespace LineBuffer

/-- The buffer of a stream that has not begun. -/
def empty : LineBuffer := {}

instance : Inhabited LineBuffer := ⟨empty⟩

@[ext] theorem ext {a b : LineBuffer} (h : a.pending = b.pending) : a = b := by
  cases a; cases b; simp_all

/-- Appends a chunk.  Everything up to the last line break is released, cut at the breaks; text
without a break releases nothing.  What is after the last break waits for its own. -/
def push (buffer : LineBuffer) (chunk : String) : LineBuffer × List String :=
  match h : Text.splitAtLast '\n' (buffer.pending ++ chunk).toList with
  | none =>
    ({ pending := buffer.pending ++ chunk, unbroken := Text.splitAtLast_eq_none_iff.1 h }, [])
  | some (before, after) =>
    ({ pending := String.ofList after
       unbroken := by
         rw [String.toList_ofList]
         exact (Text.splitAtLast_eq_some_iff.1 h).2 },
     (before.splitOn '\n').map String.ofList)

end LineBuffer

end PluginBridge
