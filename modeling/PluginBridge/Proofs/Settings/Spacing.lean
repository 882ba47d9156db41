import Mathlib.Data.List.TakeWhile
import PluginBridge.Settings.Fault

/-!
# Blanks between the parts of a text

A configuration text is made of parts with any blanks before, between and behind them.  `Spaced`
says which parts a text is made of, and `Spaced.skipBlanks_cons` that skipping blanks leads to the
next part.
-/

namespace PluginBridge.Settings

/-- A text of some parts in order, with any blanks before each and at the end. -/
inductive Spaced : List (List Char) → List Char → Prop where
  | nil {blanks : List Char} (hblanks : ∀ c ∈ blanks, isBlank c) : Spaced [] blanks
  | cons {blanks part rest : List Char} {parts : List (List Char)}
      (hblanks : ∀ c ∈ blanks, isBlank c) (hrest : Spaced parts rest) :
      Spaced (part :: parts) (blanks ++ (part ++ rest))

/-- A part can be told from the blanks before it. -/
def StartsPart (part : List Char) : Prop :=
  ∃ c rest, part = c :: rest ∧ isBlank c = false

theorem startsPart_cons {c : Char} {rest : List Char} (h : isBlank c = false) :
    StartsPart (c :: rest) :=
  ⟨c, rest, rfl, h⟩

theorem skipBlanks_append {blanks : List Char} (h : ∀ c ∈ blanks, isBlank c) (text : List Char) :
    skipBlanks (blanks ++ text) = skipBlanks text :=
  List.dropWhile_append_of_pos h

theorem skipBlanks_of_startsPart {part : List Char} (h : StartsPart part) (text : List Char) :
    skipBlanks (part ++ text) = part ++ text := by
  obtain ⟨c, rest, rfl, hc⟩ := h
  rw [List.cons_append, skipBlanks, List.dropWhile_cons_of_neg (by simp [hc])]

/-- No blanks need to stand before a part. -/
theorem Spaced.next {rest : List Char} {parts : List (List Char)} (h : Spaced parts rest)
    (part : List Char) : Spaced (part :: parts) (part ++ rest) :=
  .cons (fun _ hc => absurd hc List.not_mem_nil) h

theorem spaced_flatten (parts : List (List Char)) : Spaced parts parts.flatten := by
  induction parts with
  | nil => exact .nil fun _ hc => absurd hc List.not_mem_nil
  | cons part parts ih => exact ih.next part

theorem Spaced.skipBlanks_nil {text : List Char} (h : Spaced [] text) : skipBlanks text = [] := by
  cases h with
  | nil hblanks => exact List.dropWhile_eq_nil_iff.2 hblanks

/-- **The next part** stands behind the blanks. -/
theorem Spaced.skipBlanks_cons {part : List Char} {parts : List (List Char)} {text : List Char}
    (h : Spaced (part :: parts) text) (hpart : StartsPart part) :
    ∃ rest, skipBlanks text = part ++ rest ∧ part ++ rest <:+ text ∧ Spaced parts rest := by
  cases h with
  | @cons blanks _ rest _ hblanks hrest =>
    refine ⟨rest, ?_, List.suffix_append blanks _, hrest⟩
    rw [skipBlanks_append hblanks, skipBlanks_of_startsPart hpart]

/-- What stands directly behind a part is a blank or the next one. -/
theorem Spaced.head_cases {c d : Char} {part rest : List Char} {parts : List (List Char)}
    (h : Spaced ((c :: part) :: parts) (d :: rest)) : isBlank d ∨ d = c := by
  generalize htext : d :: rest = text at h
  cases h with
  | @cons blanks _ _ _ hblanks hrest =>
    cases blanks with
    | nil =>
      cases htext
      exact .inr rfl
    | cons blank blanks =>
      cases htext
      exact .inl (hblanks d List.mem_cons_self)

end PluginBridge.Settings
