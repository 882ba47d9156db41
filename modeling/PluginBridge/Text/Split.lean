/-!
# Splitting at a character

`List.splitOn` cuts a text at every occurrence of a separator, `splitAtLast` only at the last one.
No piece of the first cut holds the separator (`notMem_of_mem_splitOn`), nor does what the second
one leaves after it (`splitAtLast_eq_some_iff`).
-/

namespace PluginBridge.Text

theorem notMem_of_mem_splitOn {sep : Char} {text piece : List Char}
    (h : piece ∈ text.splitOn sep) : sep ∉ piece := by
  induction text generalizing piece with
  | nil =>
    rw [List.splitOn_nil, List.mem_singleton] at h
    simp [h]
  | cons c rest ih =>
    rw [List.splitOn_cons_eq_if_modifyHead] at h
    split at h
    · rcases List.mem_cons.1 h with rfl | h
      · simp
      · exact ih h
    · rename_i hc
      obtain ⟨head, tail, hs⟩ := List.exists_cons_of_ne_nil (List.splitOn_ne_nil sep rest)
      rw [hs, List.modifyHead_cons] at h
      rcases List.mem_cons.1 h with rfl | h
      · have hhead := ih (hs ▸ List.mem_cons_self ..)
        intro hmem
        rcases List.mem_cons.1 hmem with rfl | hmem
        · simp at hc
        · exact hhead hmem
      · exact ih (hs ▸ List.mem_cons_of_mem _ h)

/-- What stands before the last separator of a text and what stands after it, if there is one. -/
def splitAtLast (sep : Char) : List Char → Option (List Char × List Char)
  | [] => none
  | c :: rest =>
    match splitAtLast sep rest with
    | some (before, after) => some (c :: before, after)
    | none => if c = sep then some ([], rest) else none

theorem splitAtLast_eq_none_iff {sep : Char} {text : List Char} :
    splitAtLast sep text = none ↔ sep ∉ text := by
  induction text with
  | nil => simp [splitAtLast]
  | cons c rest ih =>
    rw [splitAtLast, List.mem_cons]
    cases hrest : splitAtLast sep rest with
    | none => simp [ih.1 hrest, eq_comm]
    | some cut =>
      have hmem : sep ∈ rest := Decidable.not_not.1 fun hnot => by simp [ih.2 hnot] at hrest
      simp [hmem]

theorem splitAtLast_append {sep : Char} {after : List Char} (h : sep ∉ after)
    (before : List Char) : splitAtLast sep (before ++ sep :: after) = some (before, after) := by
  induction before with
  | nil => rw [List.nil_append, splitAtLast, splitAtLast_eq_none_iff.2 h, if_pos rfl]
  | cons c before ih => rw [List.cons_append, splitAtLast, ih]

theorem splitAtLast_eq_some_iff {sep : Char} {text before after : List Char} :
    splitAtLast sep text = some (before, after) ↔ text = before ++ sep :: after ∧ sep ∉ after := by
  constructor
  · intro h
    induction text generalizing before with
    | nil => cases h
    | cons c rest ih =>
      rw [splitAtLast] at h
      cases hrest : splitAtLast sep rest with
      | none =>
        rw [hrest] at h
        by_cases hc : c = sep
        · simp only [hc, if_true, Option.some.injEq, Prod.mk.injEq] at h
          obtain ⟨rfl, rfl⟩ := h
          exact ⟨by rw [hc, List.nil_append], splitAtLast_eq_none_iff.1 hrest⟩
        · simp [hc] at h
      | some cut =>
        rw [hrest] at h
        obtain ⟨front, back⟩ := cut
        simp only [Option.some.injEq, Prod.mk.injEq] at h
        obtain ⟨rfl, rfl⟩ := h
        obtain ⟨rfl, hback⟩ := ih hrest
        exact ⟨rfl, hback⟩
  · rintro ⟨rfl, hafter⟩
    exact splitAtLast_append hafter before

end PluginBridge.Text
