import PluginBridge.Storage.Table

/-!
# Stretches of a table

The keys that begin with a text are neighbours in key order, and the first of them is the first key
that is not below the text.  So the stretch that starts there and ends with the first other key is
all of them: `entriesUnder_eq_filter`.
-/

namespace PluginBridge

/-! ## Texts that begin with a text -/

/-- A text between `start` and a text that begins with `start` begins with it too. -/
theorem isPrefix_of_not_lt_of_lt_append {start text more : List Char} (hge : ¬text < start)
    (hlt : text < start ++ more) : start <+: text := by
  induction start generalizing text with
  | nil => exact List.nil_prefix
  | cons c start ih =>
    cases text with
    | nil => exact absurd (List.nil_lt_cons c start) hge
    | cons d text =>
      rcases List.cons_lt_cons_iff.1 hlt with hdc | ⟨rfl, hrest⟩
      · exact absurd (List.cons_lt_cons_iff.2 (.inl hdc)) hge
      · have hge' : ¬text < start := fun h => hge (List.cons_lt_cons_iff.2 (.inr ⟨rfl, h⟩))
        exact List.cons_prefix_cons.2 ⟨rfl, ih hge' hrest⟩

namespace SortedList

variable {β : Type}

/-! ## Cutting a sorted list -/

/-- The test for the keys that begin with a text. -/
def isUnder (start : String) (e : String × β) : Bool :=
  start.toList.isPrefixOf e.1.toList

theorem isUnder_iff {start : String} {e : String × β} :
    isUnder start e = true ↔ start.toList <+: e.1.toList :=
  List.isPrefixOf_iff_prefix

/-- No key that begins with a text is below it. -/
theorem not_lt_of_isUnder {start : String} {e : String × β} (h : isUnder start e = true) :
    ¬e.1 < start := by
  rw [String.lt_iff]
  exact List.not_lt.2 (isUnder_iff.1 h).le

/-- Beyond the first key that is not below the text and does not begin with it, none does. -/
theorem not_isUnder_of_lt {start : String} {a b : String × β} (hstart : ¬a.1 < start)
    (ha : isUnder start a ≠ true) (hab : a.1 < b.1) : isUnder start b ≠ true := by
  intro hb
  obtain ⟨more, hmore⟩ := isUnder_iff.1 hb
  rw [String.lt_iff] at hstart hab
  rw [← hmore] at hab
  exact ha (isUnder_iff.2 (isPrefix_of_not_lt_of_lt_append hstart hab))

theorem takeWhile_isUnder {start : String} {entries : List (String × β)} (h : Sorted entries)
    (hge : ∀ e ∈ entries, ¬e.1 < start) :
    entries.takeWhile (isUnder start) = entries.filter (isUnder start) := by
  induction entries with
  | nil => rfl
  | cons head rest ih =>
    have ⟨hhead, hrest⟩ := List.pairwise_cons.1 h
    by_cases hu : isUnder start head = true
    · rw [List.takeWhile_cons_of_pos hu, List.filter_cons_of_pos hu,
        ih hrest fun e he => hge e (List.mem_cons_of_mem _ he)]
    · rw [List.takeWhile_cons_of_neg hu, List.filter_cons_of_neg hu, List.filter_eq_nil_iff.2]
      intro e he
      exact not_isUnder_of_lt (hge head (List.mem_cons_self ..)) hu (hhead e he)

theorem takeWhile_dropWhile_isUnder {start : String} {entries : List (String × β)}
    (h : Sorted entries) :
    (entries.dropWhile fun e => e.1 < start).takeWhile (isUnder start) =
      entries.filter (isUnder start) := by
  induction entries with
  | nil => rfl
  | cons head rest ih =>
    have ⟨hhead, hrest⟩ := List.pairwise_cons.1 h
    by_cases hlt : head.1 < start
    · have hu : ¬isUnder start head = true := fun hu => not_lt_of_isUnder hu hlt
      rw [List.dropWhile_cons_of_pos (by simpa using hlt), ih hrest, List.filter_cons_of_neg hu]
    · rw [List.dropWhile_cons_of_neg (by simpa using hlt)]
      apply takeWhile_isUnder h
      intro e he
      rcases List.mem_cons.1 he with rfl | he
      · exact hlt
      · exact fun hlt' => hlt (String.lt_trans (hhead e he) hlt')

end SortedList

namespace Table

variable {β : Type}

/-- The entries under a text are exactly those whose keys begin with it. -/
theorem entriesUnder_eq_filter (table : Table β) (start : String) :
    table.entriesUnder start = table.entries.filter (SortedList.isUnder start) :=
  SortedList.takeWhile_dropWhile_isUnder table.sorted

theorem mem_entriesUnder_iff {table : Table β} {start key : String} {value : β} :
    (key, value) ∈ table.entriesUnder start ↔
      table.get? key = some value ∧ start.toList <+: key.toList := by
  rw [entriesUnder_eq_filter, List.mem_filter, mem_entries_iff, SortedList.isUnder_iff]

end Table

end PluginBridge
