/-!
# Tables in key order

A table maps texts to values and lists its entries in strictly increasing key order, so that a
table has one representation and a stretch of neighbouring keys is a stretch of the list.  Texts
are ordered by code points.

* `get?_insert` and `get?_erase` say what the two changes do to every key,
* `mem_entries_iff` ties the list to the lookup, and
* `ext_get?` says that a table is determined by its lookups.
-/

namespace PluginBridge

/-! ## Sorted association lists -/

namespace SortedList

variable {β : Type}

/-- The entry of a key. -/
def get? (key : String) : List (String × β) → Option β
  | [] => none
  | (k, value) :: rest => if k = key then some value else get? key rest

/-- Adds an entry in its place, or replaces the one with its key. -/
def insert (key : String) (value : β) : List (String × β) → List (String × β)
  | [] => [(key, value)]
  | (k, v) :: rest =>
    if key < k then (key, value) :: (k, v) :: rest
    else if key = k then (key, value) :: rest
    else (k, v) :: insert key value rest

/-- Strictly increasing keys. -/
abbrev Sorted (entries : List (String × β)) : Prop :=
  entries.Pairwise fun a b => a.1 < b.1

theorem lt_of_not_lt_of_ne {a b : String} (h : ¬a < b) (hne : a ≠ b) : b < a :=
  String.not_le.1 fun hle => hne (String.le_antisymm hle (String.not_lt.1 h))

theorem mem_insert {key : String} {value : β} {e : String × β} {entries : List (String × β)}
    (h : e ∈ insert key value entries) : e = (key, value) ∨ e ∈ entries := by
  induction entries with
  | nil => simpa [insert] using h
  | cons head rest ih =>
    obtain ⟨k, v⟩ := head
    rw [insert] at h
    split at h
    · exact List.mem_cons.1 h
    split at h
    · exact (List.mem_cons.1 h).imp_right (List.mem_cons_of_mem _)
    · rcases List.mem_cons.1 h with rfl | h
      · exact .inr (List.mem_cons_self ..)
      · exact (ih h).imp_right (List.mem_cons_of_mem _)

theorem Sorted.insert {key : String} {value : β} {entries : List (String × β)}
    (h : Sorted entries) : Sorted (insert key value entries) := by
  induction entries with
  | nil => simp [SortedList.insert]
  | cons head rest ih =>
    obtain ⟨k, v⟩ := head
    have ⟨hk, hrest⟩ := List.pairwise_cons.1 h
    rw [SortedList.insert]
    split
    · rename_i hlt
      refine List.pairwise_cons.2 ⟨fun e he => ?_, h⟩
      rcases List.mem_cons.1 he with rfl | he
      · exact hlt
      · exact String.lt_trans hlt (hk e he)
    split
    · rename_i heq
      exact List.pairwise_cons.2 ⟨heq ▸ hk, hrest⟩
    · rename_i hnlt hne
      refine List.pairwise_cons.2 ⟨fun e he => ?_, ih hrest⟩
      rcases mem_insert he with rfl | he
      · exact lt_of_not_lt_of_ne hnlt hne
      · exact hk e he

theorem get?_insert (key k : String) (value : β) {entries : List (String × β)}
    (h : Sorted entries) :
    get? k (insert key value entries) = if key = k then some value else get? k entries := by
  induction entries with
  | nil => simp [insert, get?]
  | cons head rest ih =>
    obtain ⟨k', v⟩ := head
    have ih := ih (List.pairwise_cons.1 h).2
    rw [insert]
    split
    · simp [get?]
    split
    · rename_i heq
      subst heq
      simp only [get?]
      split <;> rfl
    · rename_i hnlt hne
      simp only [get?, ih]
      split
      · rename_i heq
        subst heq
        simp [hne]
      · rfl

theorem get?_eq_none {key : String} {entries : List (String × β)}
    (h : ∀ e ∈ entries, e.1 ≠ key) : get? key entries = none := by
  induction entries with
  | nil => rfl
  | cons head rest ih =>
    rw [get?, if_neg (h head (List.mem_cons_self ..))]
    exact ih fun e he => h e (List.mem_cons_of_mem _ he)

theorem get?_filter (key k : String) {entries : List (String × β)} :
    get? k (entries.filter fun e => e.1 ≠ key) = if key = k then none else get? k entries := by
  induction entries with
  | nil => simp [get?]
  | cons head rest ih =>
    obtain ⟨k', v⟩ := head
    simp only [List.filter_cons, decide_eq_true_eq]
    by_cases hk : k' = key
    · subst hk
      simp only [ne_eq, not_true_eq_false, if_false, ih, get?]
      split <;> rfl
    · simp only [ne_eq, hk, not_false_eq_true, if_true, get?, ih]
      by_cases heq : k' = k
      · subst heq
        simp [Ne.symm hk]
      · simp [heq]

theorem get?_eq_some_iff {key : String} {value : β} {entries : List (String × β)}
    (h : Sorted entries) : get? key entries = some value ↔ (key, value) ∈ entries := by
  induction entries with
  | nil => simp [get?]
  | cons head rest ih =>
    obtain ⟨k, v⟩ := head
    have ⟨hk, hrest⟩ := List.pairwise_cons.1 h
    rw [get?, List.mem_cons]
    split
    · rename_i heq
      subst heq
      constructor
      · intro hv
        injection hv with hv
        exact .inl (by rw [hv])
      · rintro (hv | hv)
        · rw [Prod.mk.injEq] at hv
          rw [hv.2]
        · exact absurd (hk _ hv) (String.lt_irrefl _)
    · rename_i hne
      rw [ih hrest]
      constructor
      · exact .inr
      · rintro (hv | hv)
        · rw [Prod.mk.injEq] at hv
          exact absurd hv.1.symm hne
        · exact hv

theorem ext_get? {a b : List (String × β)} (ha : Sorted a) (hb : Sorted b)
    (h : ∀ key, get? key a = get? key b) : a = b := by
  induction a generalizing b with
  | nil =>
    cases b with
    | nil => rfl
    | cons head rest => simpa [get?] using h head.1
  | cons x xs ih =>
    cases b with
    | nil => simpa [get?] using h x.1
    | cons y ys =>
      obtain ⟨kx, vx⟩ := x
      obtain ⟨ky, vy⟩ := y
      have ⟨hx, hxs⟩ := List.pairwise_cons.1 ha
      have ⟨hy, hys⟩ := List.pairwise_cons.1 hb
      have hkey : kx = ky := by
        have mem_x : (kx, vx) ∈ (ky, vy) :: ys :=
          (get?_eq_some_iff hb).1 (h kx ▸ (get?_eq_some_iff ha).2 (List.mem_cons_self ..))
        have mem_y : (ky, vy) ∈ (kx, vx) :: xs :=
          (get?_eq_some_iff ha).1 ((h ky).symm ▸ (get?_eq_some_iff hb).2 (List.mem_cons_self ..))
        rcases List.mem_cons.1 mem_x with he | hmx
        · exact (Prod.mk.injEq .. ▸ he).1
        rcases List.mem_cons.1 mem_y with he | hmy
        · exact (Prod.mk.injEq .. ▸ he).1.symm
        exact absurd (String.lt_trans (hy _ hmx) (hx _ hmy)) (String.lt_irrefl _)
      subst hkey
      have hval : vx = vy := by simpa [get?] using h kx
      subst hval
      congr 1
      refine ih hxs hys fun key => ?_
      by_cases hk : kx = key
      · subst hk
        rw [get?_eq_none fun e he => fun heq => absurd (heq ▸ hx e he) (String.lt_irrefl _),
          get?_eq_none fun e he => fun heq => absurd (heq ▸ hy e he) (String.lt_irrefl _)]
      · simpa [get?, hk] using h key

end SortedList

/-! ## Tables -/

/-- A map from texts, its entries in strictly increasing key order. -/
structure Table (β : Type) where
  entries : List (String × β)
  sorted : SortedList.Sorted entries

namespace Table

variable {β : Type}

theorem entries_injective {a b : Table β} (h : a.entries = b.entries) : a = b := by
  cases a; cases b; simp_all

instance [DecidableEq β] : DecidableEq (Table β) := fun a b =>
  decidable_of_iff (a.entries = b.entries) ⟨entries_injective, fun h => h ▸ rfl⟩

/-- The table without entries. -/
def empty : Table β := ⟨[], .nil⟩

instance : Inhabited (Table β) := ⟨empty⟩

/-- The value of a key. -/
def get? (table : Table β) (key : String) : Option β :=
  SortedList.get? key table.entries

/-- Sets the value of a key. -/
def insert (table : Table β) (key : String) (value : β) : Table β :=
  ⟨SortedList.insert key value table.entries, table.sorted.insert⟩

/-- Removes a key. -/
def erase (table : Table β) (key : String) : Table β :=
  ⟨table.entries.filter fun e => e.1 ≠ key, table.sorted.filter _⟩

/-- The entries from `key` on, in key order. -/
def entriesFrom (table : Table β) (key : String) : List (String × β) :=
  table.entries.dropWhile fun e => e.1 < key

/-- The stretch of entries from the text `start` on whose keys begin with it. -/
def entriesUnder (table : Table β) (start : String) : List (String × β) :=
  (table.entriesFrom start).takeWhile fun e => start.toList.isPrefixOf e.1.toList

theorem get?_insert (table : Table β) (key k : String) (value : β) :
    (table.insert key value).get? k = if key = k then some value else table.get? k :=
  SortedList.get?_insert key k value table.sorted

theorem get?_erase (table : Table β) (key k : String) :
    (table.erase key).get? k = if key = k then none else table.get? k :=
  SortedList.get?_filter key k

theorem mem_entries_iff {table : Table β} {key : String} {value : β} :
    (key, value) ∈ table.entries ↔ table.get? key = some value :=
  (SortedList.get?_eq_some_iff table.sorted).symm

theorem ext_get? {a b : Table β} (h : ∀ key, a.get? key = b.get? key) : a = b :=
  entries_injective (SortedList.ext_get? a.sorted b.sorted h)

end Table

end PluginBridge
