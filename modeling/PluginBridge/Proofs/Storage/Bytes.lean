import Mathlib.Algebra.Ring.Nat
import PluginBridge.Storage.FileTree

/-!
# Bytes that are held

The bytes of a tree are the sum of the sizes in its table.  `held_eq` splits that sum at one key,
`held_insert` says what a new value there makes of it, `bytesHeld_eq_sum_keys` takes it over the
keys, and `held_ensureDirectories` says that the directories on the way to a path cost nothing.
-/

namespace PluginBridge

/-! ## Sums over a table -/

/-- The bytes that the files of a table hold together. -/
def held (entries : Table Node) : Nat :=
  (entries.entries.map fun e => e.2.size).sum

/-- The bytes that are held at one key: none where nothing is, or no file. -/
def heldAt (entries : Table Node) (key : String) : Nat :=
  ((entries.get? key).map Node.size).getD 0

/-- The bytes that all other files hold. -/
def heldBeside (entries : Table Node) (key : String) : Nat :=
  ((entries.entries.filter fun e => e.1 ≠ key).map fun e => e.2.size).sum

variable {entries : Table Node} {key : String}

theorem held_erase (entries : Table Node) (key : String) :
    held (entries.erase key) = heldBeside entries key := rfl

/-- What adds nothing may be left out of a sum. -/
theorem sum_map_filter {α : Type} {f : α → Nat} {p : α → Bool} {l : List α}
    (h : ∀ a ∈ l, p a = false → f a = 0) : ((l.filter p).map f).sum = (l.map f).sum := by
  induction l with
  | nil => rfl
  | cons a rest ih =>
    obtain ⟨ha, hrest⟩ := List.forall_mem_cons.1 h
    cases hp : p a with
    | true => simp [hp, ih hrest]
    | false => simp [hp, ih hrest, ha hp]

namespace SortedList

/-- A key stands in one place of a sorted list, so a sum over the list splits at it. -/
theorem sum_eq_get?_add {β : Type} (size : β → Nat) (key : String) {entries : List (String × β)}
    (h : Sorted entries) :
    (entries.map fun e => size e.2).sum =
      ((get? key entries).map size).getD 0 +
        ((entries.filter fun e => e.1 ≠ key).map fun e => size e.2).sum := by
  induction entries with
  | nil => rfl
  | cons head rest ih =>
    obtain ⟨k, value⟩ := head
    obtain ⟨hhead, hrest⟩ := List.pairwise_cons.1 h
    have ih := ih hrest
    by_cases hk : k = key
    · subst hk
      -- The other keys are greater, so the key is not in the rest again.
      have hnone : get? k rest = none :=
        get?_eq_none fun e he heq => absurd (heq ▸ hhead e he) (String.lt_irrefl _)
      rw [hnone] at ih
      simpa [get?] using ih
    · rw [List.filter_cons_of_pos (by simpa using hk), get?, if_neg hk]
      simp only [List.map_cons, List.sum_cons]
      omega

end SortedList

theorem held_eq (entries : Table Node) (key : String) :
    held entries = heldAt entries key + heldBeside entries key :=
  SortedList.sum_eq_get?_add Node.size key entries.sorted

theorem held_sub_heldAt (entries : Table Node) (key : String) :
    held entries - heldAt entries key = heldBeside entries key := by
  rw [held_eq entries key, Nat.add_sub_cancel_left]

theorem heldBeside_of_none (hnone : entries.get? key = none) :
    heldBeside entries key = held entries := by
  rw [held_eq entries key, heldAt, hnone]
  exact (Nat.zero_add _).symm

theorem heldAt_le (entries : Table Node) (key : String) : heldAt entries key ≤ held entries := by
  rw [held_eq entries key]
  exact Nat.le_add_right _ _

theorem heldBeside_le (entries : Table Node) (key : String) :
    heldBeside entries key ≤ held entries := by
  rw [held_eq entries key]
  exact Nat.le_add_left _ _

/-- A new value at a key leaves the other bytes as they are. -/
theorem held_insert (entries : Table Node) (key : String) (node : Node) :
    held (entries.insert key node) = node.size + heldBeside entries key := by
  have hothers : (entries.insert key node).erase key = entries.erase key := by
    apply Table.ext_get?
    intro k
    rw [Table.get?_erase, Table.get?_erase, Table.get?_insert]
    split <;> rfl
  rw [held_eq _ key, heldAt, Table.get?_insert, if_pos rfl, ← held_erase, hothers, held_erase]
  rfl

/-- What holds no bytes may be put where nothing was. -/
theorem held_insert_of_none {node : Node} (hnone : entries.get? key = none)
    (hsize : node.size = 0) : held (entries.insert key node) = held entries := by
  rw [held_insert, heldBeside_of_none hnone, hsize, Nat.zero_add]

/-- Tables that hold the same bytes, and the same value at a key, hold the same bytes beside it. -/
theorem heldBeside_congr {made : Table Node} (hheld : held made = held entries)
    (hget : made.get? key = entries.get? key) : heldBeside made key = heldBeside entries key := by
  rw [held_eq made key, held_eq entries key, heldAt, heldAt, hget] at hheld
  omega

namespace FileTree

theorem bytesHeld_eq_held (tree : FileTree) : tree.bytesHeld = held tree.entries := by
  rw [bytesHeld, held, List.sum_eq_foldr, List.foldr_map]

/-! ## Sums over the keys -/

/-- The keys of a table, in order. -/
def keys (tree : FileTree) : List String :=
  tree.entries.entries.map Prod.fst

theorem nodup_keys (tree : FileTree) : tree.keys.Nodup := by
  rw [keys, List.Nodup, List.pairwise_map]
  apply tree.entries.sorted.imp
  intro a b hlt heq
  exact String.lt_irrefl _ (heq ▸ hlt)

theorem mem_keys_iff {tree : FileTree} :
    key ∈ tree.keys ↔ ∃ node, tree.entries.get? key = some node := by
  simp [keys, Table.mem_entries_iff]

/-- The bytes of a table are those at its keys. -/
theorem bytesHeld_eq_sum_keys (tree : FileTree) :
    tree.bytesHeld = (tree.keys.map (heldAt tree.entries)).sum := by
  rw [bytesHeld_eq_held, held, keys, List.map_map]
  congr 1
  apply List.map_congr_left
  rintro ⟨key, node⟩ hmem
  rw [Function.comp_apply, heldAt, Table.mem_entries_iff.1 hmem]
  rfl

/-! ## Making directories -/

/-- Directories cost nothing, made or found, also if one of them is refused. -/
theorem held_ensureDirectories (dirs : List String) (entries : Table Node) :
    held (ensureDirectories dirs entries).1 = held entries := by
  induction dirs generalizing entries with
  | nil => rfl
  | cons dir rest ih =>
    rw [ensureDirectories]
    cases hget : entries.get? dir with
    | none =>
      simp only [ih]
      exact held_insert_of_none hget rfl
    | some node =>
      cases node with
      | directory => exact ih entries
      | file data => rfl
      | special => rfl

end FileTree

end PluginBridge
