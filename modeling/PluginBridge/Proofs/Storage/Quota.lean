import PluginBridge.Proofs.Storage.Bytes
import PluginBridge.Proofs.Storage.Reachable

/-!
# The quota

Nothing keeps the number of bytes that are held: each write sums them up anew, takes away what it
releases and adds what it brings.

* `IsWithin` is the quota as an invariant, and `isWithin_perform` its step;
* `write_eq` and `write_quotaExceeded_iff`: the quota decides on a write before anything on the way
  to the path is looked at;
* `bytesHeldWord?` and `wantedWord?` do the counting in words of 64 bits and give up at the first
  number that is none; where they do not, a write compares the same number (`write_eq_of_fits`);
* `quota_of_reached_tree` puts this together for all trees that operations can reach.
-/

namespace PluginBridge

open PluginBridge.Path

namespace FileTree

/-! ## The quota as an invariant -/

/-- The files of a tree with the given quota fit it. -/
structure IsWithin (quota : UInt64) (tree : FileTree) : Prop where
  quota_eq : tree.quota = quota
  held_le : held tree.entries ≤ quota.toNat

variable {tree : FileTree} {quota : UInt64}

theorem isWithin_rootOnly (quota : UInt64) : (rootOnly quota).IsWithin quota := by
  refine ⟨rfl, ?_⟩
  rw [rootOnly, held_insert_of_none rfl rfl]
  exact Nat.zero_le _

theorem IsWithin.of_held_le (h : tree.IsWithin quota) {entries : Table Node}
    (hle : held entries ≤ held tree.entries) : IsWithin quota { tree with entries } :=
  ⟨h.quota_eq, Nat.le_trans hle h.held_le⟩

/-- What comes after the directories on the way to a path sees as many bytes as before. -/
theorem isWithin_withAncestors (h : tree.IsWithin quota) (path : String)
    {next : Table Node → Change}
    (hnext : ∀ made, AncestorsMade tree.entries path made → held made = held tree.entries →
      (next made).1.IsWithin quota) :
    (tree.withAncestors (Path.normalize path) next).1.IsWithin quota := by
  have hheld := held_ensureDirectories (ancestors (Path.normalize path)) tree.entries
  apply withAncestors_cases (P := fun change => change.1.IsWithin quota)
  · intro made err hens
    rw [hens] at hheld
    exact h.of_held_le (Nat.le_of_eq hheld)
  · intro made hens hmade
    rw [hens] at hheld
    exact hnext made hmade hheld

/-- What holds no bytes may be put where nothing was. -/
theorem IsWithin.insert_of_none (h : tree.IsWithin quota) {made : Table Node} {key : String}
    {node : Node} (hheld : held made = held tree.entries) (hnone : made.get? key = none)
    (hsize : node.size = 0) : IsWithin quota { tree with entries := made.insert key node } := by
  apply h.of_held_le
  exact Nat.le_of_eq ((held_insert_of_none hnone hsize).trans hheld)

/-! ## Writing -/

/-- A write to a path that holds a file or nothing is decided by the quota before anything else: by
the bytes of all other files and those it brings. -/
theorem write_eq (tree : FileTree) (path : String) (data : ByteArray)
    (hdir : tree.entries.get? (Path.normalize path) ≠ some .directory)
    (hspecial : tree.entries.get? (Path.normalize path) ≠ some .special) :
    tree.write path data =
      if tree.quota.toNat < heldBeside tree.entries (Path.normalize path) + data.size then
        (tree, .error (.quotaExceeded (Path.normalize path)
          (heldBeside tree.entries (Path.normalize path) + data.size) tree.quota))
      else tree.withAncestors (Path.normalize path) fun entries =>
        ({ tree with entries := entries.insert (Path.normalize path) (.file data) }, .ok ()) := by
  rw [write, ← held_sub_heldAt, ← bytesHeld_eq_held, heldAt]
  cases hget : tree.entries.get? (Path.normalize path) with
  | none => rfl
  | some node =>
    cases node with
    | file old => rfl
    | directory => exact absurd hget hdir
    | special => exact absurd hget hspecial

/-- Making the directories on the way to a path is never refused for the quota. -/
theorem withAncestors_ne_quotaExceeded (path key : String) (wanted : Nat) (limit : UInt64)
    {next : Table Node → Change}
    (hnext : ∀ made, (next made).2 ≠ .error (.quotaExceeded key wanted limit)) :
    (tree.withAncestors (Path.normalize path) next).2 ≠
      .error (.quotaExceeded key wanted limit) := by
  apply withAncestors_cases (P := fun change => change.2 ≠ .error (.quotaExceeded key wanted limit))
  · intro made err hens hrefused
    obtain ⟨dir, -, -, hdir⟩ := ensureDirectories_error (congrArg Prod.snd hens)
    cases hrefused
    cases hdir
  · intro made _ _
    exact hnext made

/-- A write is refused for the quota exactly if the bytes of all other files and those it brings
exceed it, whatever stands on the way to the path. -/
theorem write_quotaExceeded_iff {path : String} {data : ByteArray}
    (hdir : tree.entries.get? (Path.normalize path) ≠ some .directory)
    (hspecial : tree.entries.get? (Path.normalize path) ≠ some .special)
    {key : String} {wanted : Nat} {limit : UInt64} :
    (tree.write path data).2 = .error (.quotaExceeded key wanted limit) ↔
      tree.quota.toNat < heldBeside tree.entries (Path.normalize path) + data.size ∧
        key = Path.normalize path ∧
        wanted = heldBeside tree.entries (Path.normalize path) + data.size ∧
        limit = tree.quota := by
  rw [write_eq tree path data hdir hspecial]
  split
  · rename_i hover
    simp only [Except.error.injEq, StorageError.quotaExceeded.injEq, hover, true_and]
    exact ⟨fun ⟨hk, hw, hq⟩ => ⟨hk.symm, hw.symm, hq.symm⟩,
      fun ⟨hk, hw, hq⟩ => ⟨hk.symm, hw.symm, hq.symm⟩⟩
  · rename_i hunder
    refine ⟨fun hrefused => absurd hrefused ?_, fun h => absurd h.1 hunder⟩
    apply withAncestors_ne_quotaExceeded
    intro made hover
    cases hover

/-! ## One operation -/

theorem isWithin_write (h : tree.IsWithin quota) (path : String) (data : ByteArray) :
    (tree.write path data).1.IsWithin quota := by
  by_cases hdir : tree.entries.get? (Path.normalize path) = some .directory
  · simpa only [write, hdir] using h
  by_cases hspecial : tree.entries.get? (Path.normalize path) = some .special
  · simpa only [write, hspecial] using h
  rw [write_eq tree path data hdir hspecial]
  split
  · exact h
  · rename_i hunder
    apply isWithin_withAncestors h path
    intro made hmade hheld
    refine ⟨h.quota_eq, ?_⟩
    rw [held_insert, heldBeside_congr hheld hmade.get?_normalize, Node.size, Nat.add_comm,
      ← h.quota_eq]
    exact Nat.not_lt.1 hunder

theorem isWithin_makeDirectory (h : tree.IsWithin quota) (path : String) :
    (tree.makeDirectory path).1.IsWithin quota := by
  have hcreate : IsWithin quota (if (tree.entries.get? (Path.normalize path)).isSome then
      (tree, .error (.alreadyExists (Path.normalize path)))
      else ({ tree with entries := tree.entries.insert (Path.normalize path) .directory },
        .ok ()) : Change).1 := by
    split
    · exact h
    · rename_i hnone
      exact h.insert_of_none rfl (by simpa using hnone) rfl
  rw [makeDirectory]
  split
  · exact hcreate
  split
  · exact hcreate
  · exact h
  · exact h

theorem isWithin_makeDirectories (h : tree.IsWithin quota) (path : String) :
    (tree.makeDirectories path).1.IsWithin quota := by
  rw [makeDirectories]
  apply isWithin_withAncestors h path
  intro made hmade hheld
  split
  · rename_i hnone
    exact h.insert_of_none hheld hnone rfl
  · exact h.of_held_le (Nat.le_of_eq hheld)
  · exact h.of_held_le (Nat.le_of_eq hheld)

theorem isWithin_makeSpecial (h : tree.IsWithin quota) (path : String) :
    (tree.makeSpecial path).1.IsWithin quota := by
  rw [makeSpecial]
  apply isWithin_withAncestors h path
  intro made hmade hheld
  split
  · exact h.of_held_le (Nat.le_of_eq hheld)
  · rename_i hnone
    exact h.insert_of_none hheld (by simpa using hnone) rfl

theorem isWithin_remove (h : tree.IsWithin quota) (path : String) :
    (tree.remove path).1.IsWithin quota := by
  rw [remove]
  split
  · exact h
  split
  · exact h
  split
  · apply h.of_held_le
    rw [held_erase]
    exact heldBeside_le _ _
  · exact h

theorem isWithin_perform (h : tree.IsWithin quota) (operation : Operation) :
    (tree.perform operation).1.IsWithin quota := by
  cases operation <;> simp only [perform, changed_fst]
  case write path data => exact isWithin_write h path data
  case makeDirectory path => exact isWithin_makeDirectory h path
  case makeDirectories path => exact isWithin_makeDirectories h path
  case makeSpecial path => exact isWithin_makeSpecial h path
  case remove path => exact isWithin_remove h path
  all_goals exact h

theorem isWithin_reached (quota : UInt64) (operations : List Operation) :
    ((rootOnly quota).performAll operations).1.IsWithin quota := by
  apply performAll_keeps (P := IsWithin quota)
  · intro tree operation h
    exact isWithin_perform h operation
  · exact isWithin_rootOnly quota

end FileTree

/-! ## Counting in words -/

/-- The sum of two words, if it is one. -/
def addWord? (a b : UInt64) : Option UInt64 :=
  if a.toNat + b.toNat < 2 ^ 64 then some (a + b) else none

/-- The difference of two words, if it is one. -/
def subWord? (a b : UInt64) : Option UInt64 :=
  if b ≤ a then some (a - b) else none

theorem addWord?_ofNat {a b : Nat} (h : a + b < 2 ^ 64) :
    addWord? (.ofNat a) (.ofNat b) = some (.ofNat (a + b)) := by
  have ha : (UInt64.ofNat a).toNat = a :=
    UInt64.toNat_ofNat_of_lt' (Nat.lt_of_le_of_lt (Nat.le_add_right a b) h)
  have hb : (UInt64.ofNat b).toNat = b :=
    UInt64.toNat_ofNat_of_lt' (Nat.lt_of_le_of_lt (Nat.le_add_left b a) h)
  rw [addWord?, ha, hb, if_pos h, UInt64.ofNat_add]

theorem subWord?_ofNat {a b : Nat} (hle : b ≤ a) (h : a < 2 ^ 64) :
    subWord? (.ofNat a) (.ofNat b) = some (.ofNat (a - b)) := by
  have ha : (UInt64.ofNat a).toNat = a := UInt64.toNat_ofNat_of_lt' h
  have hb : (UInt64.ofNat b).toNat = b := UInt64.toNat_ofNat_of_lt' (Nat.lt_of_le_of_lt hle h)
  have hword : UInt64.ofNat b ≤ UInt64.ofNat a := by
    rw [UInt64.le_iff_toNat_le, ha, hb]
    exact hle
  rw [subWord?, if_pos hword, Option.some.injEq]
  apply UInt64.toNat_inj.1
  rw [UInt64.toNat_sub_of_le _ _ hword, ha, hb, UInt64.toNat_ofNat_of_lt']
  exact Nat.lt_of_le_of_lt (Nat.sub_le a b) h

namespace FileTree

variable {tree : FileTree}

/-- The bytes that all files hold, added up in one word. -/
def bytesHeldWord? (tree : FileTree) : Option UInt64 :=
  tree.entries.entries.foldlM (fun sum e => addWord? sum (.ofNat e.2.size)) 0

/-- The bytes that a write needs, counted in one word: all that are held, less those at the path,
and those of the write. -/
def wantedWord? (tree : FileTree) (path : String) (data : ByteArray) : Option UInt64 := do
  let sum ← tree.bytesHeldWord?
  let others ← subWord? sum (.ofNat (heldAt tree.entries (Path.normalize path)))
  addWord? others (.ofNat data.size)

theorem foldlM_addWord? {entries : List (String × Node)} {sum : Nat}
    (h : sum + (entries.map fun e => e.2.size).sum < 2 ^ 64) :
    entries.foldlM (fun sum e => addWord? sum (.ofNat e.2.size)) (.ofNat sum) =
      some (.ofNat (sum + (entries.map fun e => e.2.size).sum)) := by
  induction entries generalizing sum with
  | nil => rfl
  | cons head rest ih =>
    rw [List.map_cons, List.sum_cons, ← Nat.add_assoc] at h ⊢
    have hhead : sum + head.2.size < 2 ^ 64 := by omega
    rw [List.foldlM_cons, addWord?_ofNat hhead]
    exact ih h

theorem bytesHeldWord?_eq (h : held tree.entries < 2 ^ 64) :
    tree.bytesHeldWord? = some (.ofNat (held tree.entries)) := by
  have hsum : 0 + held tree.entries < 2 ^ 64 := by rwa [Nat.zero_add]
  rw [bytesHeldWord?, ← Nat.zero_add (held tree.entries)]
  exact foldlM_addWord? hsum

theorem wantedWord?_eq {path : String} {data : ByteArray}
    (h : held tree.entries + data.size < 2 ^ 64) :
    tree.wantedWord? path data =
      some (.ofNat (heldBeside tree.entries (Path.normalize path) + data.size)) := by
  have hheld : held tree.entries < 2 ^ 64 := by omega
  have hle := heldBeside_le tree.entries (Path.normalize path)
  rw [wantedWord?, bytesHeldWord?_eq hheld, Option.bind_eq_bind, Option.bind_some,
    subWord?_ofNat (heldAt_le ..) hheld, held_sub_heldAt, Option.bind_some,
    addWord?_ofNat (by omega)]

/-- **A write counts in words.**  As long as the count fits a word, what a write compares with the
quota and tells of a refusal is the word that `wantedWord?` comes to. -/
theorem write_eq_of_fits {path : String} {data : ByteArray}
    (hfits : held tree.entries + data.size < 2 ^ 64)
    (hdir : tree.entries.get? (Path.normalize path) ≠ some .directory)
    (hspecial : tree.entries.get? (Path.normalize path) ≠ some .special) :
    ∃ wanted, tree.wantedWord? path data = some wanted ∧
      tree.write path data =
        if tree.quota < wanted then
          (tree, .error (.quotaExceeded (Path.normalize path) wanted.toNat tree.quota))
        else tree.withAncestors (Path.normalize path) fun entries =>
          ({ tree with entries := entries.insert (Path.normalize path) (.file data) }, .ok ()) := by
  have hle := heldBeside_le tree.entries (Path.normalize path)
  have hword : (UInt64.ofNat (heldBeside tree.entries (Path.normalize path) + data.size)).toNat =
      heldBeside tree.entries (Path.normalize path) + data.size :=
    UInt64.toNat_ofNat_of_lt' (Nat.lt_of_le_of_lt (Nat.add_le_add_right hle _) hfits)
  refine ⟨_, wantedWord?_eq hfits, ?_⟩
  rw [write_eq tree path data hdir hspecial]
  simp only [UInt64.lt_iff_toNat_lt, hword]

/-! ## Trees that operations can reach -/

/-- **The quota holds, and no count can go wrong.**  In every tree that operations can reach the
files fit the quota, and their bytes can be counted in a word.  A write never releases more than is
held, and if what is held and what it brings fit a word, so does each number on the way to what it
needs.  Where a file or nothing is, the write is refused for the quota exactly if that number
exceeds it; no directory on the way is looked at for this, and none has been made. -/
theorem quota_of_reached_tree (quota : UInt64) (operations : List Operation) :
    let tree := ((rootOnly quota).performAll operations).1
    tree.bytesHeld ≤ quota.toNat ∧
      tree.bytesHeldWord?.map UInt64.toNat = some tree.bytesHeld ∧
      ∀ (path : String) (data : ByteArray),
        let wanted := heldBeside tree.entries (Path.normalize path) + data.size
        heldAt tree.entries (Path.normalize path) ≤ tree.bytesHeld ∧
        (tree.bytesHeld + data.size < 2 ^ 64 →
          (tree.wantedWord? path data).map UInt64.toNat = some wanted) ∧
        (tree.entries.get? (Path.normalize path) ≠ some .directory →
          tree.entries.get? (Path.normalize path) ≠ some .special →
          (∀ key count limit,
            (tree.write path data).2 = .error (.quotaExceeded key count limit) ↔
              quota.toNat < wanted ∧
                key = Path.normalize path ∧ count = wanted ∧ limit = quota) ∧
          (quota.toNat < wanted → (tree.write path data).1 = tree)) := by
  intro tree
  have hwithin : tree.IsWithin quota := isWithin_reached quota operations
  have hword : held tree.entries < 2 ^ 64 :=
    Nat.lt_of_le_of_lt hwithin.held_le quota.toNat_lt
  rw [bytesHeld_eq_held, bytesHeldWord?_eq hword]
  refine ⟨hwithin.held_le, by simpa using Nat.mod_eq_of_lt hword, ?_⟩
  intro path data wanted
  refine ⟨heldAt_le _ _, ?_, ?_⟩
  · intro hfits
    have hle := heldBeside_le tree.entries (Path.normalize path)
    rw [wantedWord?_eq hfits, Option.map_some, UInt64.toNat_ofNat_of_lt']
    exact Nat.lt_of_le_of_lt (Nat.add_le_add_right hle _) hfits
  · intro hdir hspecial
    have hquota := hwithin.quota_eq
    refine ⟨?_, ?_⟩
    · intro key count limit
      rw [write_quotaExceeded_iff hdir hspecial, hquota]
    · intro hover
      rw [write_eq tree path data hdir hspecial, if_pos (hquota ▸ hover)]

/-- Five bytes are held under a quota of eight.  Four more below that file are refused for the quota,
not for the file that stands on the way. -/
theorem quota_of_reached_tree_below_file :
    let tree := ((rootOnly 8).performAll [.write "/a" ⟨#[49, 50, 51, 52, 53]⟩]).1
    let data : ByteArray := ⟨#[49, 50, 51, 52]⟩
    tree.bytesHeld + data.size < 2 ^ 64 ∧
      tree.entries.get? (Path.normalize "a//b") ≠ some .directory ∧
      tree.entries.get? (Path.normalize "a//b") ≠ some .special ∧
      (tree.wantedWord? "a//b" data).map UInt64.toNat = some 9 ∧
      (tree.write "a//b" data).2 = .error (.quotaExceeded "/a/b" 9 8) ∧
      (tree.write "a//b" data).1 = tree := by
  intro tree data
  have hfits : tree.bytesHeld + data.size < 2 ^ 64 := by decide
  have hdir : tree.entries.get? (Path.normalize "a//b") ≠ some .directory := by decide
  have hspecial : tree.entries.get? (Path.normalize "a//b") ≠ some .special := by decide
  have hwanted : heldBeside tree.entries (Path.normalize "a//b") + data.size = 9 := by decide
  have hkey : Path.normalize "a//b" = "/a/b" := by decide
  obtain ⟨-, -, hwrite⟩ := quota_of_reached_tree 8 [.write "/a" ⟨#[49, 50, 51, 52, 53]⟩]
  obtain ⟨-, hcount, hrefuse⟩ := hwrite "a//b" data
  obtain ⟨hquota, hkept⟩ := hrefuse hdir hspecial
  have hover : (8 : UInt64).toNat < heldBeside tree.entries (Path.normalize "a//b") + data.size := by
    decide
  exact ⟨hfits, hdir, hspecial, hwanted ▸ hcount hfits,
    (hquota _ _ _).2 ⟨hover, hkey.symm, hwanted.symm, rfl⟩, hkept hover⟩

end FileTree

end PluginBridge
