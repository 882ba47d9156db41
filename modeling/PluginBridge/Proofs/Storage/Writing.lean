import PluginBridge.Proofs.Storage.Placement

/-!
# How a write ends

A write can fail for what stands at the path, for the quota, and for what stands on the way to the
path, and it looks at these in this order.  `WriteRefused` lists the four causes, each under the
condition that no earlier one applies; `Written` is what a write that succeeds has done to the tree,
key by key.  `write_of_reached_tree` says that a write ends in one of these ways, and in which.
-/

namespace PluginBridge.FileTree

open PluginBridge.Path

variable {tree : FileTree} {path : String} {data : ByteArray}

/-! ## The ways in which a write ends -/

/-- Why a write is refused: the first of four causes that applies. -/
inductive WriteRefused (tree : FileTree) (path : String) (data : ByteArray) :
    StorageError → Prop where
  | directory (hdir : tree.entries.get? (Path.normalize path) = some .directory) :
      WriteRefused tree path data (.isADirectory (Path.normalize path))
  | special (hspecial : tree.entries.get? (Path.normalize path) = some .special) :
      WriteRefused tree path data (.notARegularFile (Path.normalize path))
  | quota (hdir : tree.entries.get? (Path.normalize path) ≠ some .directory)
      (hspecial : tree.entries.get? (Path.normalize path) ≠ some .special)
      (hover : tree.quota.toNat < heldBeside tree.entries (Path.normalize path) + data.size) :
      WriteRefused tree path data (.quotaExceeded (Path.normalize path)
        (heldBeside tree.entries (Path.normalize path) + data.size) tree.quota)
  /-- The shallowest obstacle on the way is named. -/
  | obstructed {above : List String} (hmay : tree.MayWrite path data)
      (hpre : above <+: components path) (hne : above ≠ components path)
      (hobs : IsObstructed tree.entries (ofComponents above))
      (hfirst : ∀ higher, higher <+: above → higher ≠ above →
        ¬IsObstructed tree.entries (ofComponents higher)) :
      WriteRefused tree path data (.notADirectory (ofComponents above))

/-- What a write has done: the file holds the data, the missing directories on the way have been
made, and every other key is as before. -/
structure Written (tree : FileTree) (path : String) (data : ByteArray) (after : FileTree) :
    Prop where
  quota : after.quota = tree.quota
  file : after.entries.get? (Path.normalize path) = some (.file data)
  made : ∀ above, above <+: components path → above ≠ components path →
    tree.entries.get? (ofComponents above) = none →
    after.entries.get? (ofComponents above) = some .directory
  kept : ∀ key, key ≠ Path.normalize path →
    (∀ above, above <+: components path → above ≠ components path →
      tree.entries.get? (ofComponents above) = none → key ≠ ofComponents above) →
    after.entries.get? key = tree.entries.get? key

/-! ## Refusals -/

theorem WriteRefused.write_eq (h : IsHierarchy tree.entries) {err : StorageError}
    (hrefused : WriteRefused tree path data err) : tree.write path data = (tree, .error err) := by
  cases hrefused with
  | directory hdir => simp only [write, hdir]
  | special hspecial => simp only [write, hspecial]
  | quota hdir hspecial hover => rw [FileTree.write_eq tree path data hdir hspecial, if_pos hover]
  | obstructed hmay hpre hne hobs hfirst =>
    rw [FileTree.write_eq tree path data hmay.ne_directory hmay.ne_special,
      if_neg (Nat.not_lt.2 hmay.fits), withAncestors_of_obstructed h hpre hne hobs]

/-- Where a write may not be made or the way is not clear, a cause applies. -/
theorem exists_writeRefused (h : IsHierarchy tree.entries)
    (hno : ¬(IsClear tree.entries path ∧ tree.MayWrite path data)) :
    ∃ err, WriteRefused tree path data err := by
  by_cases hdir : tree.entries.get? (Path.normalize path) = some .directory
  · exact ⟨_, .directory hdir⟩
  by_cases hspecial : tree.entries.get? (Path.normalize path) = some .special
  · exact ⟨_, .special hspecial⟩
  by_cases hfits : heldBeside tree.entries (Path.normalize path) + data.size ≤ tree.quota.toNat
  · have hmay : tree.MayWrite path data := ⟨hdir, hspecial, hfits⟩
    have hblocked : ¬IsClear tree.entries path := fun hclear => hno ⟨hclear, hmay⟩
    rw [h.isClear_iff] at hblocked
    simp only [not_forall, not_not] at hblocked
    obtain ⟨above, hpre, hne, hobs⟩ := hblocked
    -- What is above an obstacle is a directory, so the obstacle is the shallowest.
    obtain ⟨node, hnode⟩ := hobs.exists_node
    have hnames := (areNames_components path).of_isPrefix hpre
    exact ⟨_, .obstructed hmay hpre hne hobs fun higher hhigher hproper =>
      h.not_isObstructed_above hnames hnode hhigher hproper⟩
  · exact ⟨_, .quota hdir hspecial (Nat.not_le.1 hfits)⟩

/-- A write is refused for exactly the cause that applies. -/
theorem write_eq_error_iff (h : IsHierarchy tree.entries) {err : StorageError} :
    (tree.write path data).2 = .error err ↔ WriteRefused tree path data err := by
  constructor
  · intro herr
    have hno : ¬(IsClear tree.entries path ∧ tree.MayWrite path data) := by
      intro hyes
      cases herr.symm.trans ((placed_write tree path data).ok_iff.2 hyes)
    obtain ⟨first, hfirst⟩ := exists_writeRefused h hno
    rw [hfirst.write_eq h] at herr
    obtain rfl := Except.error.inj herr
    exact hfirst
  · intro hrefused
    rw [hrefused.write_eq h]

/-! ## Successes -/

theorem written_of_ok (h : IsHierarchy tree.entries) (hok : (tree.write path data).2 = .ok ()) :
    tree.Written path data (tree.write path data).1 := by
  obtain ⟨made, hmade, hafter⟩ := (placed_write tree path data).exists_made hok
  rw [hafter]
  refine ⟨rfl, ?_, ?_, ?_⟩
  · rw [hmade.get?_insert, if_pos rfl]
  · intro above hpre hne hnone
    have hnames := (areNames_components path).of_isPrefix hpre
    -- Only what is missing has been made, and the root is not missing.
    have hnil : above ≠ [] := by
      rintro rfl
      rw [ofComponents_nil, h.root] at hnone
      cases hnone
    have hkey : ofComponents above ≠ Path.normalize path := fun heq =>
      hne ((ofComponents_eq_normalize_iff hnames).1 heq)
    rw [hmade.get?_insert, if_neg hkey,
      if_pos ((ofComponents_mem_ancestors_iff hnames).2 ⟨hnil, hpre, hne⟩)]
  · intro key hkey hother
    rw [hmade.get?_insert, if_neg hkey]
    split
    · rename_i hmem
      obtain ⟨above, ⟨-, hpre, hne⟩, rfl⟩ := mem_ancestors_iff.1 hmem
      rcases hmade.passable _ hmem with hnone | hdir
      · exact absurd rfl (hother above hpre hne hnone)
      · exact hdir.symm
    · rfl

/-! ## Trees that operations can reach -/

/-- **How a write ends.**  It succeeds exactly if no directory and no special node stands at the
path, the bytes of all other files and those it brings fit the quota, and no file and no special
node stands on the way.  Then the file holds the data, what was missing on the way are directories,
and no other key has changed.  Otherwise the cause that is reported is the first that applies: what
stands at the path, then the quota, then the shallowest obstacle on the way. -/
theorem write_of_reached_tree (quota : UInt64) (operations : List Operation) (path : String)
    (data : ByteArray) :
    let tree := ((rootOnly quota).performAll operations).1
    let key := Path.normalize path
    let result := tree.write path data
    (result.2 = .ok () ↔
      tree.entries.get? key ≠ some .directory ∧ tree.entries.get? key ≠ some .special ∧
      heldBeside tree.entries key + data.size ≤ quota.toNat ∧
      ∀ above, above <+: components path → above ≠ components path →
        ¬IsObstructed tree.entries (ofComponents above)) ∧
    (result.2 = .ok () → tree.Written path data result.1) ∧
    (∀ err, result.2 = .error err ↔ WriteRefused tree path data err) := by
  intro tree key result
  have h : IsHierarchy tree.entries := isHierarchy_reached quota operations
  have hquota : tree.quota = quota := (isWithin_reached quota operations).quota_eq
  refine ⟨?_, written_of_ok h, fun err => write_eq_error_iff h⟩
  rw [(placed_write tree path data).ok_iff, h.isClear_iff]
  constructor
  · rintro ⟨hclear, hdir, hspecial, hfits⟩
    exact ⟨hdir, hspecial, hquota ▸ hfits, hclear⟩
  · rintro ⟨hdir, hspecial, hfits, hclear⟩
    exact ⟨hclear, hdir, hspecial, hquota.symm ▸ hfits⟩

end PluginBridge.FileTree
