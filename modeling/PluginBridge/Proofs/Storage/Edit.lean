import PluginBridge.Proofs.Storage.Hierarchy
import PluginBridge.Proofs.Storage.Stretch
import PluginBridge.Storage.Operation

/-!
# What an operation does to a tree

On a tree, an operation is either refused, and then nothing has happened, or it makes one edit: it
keeps everything, puts one node in its place below the directories on the way to it, or takes one
node away that has nothing below it.  `outcome_write` and its companions say so for each operation;
what holds of all trees that operations can reach follows from `Outcome` alone.
-/

namespace PluginBridge

open PluginBridge.Path

/-! ## Edits -/

/-- The change that one operation may make to a table. -/
inductive Edit (entries : Table Node) : Table Node → Prop where
  | keep : Edit entries entries
  /-- The directories on the way to a path are made, and a node is put there.  It does not take the
  place of a directory. -/
  | place {path : String} {made : Table Node} (node : Node) (hroot : components path ≠ [])
      (hmade : AncestorsMade entries path made)
      (hfree : entries.get? (Path.normalize path) ≠ some .directory) :
      Edit entries (made.insert (Path.normalize path) node)
  /-- A node with nothing below it is taken away. -/
  | takeAway {path : String} (hroot : components path ≠ [])
      (hleaf : ∀ name, IsName name →
        entries.get? (ofComponents (components path ++ [name])) = none) :
      Edit entries (entries.erase (Path.normalize path))

/-- An edit keeps a tree a tree. -/
theorem Edit.isHierarchy {entries edited : Table Node} (h : IsHierarchy entries)
    (hedit : Edit entries edited) : IsHierarchy edited := by
  cases hedit with
  | keep => exact h
  | @place path made node hroot hmade hfree =>
    obtain ⟨names, name, hnames, hname, hpath⟩ := exists_components_eq_concat hroot
    have hparent := hmade.get?_parent h hpath
    have hkeep := hmade.get?_normalize
    rw [Path.normalize, hpath] at hfree hkeep ⊢
    apply (hmade.isHierarchy h).insert hnames hname hparent
    intro hdir
    exact absurd (hkeep.symm.trans hdir) hfree
  | takeAway hroot hleaf => exact h.erase (areNames_components _) hroot hleaf

/-! ## Operations -/

namespace FileTree

/-- What a change of a tree can come to: a refusal that has done nothing, or an edit. -/
inductive Outcome (tree : FileTree) : Change → Prop where
  | refused (err : StorageError) : Outcome tree (tree, .error err)
  | done {entries : Table Node} (hedit : Edit tree.entries entries) :
      Outcome tree ({ tree with entries }, .ok ())

variable {tree : FileTree}

theorem Outcome.isHierarchy {change : Change} (h : IsHierarchy tree.entries)
    (houtcome : Outcome tree change) : IsHierarchy change.1.entries := by
  cases houtcome with
  | refused err => exact h
  | done hedit => exact hedit.isHierarchy h

theorem Outcome.eq_of_error {change : Change} {err : StorageError} (houtcome : Outcome tree change)
    (herr : change.2 = .error err) : change.1 = tree := by
  cases houtcome with
  | refused err => rfl
  | done hedit => cases herr

/-- The root is a directory, so what is not a directory is not at the root. -/
theorem components_ne_nil (h : IsHierarchy tree.entries) {path : String}
    (hfree : tree.entries.get? (Path.normalize path) ≠ some .directory) : components path ≠ [] := by
  intro hnil
  rw [Path.normalize, hnil] at hfree
  exact hfree h.root

/-- Either one of the directories on the way to a path is refused, or what comes next sees the table
with them. -/
theorem withAncestors_cases {path : String} {next : Table Node → Change} {P : Change → Prop}
    (hrefused : ∀ made err,
      ensureDirectories (ancestors (Path.normalize path)) tree.entries = (made, .error err) →
        P ({ tree with entries := made }, .error err))
    (hnext : ∀ made,
      ensureDirectories (ancestors (Path.normalize path)) tree.entries = (made, .ok ()) →
        AncestorsMade tree.entries path made → P (next made)) :
    P (tree.withAncestors (Path.normalize path) next) := by
  rw [withAncestors]
  cases hens : ensureDirectories (ancestors (Path.normalize path)) tree.entries with
  | mk made result =>
    cases result with
    | error err => exact hrefused made err hens
    | ok done =>
      have hok : (ensureDirectories (ancestors (Path.normalize path)) tree.entries).2 =
          .ok () := by
        rw [hens]
      have hpass := ensureDirectories_ok_iff.1 hok
      exact hnext made hens (AncestorsMade.of_normalize ⟨hpass, get?_ensureDirectories hens⟩)

/-- If the directories on the way to a path are refused, the tree is left alone, so only what comes
next matters. -/
theorem outcome_withAncestors (h : IsHierarchy tree.entries) (path : String)
    {next : Table Node → Change}
    (hnext : ∀ made, AncestorsMade tree.entries path made → Outcome tree (next made)) :
    Outcome tree (tree.withAncestors (Path.normalize path) next) := by
  apply withAncestors_cases
  · intro made err hens
    have herr : (ensureDirectories (ancestors (Path.normalize path)) tree.entries).2 =
        .error err := by
      rw [hens]
    have hsame : made = tree.entries := by
      rw [← ensureDirectories_refused h herr, hens]
    rw [hsame]
    exact .refused err
  · intro made _ hmade
    exact hnext made hmade

theorem outcome_write (h : IsHierarchy tree.entries) (path : String) (data : ByteArray) :
    Outcome tree (tree.write path data) := by
  -- What stands at the path is no directory in the cases that go on to the quota.
  have place (hfree : tree.entries.get? (Path.normalize path) ≠ some .directory) :
      Outcome tree (tree.withAncestors (Path.normalize path) fun made =>
        ({ tree with entries := made.insert (Path.normalize path) (.file data) }, .ok ())) := by
    apply outcome_withAncestors h path
    intro made hmade
    exact .done (.place (.file data) (components_ne_nil h hfree) hmade hfree)
  rw [write]
  cases hget : tree.entries.get? (Path.normalize path) with
  | none =>
    simp only
    split
    · exact .refused _
    · exact place (by simp [hget])
  | some node =>
    cases node with
    | directory => exact .refused _
    | special => exact .refused _
    | file old =>
      simp only
      split
      · exact .refused _
      · exact place (by simp [hget])

theorem outcome_makeDirectory (h : IsHierarchy tree.entries) (path : String) :
    Outcome tree (tree.makeDirectory path) := by
  rw [makeDirectory]
  by_cases hroot : components path = []
  · have hnorm : Path.normalize path = "/" := by rw [Path.normalize, hroot, ofComponents_nil]
    simp only [hnorm, parent?_root, h.root, Option.isSome_some, if_true]
    exact .refused _
  obtain ⟨names, name, hnames, hname, hpath⟩ := exists_components_eq_concat hroot
  have hparent : parent? (Path.normalize path) = some (ofComponents names) := by
    rw [Path.normalize, hpath, parent?_ofComponents_concat hnames hname]
  simp only [hparent]
  cases hdir : tree.entries.get? (ofComponents names) with
  | none => exact .refused _
  | some node =>
    cases node with
    | file data => exact .refused _
    | special => exact .refused _
    | directory =>
      simp only
      split
      · exact .refused _
      · rename_i hnone
        refine .done (.place .directory hroot (.of_parent h hpath hdir) fun hget => ?_)
        simp [hget] at hnone

theorem outcome_makeDirectories (h : IsHierarchy tree.entries) (path : String) :
    Outcome tree (tree.makeDirectories path) := by
  rw [makeDirectories]
  apply outcome_withAncestors h path
  intro made hmade
  rw [hmade.get?_normalize]
  cases hget : tree.entries.get? (Path.normalize path) with
  | none =>
    have hfree : tree.entries.get? (Path.normalize path) ≠ some .directory := by simp [hget]
    exact .done (.place .directory (components_ne_nil h hfree) hmade hfree)
  | some node =>
    have hsame := hmade.eq_of_present h hget
    subst hsame
    cases node with
    | directory => exact .done .keep
    | file data => exact .refused _
    | special => exact .refused _

theorem outcome_makeSpecial (h : IsHierarchy tree.entries) (path : String) :
    Outcome tree (tree.makeSpecial path) := by
  rw [makeSpecial]
  apply outcome_withAncestors h path
  intro made hmade
  rw [hmade.get?_normalize]
  cases hget : tree.entries.get? (Path.normalize path) with
  | none =>
    have hfree : tree.entries.get? (Path.normalize path) ≠ some .directory := by simp [hget]
    simp only [Option.isSome_none, Bool.false_eq_true, if_false]
    exact .done (.place .special (components_ne_nil h hfree) hmade hfree)
  | some node =>
    have hsame := hmade.eq_of_present h hget
    subst hsame
    simp only [Option.isSome_some, if_true]
    exact .refused _

theorem outcome_remove (tree : FileTree) (path : String) : Outcome tree (tree.remove path) := by
  rw [remove]
  split
  · exact .refused _
  rename_i hne
  split
  · exact .refused _
  rename_i hempty
  split
  · have hroot : components path ≠ [] := fun hnil => hne (normalize_eq_root_iff.2 hnil)
    refine .done (.takeAway hroot fun name hname => ?_)
    -- A child's key would be one of those that begin with the path and a slash.
    cases hget : tree.entries.get? (ofComponents (components path ++ [name])) with
    | none => rfl
    | some node =>
      refine absurd ?_ hempty
      have hstart := normalize_slash_isPrefix hne name
      exact List.ne_nil_of_mem (Table.mem_entriesUnder_iff.2 ⟨hget, hstart⟩)
  · exact .refused _

end FileTree

end PluginBridge
