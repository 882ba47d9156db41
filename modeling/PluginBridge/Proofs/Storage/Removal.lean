import PluginBridge.Proofs.Storage.Listing

/-!
# Removal

A removal is refused if any key begins with the path's spelling and a slash.  That asks neither what
stands at the path nor how deep the key lies; in a tree it comes to the same as a listing that shows
something (`occupied_iff`).  So each way in which a removal can end is told by what a listing and a
lookup of the same path give: `removal_of_reached_tree`.
-/

namespace PluginBridge.FileTree

open PluginBridge.Path

variable {tree : FileTree} {path : String}

/-- Some key begins with a path and a slash exactly if something is listed at the path. -/
theorem occupied_iff (h : IsHierarchy tree.entries) (hroot : Path.normalize path ≠ "/") :
    tree.entries.entriesUnder (Path.normalize path ++ "/") ≠ [] ↔
      ∃ child rest, tree.list path = .ok (child :: rest) := by
  have hnames := areNames_components path
  constructor
  · intro hunder
    obtain ⟨⟨key, node⟩, hmem⟩ := List.exists_mem_of_ne_nil _ hunder
    obtain ⟨hkey, below, hcut⟩ := Table.mem_entriesUnder_iff.1 hmem
    obtain ⟨place, hplace, rfl⟩ := h.normal hkey
    -- The path is one of the directories above the key, and the next place on the way is a child.
    obtain ⟨above, ⟨-, hpre, hproper⟩, heq⟩ := eq_ofComponents_of_normal_slash hplace
      (toList_ofComponents_ne_nil (components path))
      (by simpa [Path.normalize] using hcut.symm)
    rw [String.ofList_toList] at heq
    obtain rfl := ofComponents_injective hnames (hplace.of_isPrefix hpre) heq
    obtain ⟨name, child, hname, -, hchild⟩ :=
      exists_child_of_below h hplace hkey hpre (Ne.symm hproper)
    obtain ⟨children, hlist, hchildren⟩ :=
      list_of_directory h (h.directory_above hplace hkey hpre hproper)
    have hlisted : ⟨name, child.kind⟩ ∈ children :=
      (hchildren.mem_iff _).2 ⟨hname, child, hchild, rfl⟩
    cases children with
    | nil => cases hlisted
    | cons first rest => exact ⟨first, rest, hlist⟩
  · rintro ⟨child, rest, hlist⟩
    obtain ⟨-, node, hnode, -⟩ :=
      ((areChildren_of_list h hlist).mem_iff child).1 (List.mem_cons_self ..)
    have hstart := normalize_slash_isPrefix hroot child.name
    exact List.ne_nil_of_mem (Table.mem_entriesUnder_iff.2 ⟨hnode, hstart⟩)

/-! ## How a removal ends -/

/-- The ways in which a removal can end, by what a listing and a lookup of the path give. -/
inductive Removed (tree : FileTree) (path : String) : Change → Prop where
  | root (hroot : components path = []) : Removed tree path (tree, .error .cannotRemoveRoot)
  | occupied {child : Child} {rest : List Child} (hroot : components path ≠ [])
      (hlist : tree.list path = .ok (child :: rest)) :
      Removed tree path (tree, .error (.directoryNotEmpty (Path.normalize path)))
  | missing (hroot : components path ≠ [])
      (hnone : tree.entries.get? (Path.normalize path) = none) :
      Removed tree path (tree, .error (.notFound (Path.normalize path)))
  | done {node : Node} (hroot : components path ≠ [])
      (hnode : tree.entries.get? (Path.normalize path) = some node)
      (hempty : node = .directory → tree.list path = .ok []) :
      Removed tree path
        ({ tree with entries := tree.entries.erase (Path.normalize path) }, .ok ())

theorem removed (h : IsHierarchy tree.entries) (path : String) :
    Removed tree path (tree.remove path) := by
  rw [remove]
  split
  · rename_i hroot
    exact .root (normalize_eq_root_iff.1 hroot)
  rename_i hne
  have hroot : components path ≠ [] := fun hnil => hne (normalize_eq_root_iff.2 hnil)
  split
  · rename_i hunder
    obtain ⟨child, rest, hlist⟩ := (occupied_iff h hne).1 hunder
    exact .occupied hroot hlist
  rename_i hunder
  split
  · rename_i hsome
    obtain ⟨node, hnode⟩ := Option.isSome_iff_exists.1 hsome
    refine .done hroot hnode ?_
    rintro rfl
    obtain ⟨children, hlist, -⟩ := list_of_directory h hnode
    cases children with
    | nil => exact hlist
    | cons child rest => exact absurd ((occupied_iff h hne).2 ⟨child, rest, hlist⟩) hunder
  · rename_i hnone
    exact .missing hroot (by simpa using hnone)

/-! ## What is told of it -/

/-- The end of a change as it is told: a success, or the wording of a refusal. -/
def told (change : Change) : Except String Unit :=
  change.2.mapError StorageError.message

@[simp] theorem told_ok : told (tree, .ok ()) = .ok () := rfl

@[simp] theorem told_cannotRemoveRoot :
    told (tree, .error .cannotRemoveRoot) = .error "Cannot remove root" := rfl

@[simp] theorem told_directoryNotEmpty (key : String) :
    told (tree, .error (.directoryNotEmpty key)) = .error s!"Directory not empty: {key}" := rfl

@[simp] theorem told_notFound (key : String) :
    told (tree, .error (.notFound key)) = .error s!"Not found: {key}" := rfl

/-- The wordings of a refused removal begin differently. -/
theorem removal_wordings_apart (key : String) :
    s!"Directory not empty: {key}" ≠ "Cannot remove root" ∧
    s!"Not found: {key}" ≠ "Cannot remove root" ∧
    s!"Not found: {key}" ≠ s!"Directory not empty: {key}" := by
  have apart (a b : String) (h : a.toList.head? ≠ b.toList.head?) : a ≠ b :=
    fun heq => h (by rw [heq])
  refine ⟨apart _ _ ?_, apart _ _ ?_, apart _ _ ?_⟩ <;> simp [toString]

namespace Removed

variable {change : Change} (hremoved : Removed tree path change)

include hremoved

theorem ok_iff : told change = .ok () ↔ components path ≠ [] ∧
    ∃ node, tree.entries.get? (Path.normalize path) = some node ∧
      (node = .directory → tree.list path = .ok []) := by
  cases hremoved with
  | root hroot => simp [hroot]
  | occupied hroot hlist => simp [directory_of_list hlist, hlist]
  | missing hroot hnone => simp [hnone]
  | done hroot hnode hempty => simpa [hnode] using ⟨hroot, hempty⟩

theorem root_iff : told change = .error "Cannot remove root" ↔ components path = [] := by
  obtain ⟨hoccupied, hmissing, -⟩ := removal_wordings_apart (Path.normalize path)
  cases hremoved with
  | root hroot => simp [hroot]
  | occupied hroot hlist => simpa [hroot] using hoccupied
  | missing hroot hnone => simpa [hroot] using hmissing
  | done hroot hnode hempty => simp [hroot]

theorem occupied_iff :
    told change = .error s!"Directory not empty: {Path.normalize path}" ↔
      components path ≠ [] ∧ ∃ child rest, tree.list path = .ok (child :: rest) := by
  obtain ⟨hoccupied, -, hmissing⟩ := removal_wordings_apart (Path.normalize path)
  cases hremoved with
  | root hroot => simpa [hroot] using hoccupied.symm
  | occupied hroot hlist => simp [hroot, hlist]
  | missing hroot hnone =>
    have hlist (children : List Child) : tree.list path ≠ .ok children := fun hlist =>
      absurd (directory_of_list hlist) (by simp [hnone])
    simpa [hlist] using hmissing
  | done hroot hnode hempty =>
    have hlist (child : Child) (rest : List Child) : tree.list path ≠ .ok (child :: rest) := by
      intro hlist
      have hdir := Option.some.inj (hnode.symm.trans (directory_of_list hlist))
      cases hlist.symm.trans (hempty hdir)
    simp [hlist]

theorem missing_iff (h : IsHierarchy tree.entries) :
    told change = .error s!"Not found: {Path.normalize path}" ↔
      tree.entries.get? (Path.normalize path) = none := by
  obtain ⟨-, hmissing, hoccupied⟩ := removal_wordings_apart (Path.normalize path)
  cases hremoved with
  | root hroot =>
    have hget : tree.entries.get? (Path.normalize path) = some .directory := by
      rw [normalize_eq_root_iff.2 hroot]
      exact h.root
    simpa [hget] using hmissing.symm
  | occupied hroot hlist => simpa [directory_of_list hlist] using hoccupied.symm
  | missing hroot hnone => simp [hnone]
  | done hroot hnode hempty => simp [hnode]

/-- A removal that succeeds takes away one key. -/
theorem erased (hok : told change = .ok ()) : change.1.quota = tree.quota ∧
    ∀ k, change.1.entries.get? k =
      if k = Path.normalize path then none else tree.entries.get? k := by
  cases hremoved with
  | root hroot => simp at hok
  | occupied hroot hlist => simp at hok
  | missing hroot hnone => simp at hok
  | done hroot hnode hempty =>
    refine ⟨rfl, fun k => ?_⟩
    rw [Table.get?_erase]
    simp only [eq_comm]

end Removed

/-- **How a removal ends.**  It succeeds exactly at a path other than the root at which a file, a
special node or a directory with an empty listing stands, and then takes away that one key.  It
refuses the root and only the root as such; it finds a directory not empty exactly if the path is
not the root and its listing shows an entry; and it finds nothing exactly if nothing stands there. -/
theorem removal_of_reached_tree (quota : UInt64) (operations : List Operation) (path : String) :
    let tree := ((rootOnly quota).performAll operations).1
    let key := Path.normalize path
    let after := (tree.remove path).1
    let outcome := told (tree.remove path)
    (outcome = .ok () ↔ key ≠ "/" ∧
      ((∃ data, tree.entries.get? key = some (.file data)) ∨
        tree.entries.get? key = some .special ∨
        (tree.entries.get? key = some .directory ∧ tree.list path = .ok []))) ∧
    (outcome = .ok () → after.quota = tree.quota ∧
      ∀ k, after.entries.get? k = if k = key then none else tree.entries.get? k) ∧
    (outcome = .error "Cannot remove root" ↔ components path = []) ∧
    (outcome = .error s!"Directory not empty: {key}" ↔
      key ≠ "/" ∧ ∃ child rest, tree.list path = .ok (child :: rest)) ∧
    (outcome = .error s!"Not found: {key}" ↔ tree.entries.get? key = none) := by
  intro tree key after outcome
  have h : IsHierarchy tree.entries := isHierarchy_reached quota operations
  have hkey : key ≠ "/" ↔ components path ≠ [] := not_congr normalize_eq_root_iff
  have hremoved : Removed tree path (tree.remove path) := removed h path
  refine ⟨?_, ?_, hremoved.root_iff, ?_, hremoved.missing_iff h⟩
  · rw [hremoved.ok_iff, hkey]
    refine and_congr_right fun _ => ?_
    constructor
    · rintro ⟨node, hnode, hempty⟩
      cases node with
      | file data => exact .inl ⟨data, hnode⟩
      | special => exact .inr (.inl hnode)
      | directory => exact .inr (.inr ⟨hnode, hempty rfl⟩)
    · rintro (⟨data, hnode⟩ | hnode | ⟨hnode, hempty⟩)
      · exact ⟨_, hnode, by simp⟩
      · exact ⟨_, hnode, by simp⟩
      · exact ⟨_, hnode, fun _ => hempty⟩
  · exact hremoved.erased
  · rw [hremoved.occupied_iff, hkey]

end PluginBridge.FileTree
