import Mathlib.Data.List.Basic
import PluginBridge.Proofs.Storage.Bytes
import PluginBridge.Proofs.Storage.Walk

/-!
# Walks through the whole tree

* `exists_walkFrom`: every walk ends, because fewer keys are below a child than below its directory,
  and a walk with a bound on its depth is the same if it may go as deep as there are keys
  (`exists_walk` is its step from the children to their directory);
* `Tours.perm_keys` and `Tours.sum_toldSize`: from the root it meets all other keys, and all bytes;
* `walk_of_reached_tree` puts this together for all trees that operations can reach.
-/

namespace PluginBridge.FileTree

open PluginBridge.Path

variable {tree : FileTree} {dir : String} {met : List Met} {names : List String}

/-! ## Every walk ends -/

theorem list_normalize (tree : FileTree) (path : String) :
    tree.list (Path.normalize path) = tree.list path := by
  rw [list, list, normalize_normalize]

/-- Fewer keys are below a child than below its directory: at least its own is missing. -/
theorem length_entriesUnder_child_lt {node : Node} {name : String} (hnames : AreNames names)
    (hname : IsName name) (hnode : tree.node? (names ++ [name]) = some node) :
    (tree.entries.entriesUnder (childPrefix (ofComponents (names ++ [name])))).length <
      (tree.entries.entriesUnder (childPrefix (ofComponents names))).length := by
  have hall := areNames_concat.2 ⟨hnames, hname⟩
  rw [childPrefix_ofComponents hall, childPrefix_ofComponents hnames]
  have hkey : ofComponents (names ++ [name]) = slashed names ++ "/" ++ name := by
    rw [ofComponents_of_ne_nil (by simp), slashed_concat]
  -- What is under the child is cut out of what is under the directory.
  have hcut : tree.entries.entriesUnder (slashed (names ++ [name]) ++ "/") =
      (tree.entries.entriesUnder (slashed names ++ "/")).filter
        (SortedList.isUnder (slashed (names ++ [name]) ++ "/")) := by
    rw [Table.entriesUnder_eq_filter, Table.entriesUnder_eq_filter, List.filter_filter]
    apply List.filter_congr
    intro e _
    rw [Bool.eq_iff_iff, Bool.and_eq_true, SortedList.isUnder_iff, SortedList.isUnder_iff]
    refine ⟨fun hunder => ⟨hunder, ?_⟩, fun hunder => hunder.1⟩
    refine List.IsPrefix.trans ?_ hunder
    rw [slashed_concat]
    simp
  rw [hcut, List.length_filter_lt_length_iff_exists]
  refine ⟨(ofComponents (names ++ [name]), node), ?_, ?_⟩
  · rw [Table.mem_entriesUnder_iff, hkey]
    exact ⟨hkey ▸ hnode, by simp⟩
  · rw [SortedList.isUnder_iff, hkey, slashed_concat]
    intro hpre
    have hlength := hpre.length_le
    have hslash : "/".toList.length = 1 := rfl
    simp only [String.toList_append, List.length_append] at hlength
    omega

/-- The bytes that the status of a path tells; where there is no status, none. -/
def toldSize (tree : FileTree) (path : String) : Nat :=
  match tree.stat path with
  | .ok stat => stat.size
  | .error _ => 0

/-- What `visits` tells of something that is met. -/
def visitOf (tree : FileTree) (m : Met) : Visit :=
  ⟨Path.normalize m.path, m.kind, tree.toldSize m.path⟩

theorem toldSize_normalize (tree : FileTree) (path : String) :
    tree.toldSize (Path.normalize path) = tree.toldSize path := by
  rw [toldSize, toldSize, stat, stat, normalize_normalize]

/-- What `visits` tells of some children of a directory, `depth` steps down into each. -/
def visitsOf (tree : FileTree) (depth : Nat) (dir : String) (children : List Child) : List Visit :=
  children.flatMap fun child =>
    tree.visitOf (Met.child dir child) ::
      if child.kind = .directory then
        tree.walk depth (Path.normalize (Met.child dir child).path) else []

theorem walk_succ (tree : FileTree) (depth : Nat) (dir : String) {children : List Child}
    (hlist : tree.list dir = .ok children) (hin : tree.AreIn (components dir) children) :
    tree.walk (depth + 1) (Path.normalize dir) = tree.visitsOf depth dir children := by
  rw [walk, list_normalize, hlist, visitsOf]
  apply List.flatMap_congr
  intro child hchild
  have hpath : childPrefix (Path.normalize dir) ++ child.name =
      Path.normalize (Met.child dir child).path :=
    (normalize_append_name dir (hin child hchild).1).symm
  simp only [hpath]
  rw [visitOf, ← toldSize_normalize, toldSize]
  rfl

/-- The walks through the directories among some children make one through all of them. -/
theorem exists_walk {depth : Nat} {children : List Child}
    (hinside : ∀ child ∈ children, child.kind = .directory →
      ∃ inside, WalkFrom tree (Met.child dir child).path inside ∧
        tree.walk depth (Path.normalize (Met.child dir child).path) =
          inside.map tree.visitOf) :
    ∃ met, Walk tree dir children met ∧
      tree.visitsOf depth dir children = met.map tree.visitOf := by
  induction children with
  | nil => exact ⟨[], .done, rfl⟩
  | cons child rest ih =>
    obtain ⟨hchild, hrest⟩ := List.forall_mem_cons.1 hinside
    obtain ⟨met, hwalk, hvisits⟩ := ih hrest
    rw [visitsOf] at hvisits
    rw [visitsOf, List.flatMap_cons, hvisits]
    by_cases hkind : child.kind = .directory
    · obtain ⟨inside, ⟨children', hlist, hwalk'⟩, hvisits'⟩ := hchild hkind
      refine ⟨_, .enter hkind hlist hwalk' hwalk, ?_⟩
      rw [if_pos hkind, hvisits']
      simp
    · refine ⟨_, .pass hkind hwalk, ?_⟩
      rw [if_neg hkind]
      simp

/-- **Every walk ends**, and the walk with a bound on its depth meets the same if as many steps
down are allowed as there are keys below the directory. -/
theorem exists_walkFrom (h : IsHierarchy tree.entries) (depth : Nat)
    (hdir : tree.node? (components dir) = some .directory)
    (hdepth : (tree.entries.entriesUnder (childPrefix (Path.normalize dir))).length ≤ depth) :
    ∃ met, WalkFrom tree dir met ∧
      tree.walk depth (Path.normalize dir) = met.map tree.visitOf := by
  induction depth generalizing dir with
  | zero =>
    obtain ⟨children, hlist, hchildren⟩ := list_of_directory h hdir
    have hnone : children = [] := by
      apply List.eq_nil_iff_forall_not_mem.2
      intro child hchild
      obtain ⟨hname, node, hnode, -⟩ := hchildren.areIn child hchild
      have hlt := length_entriesUnder_child_lt (areNames_components dir) hname hnode
      exact absurd (Nat.lt_of_lt_of_le hlt hdepth) (Nat.not_lt_zero _)
    subst hnone
    exact ⟨[], ⟨[], hlist, .done⟩, rfl⟩
  | succ depth ih =>
    obtain ⟨children, hlist, hchildren⟩ := list_of_directory h hdir
    rw [walk_succ tree depth dir hlist hchildren.areIn]
    have hinside : ∀ child ∈ children, child.kind = .directory →
        ∃ inside, WalkFrom tree (Met.child dir child).path inside ∧
          tree.walk depth (Path.normalize (Met.child dir child).path) =
            inside.map tree.visitOf := by
      intro child hchild hkind
      obtain ⟨hname, node, hnode, hnodekind⟩ := hchildren.areIn child hchild
      have hlt := length_entriesUnder_child_lt (areNames_components dir) hname hnode
      rw [← components_child dir hname] at hnode hlt
      have hchilddir : node = .directory := by
        cases node <;> simp_all [Node.kind]
      exact ih (hchilddir ▸ hnode) (Nat.le_of_lt_succ (Nat.lt_of_lt_of_le hlt hdepth))
    obtain ⟨met, hwalk, hvisits⟩ := exists_walk hinside
    exact ⟨met, ⟨children, hlist, hwalk⟩, hvisits⟩

/-! ## What a tour of the whole tree amounts to -/

theorem toldSize_eq_heldAt (tree : FileTree) (path : String) :
    tree.toldSize path = heldAt tree.entries (Path.normalize path) := by
  rw [toldSize, stat, heldAt]
  cases tree.entries.get? (Path.normalize path) with
  | none => rfl
  | some node => exact node.size_stat

variable {region : List String → Prop}

/-- The status of what has been met agrees with the listing. -/
theorem Tours.stat_eq (h : Tours tree region met) {m : Met} (hm : m ∈ met) :
    ∃ stat, tree.stat m.path = .ok stat ∧ (stat.isFile ↔ m.kind = .file) ∧
      (stat.isDirectory ↔ m.kind = .directory) := by
  obtain ⟨-, -, node, hnode, hkind⟩ := (h.mem_iff _ _).1 ⟨m, hm, rfl, rfl⟩
  rw [node?, ← Path.normalize] at hnode
  have hstat : tree.stat m.path = .ok node.stat := by
    rw [stat]
    simp only [hnode]
  exact ⟨node.stat, hstat, hkind ▸ node.isFile_stat, hkind ▸ node.isDirectory_stat⟩

/-- A tour of what is below the root meets every other key, each once. -/
theorem Tours.perm_keys (h : IsHierarchy tree.entries) (htour : Tours tree (Below []) met) :
    (met.map fun m => Path.normalize m.path).Perm (tree.keys.filter (· ≠ "/")) := by
  have hnodup : (met.map fun m => Path.normalize m.path).Nodup := by
    rw [List.Nodup, List.pairwise_map]
    apply htour.order.imp
    intro a b hnot heq
    have hsame := ofComponents_injective (areNames_components _) (areNames_components _) heq
    exact hnot (hsame ▸ List.prefix_refl _)
  refine (List.perm_ext_iff_of_nodup hnodup (tree.nodup_keys.filter _)).2 ?_
  intro key
  rw [List.mem_filter, mem_keys_iff, List.mem_map]
  constructor
  · rintro ⟨m, hm, rfl⟩
    obtain ⟨⟨-, hne⟩, -, node, hnode, -⟩ := (htour.mem_iff _ _).1 ⟨m, hm, rfl, rfl⟩
    refine ⟨⟨node, hnode⟩, ?_⟩
    rw [decide_eq_true_iff, ne_eq, Path.normalize,
      ofComponents_eq_root_iff (areNames_components _)]
    exact hne
  · rintro ⟨⟨node, hnode⟩, hroot⟩
    obtain ⟨names, hnames, rfl⟩ := h.normal hnode
    rw [decide_eq_true_iff, ne_eq, ofComponents_eq_root_iff hnames] at hroot
    obtain ⟨m, hm, hplace, -⟩ := (htour.mem_iff names node.kind).2
      ⟨⟨List.nil_prefix, hroot⟩, hnames, node, hnode, rfl⟩
    exact ⟨m, hm, by rw [Path.normalize, hplace]⟩

/-- The files that a tour meets hold all bytes: nothing else holds any. -/
theorem Tours.sum_toldSize (h : IsHierarchy tree.entries) (htour : Tours tree (Below []) met) :
    ((met.filter fun m => m.kind = .file).map fun m => tree.toldSize m.path).sum =
      tree.bytesHeld := by
  have hfiles : ∀ m ∈ met, decide (m.kind = .file) = false → tree.toldSize m.path = 0 := by
    intro m hm hkind
    obtain ⟨-, -, node, hnode, hnodekind⟩ := (htour.mem_iff _ _).1 ⟨m, hm, rfl, rfl⟩
    rw [node?, ← Path.normalize] at hnode
    rw [toldSize_eq_heldAt, heldAt, hnode]
    cases node with
    | file data => simp [← hnodekind, Node.kind] at hkind
    | directory => rfl
    | special => rfl
  have hroot : ∀ key ∈ tree.keys, decide (key ≠ "/") = false → heldAt tree.entries key = 0 := by
    intro key _ hkey
    have hkey : key = "/" := by simpa using hkey
    rw [heldAt, hkey, h.root]
    rfl
  calc ((met.filter fun m => m.kind = .file).map fun m => tree.toldSize m.path).sum
      = (met.map fun m => tree.toldSize m.path).sum := sum_map_filter hfiles
    _ = ((met.map fun m => Path.normalize m.path).map (heldAt tree.entries)).sum := by
        rw [List.map_map]
        simp only [Function.comp_def, toldSize_eq_heldAt]
    _ = ((tree.keys.filter (· ≠ "/")).map (heldAt tree.entries)).sum :=
        ((htour.perm_keys h).map _).sum_nat
    _ = (tree.keys.map (heldAt tree.entries)).sum := sum_map_filter hroot
    _ = tree.bytesHeld := (bytesHeld_eq_sum_keys tree).symm

/-! ## Trees that operations can reach -/

/-- **A walk sees the whole tree.**  In every tree that operations can reach, the walk from the root
ends, with one result.  It meets every other key once and nothing else; the status of what it meets
agrees with the kind in the listing; nothing comes after something that it is above; and the files
that it meets hold all bytes of the tree.  `visits` tells the same. -/
theorem walk_of_reached_tree (quota : UInt64) (operations : List Operation) :
    let tree := ((rootOnly quota).performAll operations).1
    ∃ met : List Met,
      (∀ other, WalkFrom tree "/" other ↔ other = met) ∧
      (met.map fun m => Path.normalize m.path).Perm (tree.keys.filter (· ≠ "/")) ∧
      (∀ m ∈ met, ∃ stat, tree.stat m.path = .ok stat ∧ (stat.isFile ↔ m.kind = .file) ∧
        (stat.isDirectory ↔ m.kind = .directory)) ∧
      (met.Pairwise fun earlier later => ¬components later.path <+: components earlier.path) ∧
      ((met.filter fun m => m.kind = .file).map fun m => tree.toldSize m.path).sum =
        tree.bytesHeld ∧
      tree.visits = met.map tree.visitOf := by
  intro tree
  have h : IsHierarchy tree.entries := isHierarchy_reached quota operations
  have hroot : components "/" = [] := by decide
  have hnorm : Path.normalize "/" = "/" := by rw [Path.normalize, hroot, ofComponents_nil]
  have hdir : tree.node? (components "/") = some .directory := by
    rw [hroot, node?, ofComponents_nil]
    exact h.root
  have hdepth : (tree.entries.entriesUnder (childPrefix (Path.normalize "/"))).length ≤
      tree.entries.entries.length := by
    rw [Table.entriesUnder_eq_filter]
    exact List.length_filter_le ..
  obtain ⟨met, hwalk, hvisits⟩ := exists_walkFrom h _ hdir hdepth
  have htour := hwalk.tours h
  rw [hroot] at htour
  refine ⟨met, ?_, htour.perm_keys h, fun m hm => htour.stat_eq hm, htour.order,
    htour.sum_toldSize h, ?_⟩
  · intro other
    constructor
    · intro hother
      exact hwalk.unique hother
    · rintro rfl
      exact hwalk
  · rw [visits, ← hvisits, hnorm]

end PluginBridge.FileTree
