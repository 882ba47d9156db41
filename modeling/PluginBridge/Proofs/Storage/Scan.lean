import PluginBridge.Proofs.Storage.Listing
import PluginBridge.Proofs.Text.ByteOrder

/-!
# Listings as scans of the keys

A listing looks at keys as texts: it goes through those that begin with the directory's text and
keeps those that go on with one name.  In a tree these are the keys that have one component more
than the directory (`one_more_iff`), wherever they stand in the order; so the listing of a directory
says of every key in the tree whether it is a child: `listing_of_reached_tree`.
-/

namespace PluginBridge.FileTree

open PluginBridge.Path

variable {tree : FileTree} {names : List String}

/-- A key has one component more than a directory exactly if it is the directory's text and a
name. -/
theorem one_more_iff (h : IsHierarchy tree.entries) (hnames : AreNames names) {key name : String}
    {node : Node} (hkey : tree.entries.get? key = some node) :
    components key = names ++ [name] ↔
      key = childPrefix (ofComponents names) ++ name ∧ name ≠ "" ∧ '/' ∉ name.toList := by
  rw [childPrefix_ofComponents hnames]
  constructor
  · intro hone
    obtain ⟨others, hothers, rfl⟩ := h.normal hkey
    rw [components_ofComponents hothers] at hone
    subst hone
    obtain ⟨-, hname⟩ := areNames_concat.1 hothers
    rw [ofComponents_of_ne_nil (by simp), slashed_concat]
    exact ⟨rfl, (isName_iff.1 hname).1, hname.2⟩
  · rintro ⟨rfl, hne, hslash⟩
    obtain ⟨hname, -⟩ := (get?_append_name_iff h hnames).1 ⟨hkey, hne, hslash⟩
    rw [← slashed_concat, ← ofComponents_of_ne_nil (by simp),
      components_ofComponents (areNames_concat.2 ⟨hnames, hname⟩)]

/-- What stands directly in a directory, told by its key. -/
theorem AreChildren.mem_iff_key (h : IsHierarchy tree.entries) {children : List Child}
    (hchildren : tree.AreChildren names children) (hnames : AreNames names) (child : Child) :
    child ∈ children ↔ ∃ key node, tree.entries.get? key = some node ∧
      components key = names ++ [child.name] ∧ node.kind = child.kind := by
  rw [hchildren.mem_iff]
  constructor
  · rintro ⟨hname, node, hnode, hkind⟩
    exact ⟨_, node, hnode, components_ofComponents (areNames_concat.2 ⟨hnames, hname⟩), hkind⟩
  · rintro ⟨key, node, hkey, hone, hkind⟩
    obtain ⟨others, hothers, rfl⟩ := h.normal hkey
    rw [components_ofComponents hothers] at hone
    subst hone
    exact ⟨(areNames_concat.1 hothers).2, node, hkey, hkind⟩

/-- **A listing is the children.**  A path is listed exactly if a directory stands at it.  Its
listing has one entry for each key of the tree with one component more, under that component and
with the node's kind, and no other; so it shows neither a key that lies deeper nor one that only
begins with the same characters.  The names are not empty, hold no slash, and increase in the order
of their bytes.  The scan stops at the first key that does not begin with the directory's text, and
misses none of those that do. -/
theorem listing_of_reached_tree (quota : UInt64) (operations : List Operation) (path : String) :
    let tree := ((rootOnly quota).performAll operations).1
    let start := childPrefix (Path.normalize path)
    ((∃ children, tree.list path = .ok children) ↔
      tree.entries.get? (Path.normalize path) = some .directory) ∧
    (tree.entries.entriesUnder start =
      tree.entries.entries.filter fun e => start.toList.isPrefixOf e.1.toList) ∧
    ∀ children, tree.list path = .ok children →
      (∀ child, child ∈ children ↔ ∃ key node, tree.entries.get? key = some node ∧
        components key = components path ++ [child.name] ∧ node.kind = child.kind) ∧
      (∀ key node, tree.entries.get? key = some node →
        ((∃ child ∈ children, key = start ++ child.name) ↔
          ∃ name, components key = components path ++ [name])) ∧
      (∀ child ∈ children, child.name ≠ "" ∧ '/' ∉ child.name.toList) ∧
      (children.map Child.name).Nodup ∧
      (children.map fun child => Text.utf8 child.name).Pairwise (· < ·) := by
  intro tree start
  have h : IsHierarchy tree.entries := isHierarchy_reached quota operations
  have hnames := areNames_components path
  refine ⟨⟨?_, ?_⟩, Table.entriesUnder_eq_filter _ _, ?_⟩
  · rintro ⟨children, hlist⟩
    exact directory_of_list hlist
  · intro hdir
    obtain ⟨children, hlist, -⟩ := list_of_directory h hdir
    exact ⟨children, hlist⟩
  intro children hlist
  have hchildren := areChildren_of_list h hlist
  have hmem := hchildren.mem_iff_key h hnames
  refine ⟨hmem, ?_, ?_, hchildren.nodup_names, ?_⟩
  · intro key node hkey
    constructor
    · rintro ⟨child, hchild, heq⟩
      obtain ⟨hname, -⟩ := (hchildren.mem_iff child).1 hchild
      exact ⟨child.name,
        (one_more_iff h hnames hkey).2 ⟨heq, (isName_iff.1 hname).1, hname.2⟩⟩
    · rintro ⟨name, hone⟩
      exact ⟨⟨name, node.kind⟩, (hmem _).2 ⟨key, node, hkey, hone, rfl⟩,
        ((one_more_iff h hnames hkey).1 hone).1⟩
  · intro child hchild
    obtain ⟨hname, -⟩ := (hchildren.mem_iff child).1 hchild
    exact ⟨(isName_iff.1 hname).1, hname.2⟩
  · exact List.pairwise_map.2 (hchildren.sorted.imp fun hlt => Text.utf8_lt_iff.2 hlt)

end PluginBridge.FileTree
