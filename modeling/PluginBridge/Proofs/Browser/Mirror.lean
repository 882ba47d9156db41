import Mathlib.Data.List.Basic
import PluginBridge.Browser.Simulated
import PluginBridge.Proofs.Storage.Visits

/-!
# Mirrored trees

`Mirrors` says what is assumed of a browser whose private storage holds the same tree as the storage
in memory.  Which handle stands for which place is the browser's own affair: the assumption is about
any relation between handles and lists of names.

`mirrors_copy` shows that the assumption can be met, by the simulated browser over a copy of the
tree: of every tree, but for names that lead out of a directory and files that a double cannot
measure.
-/

namespace PluginBridge

open PluginBridge.Path

namespace Browser

/-! ## The assumption -/

section

variable {η : Type} [Handle η]

/-- What a browser answers when it is asked for a child of a kind: a handle of it, if what stands
there is of this kind, and otherwise it rejects. -/
def Gives (answer : Except Value (Settled η)) (kind : NodeKind) (node : Option Node)
    (standsForIt : η → Prop) : Prop :=
  (node.map Node.kind = some kind ∧
    ∃ child, answer = .ok (.handle child) ∧ Handle.kind child = kind ∧ standsForIt child) ∨
  (node.map Node.kind ≠ some kind ∧ ∃ reason, answer = .error reason)

/-- A handle as a child of the directory that shows it. -/
def Handle.toChild (handle : η) : Child :=
  ⟨Handle.name handle, Handle.kind handle⟩

/-- A browser with fixed answers shows a tree. -/
structure Mirrors (answer : Query η → Except Value (Settled η)) (root : η) (tree : FileTree)
    (StandsFor : η → List String → Prop) : Prop where
  root : StandsFor root []
  /-- A directory gives out a directory exactly if it has one of that name. -/
  directory : ∀ {handle names name}, StandsFor handle names →
    tree.node? names = some .directory → IsName name →
    Gives (answer (.directory handle name)) .directory (tree.node? (names ++ [name]))
      (StandsFor · (names ++ [name]))
  /-- A directory gives out a file exactly if it has one of that name. -/
  file : ∀ {handle names name}, StandsFor handle names →
    tree.node? names = some .directory → IsName name →
    Gives (answer (.file handle name)) .file (tree.node? (names ++ [name]))
      (StandsFor · (names ++ [name]))
  /-- The size of a file is told as a number of the page. -/
  contents : ∀ {handle names data}, StandsFor handle names →
    tree.node? names = some (.file data) →
    answer (.contents handle) = .ok (.file (.ofNat data.size))
  size_lt : ∀ {names data}, tree.node? names = some (.file data) → data.size < 2 ^ 53
  /-- A directory shows its children, each once, with their kinds. -/
  children : ∀ {handle names}, StandsFor handle names → tree.node? names = some .directory →
    ∃ handles : List η, answer (.children handle) = .ok (.listing (handles.map .handle)) ∧
      (handles.map Handle.name).Nodup ∧
      ∀ child : Child, child ∈ handles.map Handle.toChild ↔ IsName child.name ∧
        ∃ node, tree.node? (names ++ [child.name]) = some node ∧ node.kind = child.kind

end

/-! ## A copy of a tree in the simulated browser -/

/-- The entry for a node, with what is below it. -/
def StoredNode.ofNode (below : List (String × StoredNode)) : Node → StoredNode
  | .file data => .file (.ofNat data.size) none none
  | .directory => .directory below none none
  | .special => .other none

namespace StoredTree

/-- The entries in the directory of `names`, with what is up to `depth` steps below it. -/
def copyBelow (tree : FileTree) : (depth : Nat) → (names : List String) → List (String × StoredNode)
  | 0, _ => []
  | depth + 1, names =>
    match tree.list (ofComponents names) with
    | .error _ => []
    | .ok children => children.map fun child =>
      let place := names ++ [child.name]
      (child.name, .ofNode (copyBelow tree depth place) ((tree.node? place).getD .special))

/-- The entry for what stands at a place, with what is up to `depth` steps below it. -/
def copyAt (tree : FileTree) (depth : Nat) (place : List String) : StoredNode :=
  .ofNode (copyBelow tree depth place) ((tree.node? place).getD .special)

/-- A copy of a tree.  No path is deeper than the number of entries. -/
def copy (tree : FileTree) : StoredTree :=
  { entries := copyBelow tree tree.entries.entries.length [] }

variable {tree : FileTree} {names : List String} {depth : Nat}

theorem copyAt_of_node {node : Node} (hnode : tree.node? names = some node) :
    copyAt tree depth names = .ofNode (copyBelow tree depth names) node := by
  rw [copyAt, hnode, Option.getD_some]

theorem lookup_copyAt : (copyAt tree depth names).lookup = none := by
  rw [copyAt]
  cases (tree.node? names).getD .special <;> rfl

theorem kind_copyAt {node : Node} (hnode : tree.node? names = some node) :
    (copyAt tree depth names).kind = node.kind := by
  rw [copyAt_of_node hnode]
  cases node <;> rfl

/-- The number of keys below the directory of `names`. -/
def keysBelow (tree : FileTree) (names : List String) : Nat :=
  (tree.entries.entriesUnder (childPrefix (ofComponents names))).length

/-- The copy of a directory that is deep enough shows its children, each with a copy below it that
is deep enough. -/
theorem exists_copyBelow (h : IsHierarchy tree.entries) (hnames : AreNames names)
    (hdir : tree.node? names = some .directory) (hdepth : keysBelow tree names ≤ depth) :
    ∃ children deeper, tree.AreChildren names children ∧
      copyBelow tree depth names =
        children.map (fun child => (child.name, copyAt tree deeper (names ++ [child.name]))) ∧
      ∀ child ∈ children, keysBelow tree (names ++ [child.name]) ≤ deeper := by
  have hcomponents : components (ofComponents names) = names := components_ofComponents hnames
  rw [← hcomponents] at hdir
  obtain ⟨children, hlist, hchildren⟩ := FileTree.list_of_directory h hdir
  rw [hcomponents] at hchildren
  have hfewer : ∀ child ∈ children,
      keysBelow tree (names ++ [child.name]) < keysBelow tree names := by
    intro child hchild
    obtain ⟨hname, node, hnode, -⟩ := (hchildren.mem_iff child).1 hchild
    exact FileTree.length_entriesUnder_child_lt hnames hname hnode
  cases depth with
  | zero =>
    -- Without keys below it a directory has no children.
    have hnil : children = [] := by
      apply List.eq_nil_iff_forall_not_mem.2
      intro child hchild
      have := hfewer child hchild
      omega
    subst hnil
    exact ⟨[], 0, hchildren, rfl, fun child hchild => by cases hchild⟩
  | succ depth =>
    refine ⟨children, depth, hchildren, ?_, ?_⟩
    · rw [copyBelow, hlist]
      rfl
    · intro child hchild
      have := hfewer child hchild
      omega

/-- A handle of the copy: of the root, or of an entry with a deep enough copy below it. -/
inductive IsCopy (tree : FileTree) : TreeHandle → List String → Prop where
  | root : IsCopy tree .root []
  | entry {names : List String} {name : String} {depth : Nat} (hnames : AreNames (names ++ [name]))
      (hdepth : keysBelow tree (names ++ [name]) ≤ depth) :
      IsCopy tree (.entry name (copyAt tree depth (names ++ [name]))) (names ++ [name])

theorem IsCopy.areNames {handle : TreeHandle} (hcopy : IsCopy tree handle names) :
    AreNames names := by
  cases hcopy with
  | root => exact areNames_nil
  | entry hnames hdepth => exact hnames

/-- What a directory of the copy shows. -/
theorem IsCopy.exists_children (h : IsHierarchy tree.entries) {handle : TreeHandle}
    (hcopy : IsCopy tree handle names) (hdir : tree.node? names = some .directory) :
    ∃ children deeper, tree.AreChildren names children ∧
      (copy tree).children handle =
        children.map (fun child => (child.name, copyAt tree deeper (names ++ [child.name]))) ∧
      (∀ child ∈ children, keysBelow tree (names ++ [child.name]) ≤ deeper) ∧
      (copy tree).list handle = .ok (.listing (((copy tree).children handle).map fun child =>
        .handle (.entry child.1 child.2))) := by
  cases hcopy with
  | root =>
    have hdepth : keysBelow tree [] ≤ tree.entries.entries.length := by
      rw [keysBelow, Table.entriesUnder_eq_filter]
      exact List.length_filter_le ..
    obtain ⟨children, deeper, hchildren, hcopied, hdeeper⟩ :=
      exists_copyBelow h areNames_nil hdir hdepth
    exact ⟨children, deeper, hchildren, hcopied, hdeeper, rfl⟩
  | entry hnames hdepth =>
    obtain ⟨children, deeper, hchildren, hcopied, hdeeper⟩ :=
      exists_copyBelow h hnames hdir hdepth
    rw [copyAt_of_node hdir]
    exact ⟨children, deeper, hchildren, hcopied, hdeeper, rfl⟩

/-- In a directory of the copy, a name finds the copy of what stands there. -/
theorem IsCopy.exists_lookup (h : IsHierarchy tree.entries) {handle : TreeHandle}
    (hcopy : IsCopy tree handle names) (hdir : tree.node? names = some .directory) {name : String}
    (hname : IsName name) :
    ∃ deeper, ((copy tree).children handle).lookup name =
        (tree.node? (names ++ [name])).map (fun _ => copyAt tree deeper (names ++ [name])) ∧
      ∀ node, tree.node? (names ++ [name]) = some node →
        IsCopy tree (.entry name (copyAt tree deeper (names ++ [name]))) (names ++ [name]) := by
  obtain ⟨children, deeper, hchildren, hcopied, hdeeper, -⟩ := hcopy.exists_children h hdir
  refine ⟨deeper, ?_, ?_⟩
  · rw [hcopied]
    cases hnode : tree.node? (names ++ [name]) with
    | none =>
      rw [Option.map_none, List.lookup_eq_none_iff, List.forall_mem_map]
      intro child hchild
      obtain ⟨-, node, hchildnode, -⟩ := (hchildren.mem_iff child).1 hchild
      rw [bne_iff_ne]
      rintro rfl
      rw [hnode] at hchildnode
      cases hchildnode
    | some node =>
      have hmem : ⟨name, node.kind⟩ ∈ children :=
        (hchildren.mem_iff _).2 ⟨hname, node, hnode, rfl⟩
      have hgraph := List.lookup_graph (fun n => copyAt tree deeper (names ++ [n]))
        (List.mem_map_of_mem (f := Child.name) hmem)
      rw [List.map_map] at hgraph
      exact hgraph
  · intro node hnode
    have hmem : ⟨name, node.kind⟩ ∈ children :=
      (hchildren.mem_iff _).2 ⟨hname, node, hnode, rfl⟩
    have hdepth : keysBelow tree (names ++ [name]) ≤ deeper := hdeeper ⟨name, node.kind⟩ hmem
    exact .entry (areNames_concat.2 ⟨hcopy.areNames, hname⟩) hdepth

theorem isAllowed_of_isName {name : String} (hname : IsName name) (hup : name ≠ "..") :
    isAllowed name = true := by
  obtain ⟨hne, hdot, hslash⟩ := isName_iff.1 hname
  simp [isAllowed, hne, hdot, hup, hslash]

/-- The copy gives out a child of the right kind and no other. -/
theorem gives_find (h : IsHierarchy tree.entries) {handle : TreeHandle} {name : String}
    (hcopy : IsCopy tree handle names) (hdir : tree.node? names = some .directory)
    (hname : IsName name)
    (hup : ∀ key node, tree.entries.get? key = some node → ".." ∉ components key)
    (kind : NodeKind) :
    Gives ((copy tree).find handle name kind) kind (tree.node? (names ++ [name]))
      (IsCopy tree · (names ++ [name])) := by
  obtain ⟨deeper, hlookup, hstands⟩ := hcopy.exists_lookup h hdir hname
  cases hnode : tree.node? (names ++ [name]) with
  | none =>
    rw [hnode, Option.map_none] at hlookup
    refine .inr ⟨by simp, ?_⟩
    rw [find, hlookup]
    split <;> exact ⟨_, rfl⟩
  | some node =>
    have hallowed : isAllowed name = true := by
      apply isAllowed_of_isName hname
      rintro rfl
      apply hup _ node hnode
      rw [components_ofComponents (areNames_concat.2 ⟨hcopy.areNames, hname⟩)]
      simp
    rw [hnode, Option.map_some] at hlookup
    have hfind : (copy tree).find handle name kind =
        if node.kind = kind then
          .ok (.handle (.entry name (copyAt tree deeper (names ++ [name]))))
        else .error (.error "TypeMismatchError" "Not of the requested type.") := by
      simp [find, hallowed, hlookup, lookup_copyAt, kind_copyAt hnode]
    by_cases hkind : node.kind = kind
    · refine .inl ⟨congrArg some hkind, _, hfind.trans (if_pos hkind), ?_, hstands node hnode⟩
      exact (kind_copyAt hnode).trans hkind
    · exact .inr ⟨fun heq => hkind (Option.some.inj heq), _, hfind.trans (if_neg hkind)⟩

/-- **The assumption can be met.**  The simulated browser over a copy of a tree mirrors it, if no
name leads out of its directory and the size of every file is exact as a number of the page. -/
theorem mirrors_copy (h : IsHierarchy tree.entries)
    (hup : ∀ key node, tree.entries.get? key = some node → ".." ∉ components key)
    (hsize : ∀ key data, tree.entries.get? key = some (.file data) → data.size < 2 ^ 53) :
    Mirrors (copy tree).answer .root tree (IsCopy tree) where
  root := .root
  directory := fun hcopy hdir hname => gives_find h hcopy hdir hname hup .directory
  file := fun hcopy hdir hname => gives_find h hcopy hdir hname hup .file
  contents := by
    intro handle names data hcopy hfile
    cases hcopy with
    | root =>
      rw [FileTree.node?_nil h] at hfile
      cases hfile
    | entry hnames hdepth =>
      rw [copyAt_of_node hfile]
      rfl
  size_lt := hsize _ _
  children := by
    intro handle names hcopy hdir
    obtain ⟨children, deeper, hchildren, hcopied, -, hlist⟩ := hcopy.exists_children h hdir
    refine ⟨((copy tree).children handle).map fun child => .entry child.1 child.2, ?_, ?_, ?_⟩
    · rw [answer, hlist, List.map_map]
      rfl
    · rw [hcopied, List.map_map, List.map_map]
      exact hchildren.nodup_names
    · have hshown : (((copy tree).children handle).map fun child =>
          TreeHandle.entry child.1 child.2).map Handle.toChild = children := by
        rw [hcopied, List.map_map, List.map_map]
        refine (List.map_congr_left fun child hchild => ?_).trans (List.map_id children)
        obtain ⟨-, node, hnode, hkind⟩ := (hchildren.mem_iff child).1 hchild
        have hsame : (copyAt tree deeper (names ++ [child.name])).kind = child.kind :=
          (kind_copyAt hnode).trans hkind
        exact congrArg (Child.mk child.name) hsame
      rw [hshown]
      exact hchildren.mem_iff

end StoredTree

end Browser

end PluginBridge
