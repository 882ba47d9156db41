import PluginBridge.Proofs.Storage.Reachable

/-!
# Listings

A directory is listed from the stretch of keys that begin with its spelling and a slash.  On a tree
this gives exactly what stands directly in the directory, each once and in name order
(`list_of_directory`); what is no directory is refused (`list_of_not_directory`).  The status of a
path, which is looked up another way, agrees (`stat_eq_directory_iff`).
-/

namespace PluginBridge

/-- Texts with a common beginning are ordered as what follows it. -/
theorem lt_of_append_lt_append {start a b : String} (h : start ++ a < start ++ b) : a < b := by
  suffices ∀ front : List Char, front ++ a.toList < front ++ b.toList → a.toList < b.toList by
    rw [String.lt_iff, String.toList_append, String.toList_append] at h
    exact String.lt_iff.2 (this _ h)
  intro front hfront
  induction front with
  | nil => exact hfront
  | cons c front ih =>
    rcases List.cons_lt_cons_iff.1 hfront with hlt | ⟨-, hrest⟩
    · exact absurd hlt (Char.lt_irrefl _)
    · exact ih hrest

namespace FileTree

open PluginBridge.Path

variable {tree : FileTree} {names : List String}

/-- What stands in the place of a list of names. -/
def node? (tree : FileTree) (names : List String) : Option Node :=
  tree.entries.get? (ofComponents names)

/-- Without any names it is the root. -/
theorem node?_nil (h : IsHierarchy tree.entries) : tree.node? [] = some .directory := by
  rw [node?, ofComponents_nil]
  exact h.root

/-- On the way from a place to something below it stands a child of the place. -/
theorem exists_child_of_below (h : IsHierarchy tree.entries) {place : List String} {node : Node}
    (hplace : AreNames place) (hnode : tree.node? place = some node) (hpre : names <+: place)
    (hne : place ≠ names) :
    ∃ name node', IsName name ∧ names ++ [name] <+: place ∧
      tree.node? (names ++ [name]) = some node' := by
  obtain ⟨more, rfl⟩ := hpre
  cases more with
  | nil => exact absurd (List.append_nil names) hne
  | cons name more =>
    have hchild : names ++ [name] <+: names ++ name :: more := by simp
    have hname : IsName name := hplace name (by simp)
    -- What stands at the child's place is meant itself, or it is a directory above.
    by_cases heq : names ++ [name] = names ++ name :: more
    · exact ⟨name, node, hname, hchild, heq ▸ hnode⟩
    · exact ⟨name, _, hname, hchild, h.directory_above hplace hnode hchild heq⟩

/-- The nodes that stand directly in the directory of `names`, each once, by name. -/
structure AreChildren (tree : FileTree) (names : List String) (children : List Child) : Prop where
  sorted : children.Pairwise fun a b => a.name < b.name
  mem_iff : ∀ child, child ∈ children ↔ IsName child.name ∧
    ∃ node, tree.node? (names ++ [child.name]) = some node ∧ node.kind = child.kind

theorem AreChildren.nodup_names {children : List Child} (h : tree.AreChildren names children) :
    (children.map Child.name).Nodup := by
  refine List.pairwise_map.2 (h.sorted.imp ?_)
  intro a b hlt heq
  rw [heq] at hlt
  exact String.lt_irrefl _ hlt

/-! ## One child -/

theorem child?_eq_some_iff {start key : String} {node : Node} {child : Child}
    (hstart : start.toList <+: key.toList) :
    child? start (key, node) = some child ↔
      key = start ++ child.name ∧ child.name ≠ "" ∧ '/' ∉ child.name.toList ∧
        node.kind = child.kind := by
  obtain ⟨rest, hrest⟩ := hstart
  have hkey : key = start ++ String.ofList rest := by
    apply String.toList_injective
    simpa using hrest.symm
  have hdrop : key.toList.drop start.length = rest := by
    rw [← hrest, ← String.length_toList, List.drop_left]
  simp only [child?, hdrop]
  constructor
  · intro h
    split at h
    · rename_i hname
      cases h
      have hne : String.ofList rest ≠ "" := fun heq => hname.1 (by
        simpa using congrArg String.toList heq)
      exact ⟨hkey, hne, by simpa using hname.2, rfl⟩
    · cases h
  · rintro ⟨heq, hne, hslash, hkind⟩
    have hname : rest = child.name.toList := by
      rw [hkey] at heq
      have := congrArg String.toList heq
      simpa using this
    subst hname
    have hnil : child.name.toList ≠ [] := fun hnil => hne (String.toList_injective hnil)
    rw [if_pos ⟨hnil, hslash⟩, String.ofList_toList, hkind]

/-- The keys that begin with a directory and a slash and go on with one name are those of its
children. -/
theorem get?_append_name_iff (h : IsHierarchy tree.entries) (hnames : AreNames names)
    {name : String} {node : Node} :
    tree.entries.get? (slashed names ++ "/" ++ name) = some node ∧ name ≠ "" ∧
        '/' ∉ name.toList ↔
      IsName name ∧ tree.node? (names ++ [name]) = some node := by
  rw [node?, ofComponents_of_ne_nil (by simp), slashed_concat]
  constructor
  · rintro ⟨hget, hne, hslash⟩
    refine ⟨?_, hget⟩
    -- The key is a normal spelling, so its last name is one of the names of that spelling.
    obtain ⟨others, hothers, hkey⟩ := h.normal hget
    have hnil : others ≠ [] := by
      rintro rfl
      have hlist := congrArg String.toList hkey
      simp [List.append_eq_singleton_iff] at hlist
      exact hne hlist.2
    rw [ofComponents_of_ne_nil hnil, ← slashed_concat] at hkey
    have heq := slashed_injective (by
      intro n hn
      rcases List.mem_append.1 hn with hn | hn
      · exact (hnames n hn).2
      · rw [List.mem_singleton.1 hn]
        exact hslash) (fun n hn => (hothers n hn).2) hkey
    exact hothers name (heq ▸ by simp)
  · rintro ⟨hname, hget⟩
    exact ⟨hget, (isName_iff.1 hname).1, hname.2⟩

/-! ## The whole listing -/

/-- The children read off the keys of a directory are the nodes directly in it, by name. -/
theorem areChildren_filterMap (h : IsHierarchy tree.entries) (hnames : AreNames names) :
    tree.AreChildren names
      ((tree.entries.entriesUnder (slashed names ++ "/")).filterMap
        (child? (slashed names ++ "/"))) := by
  refine ⟨?_, ?_⟩
  · rw [List.pairwise_filterMap, Table.entriesUnder_eq_filter]
    refine (List.Pairwise.filter _ tree.entries.sorted).imp_of_mem ?_
    intro a b ha hb hlt child hchild child' hchild'
    have hua := SortedList.isUnder_iff.1 (List.mem_filter.1 ha).2
    have hub := SortedList.isUnder_iff.1 (List.mem_filter.1 hb).2
    rw [((child?_eq_some_iff hua).1 hchild).1, ((child?_eq_some_iff hub).1 hchild').1] at hlt
    exact lt_of_append_lt_append hlt
  · intro child
    rw [List.mem_filterMap]
    constructor
    · rintro ⟨⟨key, node⟩, hmem, hchild⟩
      obtain ⟨hget, hunder⟩ := Table.mem_entriesUnder_iff.1 hmem
      obtain ⟨rfl, hne, hslash, hkind⟩ := (child?_eq_some_iff hunder).1 hchild
      obtain ⟨hname, hnode⟩ := (get?_append_name_iff h hnames).1 ⟨hget, hne, hslash⟩
      exact ⟨hname, node, hnode, hkind⟩
    · rintro ⟨hname, node, hnode, hkind⟩
      obtain ⟨hget, hne, hslash⟩ := (get?_append_name_iff h hnames).2 ⟨hname, hnode⟩
      have hunder : (slashed names ++ "/").toList <+:
          (slashed names ++ "/" ++ child.name).toList := by simp
      refine ⟨(slashed names ++ "/" ++ child.name, node), ?_, ?_⟩
      · exact Table.mem_entriesUnder_iff.2 ⟨hget, hunder⟩
      · exact (child?_eq_some_iff hunder).2 ⟨rfl, hne, hslash, hkind⟩

/-- A directory is listed by exactly what stands directly in it. -/
theorem list_of_directory (h : IsHierarchy tree.entries) {path : String}
    (hdir : tree.node? (components path) = some .directory) :
    ∃ children, tree.list path = .ok children ∧
      tree.AreChildren (components path) children := by
  refine ⟨_, ?_, areChildren_filterMap h (areNames_components path)⟩
  rw [node?, ← Path.normalize] at hdir
  rw [list]
  simp only [hdir]
  rw [Path.normalize, childPrefix_ofComponents (areNames_components path)]

/-- What is no directory is not listed. -/
theorem list_of_not_directory {path : String}
    (hdir : tree.node? (components path) ≠ some .directory) :
    ∃ err, tree.list path = .error err := by
  rw [node?, ← Path.normalize] at hdir
  rw [list]
  cases hget : tree.entries.get? (Path.normalize path) with
  | none => exact ⟨_, rfl⟩
  | some node =>
    cases node with
    | directory => exact absurd hget hdir
    | file data => exact ⟨_, rfl⟩
    | special => exact ⟨_, rfl⟩

/-- Only a directory is listed. -/
theorem directory_of_list {path : String} {children : List Child}
    (hlist : tree.list path = .ok children) :
    tree.entries.get? (Path.normalize path) = some .directory := by
  apply Classical.byContradiction
  intro hdir
  obtain ⟨err, hrefused⟩ := list_of_not_directory hdir
  cases hlist.symm.trans hrefused

/-- A listing that succeeds gives the children. -/
theorem areChildren_of_list (h : IsHierarchy tree.entries) {path : String}
    {children : List Child} (hlist : tree.list path = .ok children) :
    tree.AreChildren (components path) children := by
  obtain ⟨children', hlist', hchildren⟩ := list_of_directory h (directory_of_list hlist)
  rwa [Except.ok.inj (hlist.symm.trans hlist')]

theorem stat_of_node {path : String} {node : Node}
    (hnode : tree.node? (components path) = some node) : tree.stat path = .ok node.stat := by
  rw [node?, ← Path.normalize] at hnode
  rw [stat]
  simp only [hnode]

/-- Where nothing stands, there is no status. -/
theorem stat_of_missing {path : String} (hnode : tree.node? (components path) = none) :
    ∃ err, tree.stat path = .error err := by
  rw [node?, ← Path.normalize] at hnode
  rw [stat]
  simp only [hnode]
  exact ⟨_, rfl⟩

/-- Only a directory has the status of one. -/
theorem stat_eq_directory_iff {path : String} :
    (∃ stat, tree.stat path = .ok stat ∧ stat.isDirectory) ↔
      tree.node? (components path) = some .directory := by
  rw [node?, ← Path.normalize, stat]
  cases hget : tree.entries.get? (Path.normalize path) with
  | none => simp
  | some node => cases node <;> simp [Node.stat, NodeStat.file, NodeStat.directory, NodeStat.other]

end FileTree

end PluginBridge
