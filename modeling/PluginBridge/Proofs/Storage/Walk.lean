import PluginBridge.Proofs.Storage.Listing

/-!
# Walks through a tree

A walk knows of a tree only what listings tell: it lists a directory, takes the children in turn,
and walks through each one that is listed as a directory before it goes on.  `Walk` is that rule,
without a bound on its depth.

`Tours` says of what has been met that it is all that stands in a region, each once, and nothing
before the directory that it is in.  `Walk.tours` proves it along the rule: a tour of a child and
one of its later siblings make one of both, because their places are apart.
-/

namespace PluginBridge.FileTree

open PluginBridge.Path

/-! ## The rule -/

/-- What a walk meets: a path, and the kind under which it is listed. -/
structure Met where
  path : String
  kind : NodeKind

/-- What a walk meets when it comes to a child of `dir`. -/
def Met.child (dir : String) (child : Child) : Met :=
  { path := dir ++ "/" ++ child.name, kind := child.kind }

/-- What is met by a walk that still has to see `children` in the directory `dir`. -/
inductive Walk (tree : FileTree) : (dir : String) → List Child → List Met → Prop where
  | done {dir : String} : Walk tree dir [] []
  /-- A child that is no directory is passed by. -/
  | pass {dir : String} {child : Child} {rest : List Child} {met : List Met}
      (hkind : child.kind ≠ .directory) (hrest : Walk tree dir rest met) :
      Walk tree dir (child :: rest) (Met.child dir child :: met)
  /-- A directory is listed, and all that is in it is seen before the next child. -/
  | enter {dir : String} {child : Child} {rest children : List Child} {inside met : List Met}
      (hkind : child.kind = .directory)
      (hlist : tree.list (Met.child dir child).path = .ok children)
      (hinside : Walk tree (Met.child dir child).path children inside)
      (hrest : Walk tree dir rest met) :
      Walk tree dir (child :: rest) (Met.child dir child :: inside ++ met)

/-- What is met by a walk that begins with listing `dir`. -/
def WalkFrom (tree : FileTree) (dir : String) (met : List Met) : Prop :=
  ∃ children, tree.list dir = .ok children ∧ Walk tree dir children met

variable {tree : FileTree} {dir : String} {met : List Met}

/-- The rule leaves no choice. -/
theorem Walk.unique {children : List Child} {other : List Met} (h : Walk tree dir children met)
    (hother : Walk tree dir children other) : other = met := by
  induction h generalizing other with
  | done =>
    cases hother
    rfl
  | pass hkind hrest ih =>
    cases hother with
    | pass _ hrest' => rw [ih hrest']
    | enter hdir => exact absurd hdir hkind
  | enter hkind hlist hinside hrest ihinside ihrest =>
    cases hother with
    | pass hkind' => exact absurd hkind hkind'
    | enter _ hlist' hinside' hrest' =>
      have hsame := Except.ok.inj (hlist'.symm.trans hlist)
      subst hsame
      rw [ihinside hinside', ihrest hrest']

theorem WalkFrom.unique {other : List Met} (h : WalkFrom tree dir met)
    (hother : WalkFrom tree dir other) : other = met := by
  obtain ⟨children, hlist, hwalk⟩ := h
  obtain ⟨children', hlist', hwalk'⟩ := hother
  have hsame := Except.ok.inj (hlist'.symm.trans hlist)
  subst hsame
  exact hwalk.unique hwalk'

/-! ## Tours -/

/-- `met` is all that stands in the places of a region, and nothing in it comes after something that
it is above, or that is at the same place. -/
structure Tours (tree : FileTree) (region : List String → Prop) (met : List Met) : Prop where
  mem_iff : ∀ place kind, (∃ m ∈ met, components m.path = place ∧ m.kind = kind) ↔
    region place ∧ AreNames place ∧ ∃ node, tree.node? place = some node ∧ node.kind = kind
  order : met.Pairwise fun earlier later =>
    ¬components later.path <+: components earlier.path

namespace Tours

variable {region other : List String → Prop}

/-- Only the places where something stands matter. -/
theorem congr (h : Tours tree region met)
    (hiff : ∀ place node, AreNames place → tree.node? place = some node →
      (region place ↔ other place)) : Tours tree other met := by
  refine ⟨?_, h.order⟩
  intro place kind
  rw [h.mem_iff]
  constructor
  · rintro ⟨hregion, hnames, node, hnode, hkind⟩
    exact ⟨(hiff place node hnames hnode).1 hregion, hnames, node, hnode, hkind⟩
  · rintro ⟨hother, hnames, node, hnode, hkind⟩
    exact ⟨(hiff place node hnames hnode).2 hother, hnames, node, hnode, hkind⟩

theorem nil (hnone : ∀ place, region place → AreNames place → tree.node? place = none) :
    Tours tree region [] := by
  refine ⟨?_, .nil⟩
  intro place kind
  constructor
  · rintro ⟨m, hm, -⟩
    cases hm
  · rintro ⟨hregion, hnames, node, hnode, -⟩
    rw [hnone place hregion hnames] at hnode
    cases hnode

/-- One thing alone. -/
theorem single {m : Met} {node : Node} (hnode : tree.node? (components m.path) = some node)
    (hkind : node.kind = m.kind) : Tours tree (fun place => place = components m.path) [m] := by
  refine ⟨?_, by simp⟩
  intro place kind
  constructor
  · rintro ⟨m', hm, rfl, rfl⟩
    cases List.mem_singleton.1 hm
    exact ⟨rfl, areNames_components _, node, hnode, hkind⟩
  · rintro ⟨rfl, -, node', hnode', rfl⟩
    refine ⟨m, List.mem_singleton_self m, rfl, ?_⟩
    rw [← hkind, Option.some.inj (hnode.symm.trans hnode')]

/-- One tour after another, if nothing of the second is above the first. -/
theorem append {met' : List Met} (h : Tours tree region met) (h' : Tours tree other met')
    (hapart : ∀ place place', region place → other place' → ¬place' <+: place) :
    Tours tree (fun place => region place ∨ other place) (met ++ met') := by
  refine ⟨?_, ?_⟩
  · intro place kind
    simp only [List.mem_append, or_and_right, exists_or, h.mem_iff, h'.mem_iff]
  · refine List.pairwise_append.2 ⟨h.order, h'.order, ?_⟩
    intro m hm m' hm'
    exact hapart _ _ ((h.mem_iff _ _).1 ⟨m, hm, rfl, rfl⟩).1
      ((h'.mem_iff _ _).1 ⟨m', hm', rfl, rfl⟩).1

end Tours

/-! ## A walk is a tour -/

/-- The places below a directory. -/
def Below (names place : List String) : Prop :=
  names <+: place ∧ place ≠ names

/-- The places of some children of a directory, and all places below them. -/
def InChildren (names : List String) (children : List Child) (place : List String) : Prop :=
  ∃ child ∈ children, names ++ [child.name] <+: place

variable {names : List String} {children rest : List Child} {child : Child}

/-- Below what is no directory is nothing. -/
theorem Tours.nil_below (h : IsHierarchy tree.entries) {node : Node}
    (hnode : tree.node? names = some node) (hkind : node ≠ .directory) :
    Tours tree (Below names) [] := by
  apply Tours.nil
  rintro place ⟨hpre, hne⟩ hplace
  cases hnode' : tree.node? place with
  | none => rfl
  | some node' =>
    have hdir := h.directory_above hplace hnode' hpre (Ne.symm hne)
    exact absurd (Option.some.inj (hnode.symm.trans hdir)) hkind

/-- Whatever is below a directory is one of its children, or below one. -/
theorem Tours.below_of_children (h : IsHierarchy tree.entries)
    (hchildren : tree.AreChildren names children)
    (htour : Tours tree (InChildren names children) met) : Tours tree (Below names) met := by
  apply htour.congr
  intro place node hplace hnode
  constructor
  · rintro ⟨child, hmem, hpre⟩
    refine ⟨(List.prefix_append ..).trans hpre, ?_⟩
    rintro rfl
    have hlength := hpre.length_le
    rw [List.length_append, List.length_singleton] at hlength
    omega
  · rintro ⟨hpre, hne⟩
    obtain ⟨name, node', hname, hchild, hnode'⟩ := exists_child_of_below h hplace hnode hpre hne
    exact ⟨⟨name, node'.kind⟩, (hchildren.mem_iff _).2 ⟨hname, node', hnode', rfl⟩, hchild⟩

/-- What stands at a path comes before what is below it. -/
theorem Tours.cons {m : Met} {node : Node} (hnode : tree.node? (components m.path) = some node)
    (hkind : node.kind = m.kind) (htour : Tours tree (Below (components m.path)) met) :
    Tours tree (components m.path <+: ·) (m :: met) := by
  have happend := (Tours.single hnode hkind).append htour ?_
  · apply happend.congr
    intro place _ _ _
    constructor
    · rintro (rfl | ⟨hpre, -⟩)
      · exact List.prefix_refl _
      · exact hpre
    · intro hpre
      by_cases heq : place = components m.path
      · exact .inl heq
      · exact .inr ⟨hpre, heq⟩
  · rintro place place' rfl ⟨hpre, hne⟩ habove
    exact hne (habove.eq_of_length_le hpre.length_le)

/-- Children with other names share no places. -/
theorem Tours.cons_child {met' : List Met}
    (hsorted : (child :: rest).Pairwise fun a b => a.name < b.name)
    (htour : Tours tree (names ++ [child.name] <+: ·) met)
    (hrest : Tours tree (InChildren names rest) met') :
    Tours tree (InChildren names (child :: rest)) (met ++ met') := by
  have happend := htour.append hrest ?_
  · apply happend.congr
    intro place _ _ _
    simp [InChildren]
  · rintro place place' hpre ⟨other, hother, hpre'⟩ habove
    have hlt := (List.pairwise_cons.1 hsorted).1 other hother
    have hboth := List.prefix_of_prefix_length_le hpre (hpre'.trans habove) (by simp)
    have heq := hboth.eq_of_length (by simp)
    simp only [List.append_cancel_left_eq, List.cons.injEq, and_true] at heq
    exact absurd (heq ▸ hlt) (String.lt_irrefl _)

/-- Each of `children` stands in the directory of `names` under its name and kind. -/
def AreIn (tree : FileTree) (names : List String) (children : List Child) : Prop :=
  ∀ child ∈ children, IsName child.name ∧
    ∃ node, tree.node? (names ++ [child.name]) = some node ∧ node.kind = child.kind

theorem AreChildren.areIn (h : tree.AreChildren names children) : tree.AreIn names children := by
  intro child hchild
  exact (h.mem_iff child).1 hchild

theorem components_child (dir : String) (hname : IsName child.name) :
    components (Met.child dir child).path = components dir ++ [child.name] :=
  components_append_name dir hname

/-- A walk meets all that is in the children that it still has to see. -/
theorem Walk.tours (h : IsHierarchy tree.entries) (hwalk : Walk tree dir children met)
    (hsorted : children.Pairwise fun a b => a.name < b.name)
    (hin : tree.AreIn (components dir) children) :
    Tours tree (InChildren (components dir) children) met := by
  induction hwalk with
  | done =>
    apply Tours.nil
    rintro place ⟨child, hchild, -⟩
    cases hchild
  | @pass dir child rest met hkind hrest ih =>
    obtain ⟨⟨hname, node, hnode, hnodekind⟩, hin⟩ := List.forall_mem_cons.1 hin
    have hplace := components_child dir hname
    have hfile : node ≠ .directory := by
      rintro rfl
      exact hkind hnodekind.symm
    rw [← hplace] at hnode
    have hself := Tours.cons hnode hnodekind (Tours.nil_below h hnode hfile)
    rw [hplace] at hself
    exact hself.cons_child hsorted (ih (List.pairwise_cons.1 hsorted).2 hin)
  | @enter dir child rest children inside met hkind hlist hinside hrest ihinside ihrest =>
    obtain ⟨⟨hname, node, hnode, hnodekind⟩, hin⟩ := List.forall_mem_cons.1 hin
    have hplace := components_child dir hname
    have hchildren := areChildren_of_list h hlist
    have hbelow := Tours.below_of_children h hchildren
      (ihinside hchildren.sorted hchildren.areIn)
    rw [← hplace] at hnode
    have hself := Tours.cons hnode hnodekind hbelow
    rw [hplace] at hself
    exact hself.cons_child hsorted (ihrest (List.pairwise_cons.1 hsorted).2 hin)

theorem WalkFrom.tours (h : IsHierarchy tree.entries) (hwalk : WalkFrom tree dir met) :
    Tours tree (Below (components dir)) met := by
  obtain ⟨children, hlist, hwalk⟩ := hwalk
  have hchildren := areChildren_of_list h hlist
  exact Tours.below_of_children h hchildren (hwalk.tours h hchildren.sorted hchildren.areIn)

end PluginBridge.FileTree
