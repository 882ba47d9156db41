import PluginBridge.Proofs.Storage.Placement

/-!
# Directories one at a time

Making a directory with those above it goes along the beginnings of its path; making a single
directory looks for the last slash of its own.  On a tree the two agree: the directories that are
missing can be made one after another, and that is what making them all at once does
(`performAll_missing`).  `chain_of_reached_tree` says so for all trees that operations can reach,
and that a special node is one entry more than the directories it is put below.
-/

namespace PluginBridge

namespace Path

variable {path : String} {names above : List String} {name : String}

/-! ## The places along a path -/

/-- The spellings of the nonempty beginnings of a path, shortest first: the directories on the way
to it and the path itself. -/
def way (path : String) : List String :=
  beginnings "" (components path)

theorem way_of_concat (hpath : components path = names ++ [name]) :
    way path = ancestors path ++ [normalize path] := by
  rw [way, ancestors_of_concat hpath, normalize, hpath, ofComponents_of_ne_nil (by simp),
    ← slashed_nil, beginnings_concat, List.nil_append]

theorem mem_way_iff {dir : String} :
    dir ∈ way path ↔ dir ∈ ancestors path ∨ components path ≠ [] ∧ dir = normalize path := by
  rcases List.eq_nil_or_concat (components path) with hpath | ⟨names, name, hpath⟩
  · simp [way, ancestors, hpath, beginnings]
  · rw [List.concat_eq_append] at hpath
    simp [way_of_concat hpath, hpath]

/-- No beginning is spelled as what it is a beginning below. -/
theorem slashed_notMem_beginnings (h : AreNames (above ++ names)) :
    slashed above ∉ beginnings (slashed above) names := by
  intro hmem
  obtain ⟨start, hne, hpre, heq⟩ := mem_beginnings_iff.1 hmem
  have habove : AreNames above := h.of_isPrefix (List.prefix_append ..)
  have hstart : AreNames (above ++ start) :=
    h.of_isPrefix ((List.prefix_append_right_inj above).2 hpre)
  have hsame := slashed_injective (fun n hn => (habove n hn).2) (fun n hn => (hstart n hn).2) heq
  exact hne (List.self_eq_append_right.1 hsame)

theorem normalize_ofComponents (h : AreNames names) :
    normalize (ofComponents names) = ofComponents names := by
  rw [normalize, components_ofComponents h]

end Path

open PluginBridge.Path

namespace FileTree

variable {tree : FileTree} {path : String} {names above rest : List String} {name : String}

/-! ## One directory after another -/

/-- Those of some directories that are not there. -/
def missing (tree : FileTree) (dirs : List String) : List String :=
  dirs.filter fun dir => (tree.entries.get? dir).isNone

/-- In a directory, what is missing can be made. -/
theorem makeDirectory_of_missing (hnames : AreNames names) (hname : IsName name)
    (hdir : tree.entries.get? (ofComponents names) = some .directory)
    (hnone : tree.entries.get? (ofComponents (names ++ [name])) = none) :
    tree.makeDirectory (ofComponents (names ++ [name])) =
      ({ tree with entries := tree.entries.insert (ofComponents (names ++ [name])) .directory },
        .ok ()) := by
  rw [makeDirectory, normalize_ofComponents (areNames_concat.2 ⟨hnames, hname⟩)]
  simp [parent?_ofComponents_concat hnames hname, hdir, hnone]

theorem missing_cons_of_none {dir : String} (dirs : List String)
    (hnone : tree.entries.get? dir = none) :
    tree.missing (dir :: dirs) = dir :: tree.missing dirs :=
  List.filter_cons_of_pos (by simp [hnone])

theorem missing_cons_of_some {dir : String} {node : Node} (dirs : List String)
    (hnode : tree.entries.get? dir = some node) :
    tree.missing (dir :: dirs) = tree.missing dirs :=
  List.filter_cons_of_neg (by simp [hnode])

/-- A directory that is made leaves the same others missing. -/
theorem missing_insert {dirs : List String} {dir : String} (hdir : dir ∉ dirs) :
    missing { tree with entries := tree.entries.insert dir .directory } dirs =
      tree.missing dirs := by
  apply List.filter_congr
  intro other hother
  have hne : dir ≠ other := fun heq => hdir (heq ▸ hother)
  rw [Table.get?_insert, if_neg hne]

/-- The missing ones of the directories below one that is there can be made one after another, and
this makes them all. -/
theorem performAll_missing (hnames : AreNames (above ++ rest))
    (hdir : tree.entries.get? (ofComponents above) = some .directory)
    (hpass : ∀ dir ∈ beginnings (slashed above) rest, IsPassable tree.entries dir) :
    tree.performAll ((tree.missing (beginnings (slashed above) rest)).map .makeDirectory) =
      ({ tree with
          entries := (ensureDirectories (beginnings (slashed above) rest) tree.entries).1 },
        (tree.missing (beginnings (slashed above) rest)).map fun _ => .ok .done) := by
  induction rest generalizing above tree with
  | nil => rfl
  | cons name rest ih =>
    have hmove : AreNames (above ++ [name] ++ rest) := by simpa using hnames
    obtain ⟨habove, hname⟩ := areNames_concat.1 (hmove.of_isPrefix (List.prefix_append ..))
    have hkey : slashed (above ++ [name]) = ofComponents (above ++ [name]) :=
      (ofComponents_of_ne_nil (by simp)).symm
    rw [beginnings, ← slashed_concat] at hpass ⊢
    obtain ⟨hhead, hrest⟩ := List.forall_mem_cons.1 hpass
    rcases hhead with hnone | hthere
    · -- The directory is made; below it the same are missing as before.
      have hmake := makeDirectory_of_missing habove hname hdir (hkey ▸ hnone)
      have hothers := @missing_insert tree _ _ (slashed_notMem_beginnings hmove)
      rw [← hkey] at hmake
      have hbelow := @ih { tree with
          entries := tree.entries.insert (slashed (above ++ [name])) .directory } (above ++ [name])
        hmove (by rw [Table.get?_insert, if_pos hkey])
        (fun dir hmem => (isPassable_insert_directory hnone).2 (hrest dir hmem))
      rw [hothers] at hbelow
      rw [missing_cons_of_none _ hnone, ensureDirectories, hnone]
      simp only [List.map_cons, performAll, perform, hmake, perform.changed, hbelow]
      rfl
    · rw [missing_cons_of_some _ hthere, ensureDirectories, hthere]
      exact ih hmove (hkey ▸ hthere) hrest

/-! ## All at once -/

/-- Nothing obstructs the way to a path and the path itself exactly if nothing obstructs the places
along it; the root is a directory. -/
theorem forall_mem_way_iff (h : IsHierarchy tree.entries) :
    (∀ dir ∈ way path, ¬IsObstructed tree.entries dir) ↔
      IsClear tree.entries path ∧ ¬IsObstructed tree.entries (Path.normalize path) := by
  by_cases hnil : components path = []
  · have hroot : ¬IsObstructed tree.entries "/" := fun hobs => hobs.ne_directory h.root
    simp [mem_way_iff, IsClear, normalize_eq_root_iff.2 hnil, hnil, hroot]
  · simp [mem_way_iff, IsClear, hnil, or_imp, forall_and]

theorem makeDirectories_ok_iff (h : IsHierarchy tree.entries) :
    (tree.makeDirectories path).2 = .ok () ↔ ∀ dir ∈ way path, ¬IsObstructed tree.entries dir := by
  rw [(placed_makeDirectories tree path).ok_iff, forall_mem_way_iff h]

/-- Making a directory with those above it makes the places along its path. -/
theorem makeDirectories_eq (h : IsHierarchy tree.entries)
    (hfree : ∀ dir ∈ way path, ¬IsObstructed tree.entries dir) :
    tree.makeDirectories path =
      ({ tree with entries := (ensureDirectories (way path) tree.entries).1 }, .ok ()) := by
  have hok := (makeDirectories_ok_iff h).2 hfree
  obtain ⟨made, hmade, hafter⟩ := (placed_makeDirectories tree path).exists_made hok
  have hpass : ∀ dir ∈ way path, IsPassable tree.entries dir := fun dir hmem =>
    not_isObstructed_iff.1 (hfree dir hmem)
  have hsame : made.insert (Path.normalize path) .directory =
      (ensureDirectories (way path) tree.entries).1 := by
    apply Table.ext_get?
    intro key
    rw [hmade.get?_insert, get?_ensureDirectories_of_passable hpass]
    by_cases hkey : key = Path.normalize path
    · by_cases hnil : components path = []
      · have hroot : Path.normalize path = "/" := normalize_eq_root_iff.2 hnil
        simp [hkey, hroot, h.root]
      · simp [mem_way_iff, hkey, hnil]
    · simp [mem_way_iff, hkey]
  rw [← hsame, ← hafter, ← hok]

/-- Making a directory with those above it is making the missing ones in order, and none of these is
refused. -/
theorem performAll_missing_way (h : IsHierarchy tree.entries)
    (hok : (tree.makeDirectories path).2 = .ok ()) :
    tree.performAll ((tree.missing (way path)).map .makeDirectory) =
      ((tree.makeDirectories path).1, (tree.missing (way path)).map fun _ => .ok .done) := by
  have hfree := (makeDirectories_ok_iff h).1 hok
  rw [makeDirectories_eq h hfree]
  exact @performAll_missing tree [] (components path) (areNames_components path)
    (by rw [ofComponents_nil, h.root]) fun dir hmem => not_isObstructed_iff.1 (hfree dir hmem)

/-- Where all places along a path are taken, nothing changes, whether or not they are directories. -/
theorem makeDirectories_of_none_missing (h : IsHierarchy tree.entries)
    (hnone : tree.missing (way path) = []) : (tree.makeDirectories path).1 = tree := by
  cases hmade : (tree.makeDirectories path).2 with
  | error err => exact (outcome_makeDirectories h path).eq_of_error hmade
  | ok done =>
    have hall := performAll_missing_way h hmade
    rw [hnone, List.map_nil, performAll, Prod.mk.injEq] at hall
    exact hall.1.symm

/-! ## Special nodes -/

/-- Something stands at the root, so no special node can. -/
theorem makeSpecial_root_ne_ok (h : IsHierarchy tree.entries) (hroot : components path = []) :
    (tree.makeSpecial path).2 ≠ .ok () := by
  intro hok
  have hnone := ((placed_makeSpecial tree path).ok_iff.1 hok).2
  rw [normalize_eq_root_iff.2 hroot, h.root] at hnone
  exact Option.some_ne_none _ hnone

/-- A special node is one entry more than the directory that holds it and those above. -/
theorem makeSpecial_eq (h : IsHierarchy tree.entries)
    (hok : (tree.makeSpecial path).2 = .ok ()) :
    ∃ parent, parent? (Path.normalize path) = some parent ∧
      (tree.makeDirectories parent).2 = .ok () ∧
      (tree.makeSpecial path).1 = { (tree.makeDirectories parent).1 with
        entries := (tree.makeDirectories parent).1.entries.insert (Path.normalize path)
          .special } := by
  obtain ⟨hclear, hnone⟩ := (placed_makeSpecial tree path).ok_iff.1 hok
  have hroot : components path ≠ [] := components_ne_nil h (by simp [hnone])
  obtain ⟨names, name, hnames, hname, hpath⟩ := exists_components_eq_concat hroot
  have hway : way (ofComponents names) = ancestors path := by
    rw [way, components_ofComponents hnames, ancestors_of_concat hpath]
  have hmake : tree.makeDirectories (ofComponents names) =
      ({ tree with entries := (ensureDirectories (ancestors path) tree.entries).1 }, .ok ()) := by
    rw [← hway]
    exact makeDirectories_eq h (hway ▸ hclear)
  obtain ⟨made, hmade, hafter⟩ := (placed_makeSpecial tree path).exists_made hok
  refine ⟨ofComponents names, ?_, ?_, ?_⟩
  · rw [Path.normalize, hpath, parent?_ofComponents_concat hnames hname]
  · rw [hmake]
  · rw [hafter, hmake, hmade.eq_ensureDirectories]

/-! ## Trees that operations can reach -/

/-- **Directories are made along the path.**  Making a directory with those above it succeeds
exactly if no file and no special node stands at a place along the path.  Then it does what making
each missing one in order does, and none of these is refused; where none is missing, the tree stays
as it is.  Making a special node succeeds exactly if nothing obstructs the directories on the way
and nothing stands at the path, so never at the root; it leaves one entry more than the directory
that holds it, made with those above. -/
theorem chain_of_reached_tree (quota : UInt64) (operations : List Operation) (path : String) :
    let tree := ((rootOnly quota).performAll operations).1
    let key := Path.normalize path
    let missing := tree.missing (way path)
    let made := tree.makeDirectories path
    let special := tree.makeSpecial path
    (made.2 = .ok () ↔ ∀ dir ∈ way path, ¬IsObstructed tree.entries dir) ∧
    (made.2 = .ok () → tree.performAll (missing.map .makeDirectory) =
      (made.1, missing.map fun _ => .ok .done)) ∧
    (missing = [] → made.1 = tree) ∧
    (special.2 = .ok () ↔ (∀ dir ∈ ancestors path, ¬IsObstructed tree.entries dir) ∧
      tree.entries.get? key = none) ∧
    (components path = [] → special.2 ≠ .ok ()) ∧
    (special.2 = .ok () → ∃ parent, parent? key = some parent ∧
      (tree.makeDirectories parent).2 = .ok () ∧
      special.1 = { (tree.makeDirectories parent).1 with
        entries := (tree.makeDirectories parent).1.entries.insert key .special }) := by
  intro tree key missing made special
  have h : IsHierarchy tree.entries := isHierarchy_reached quota operations
  exact ⟨makeDirectories_ok_iff h, performAll_missing_way h, makeDirectories_of_none_missing h,
    (placed_makeSpecial tree path).ok_iff, makeSpecial_root_ne_ok h, makeSpecial_eq h⟩

end FileTree

end PluginBridge
