import Mathlib.Data.List.Induction
import PluginBridge.Proofs.Storage.Names
import PluginBridge.Storage.FileTree

/-!
# Tables that are trees

The table of a storage in memory knows nothing of directories: a tree is a table whose keys happen
to be normal spellings and closed under "the directory that holds it".

* `IsHierarchy` is that property; `directory_above` and `get?_eq_none_below` are its two uses: what
  is there has only directories above it, and below what is not there is nothing;
* `IsHierarchy.insert` and `IsHierarchy.erase` say which changes keep it, and
  `AncestorsMade.isHierarchy` that making the directories on the way to a path does; and
* `ensureDirectories_refused`: if one of those directories cannot be made, none has been made.
-/

namespace PluginBridge

open PluginBridge.Path

/-- The keys of a table are the places of a tree of directories. -/
structure IsHierarchy (entries : Table Node) : Prop where
  /-- The root is a directory. -/
  root : entries.get? "/" = some .directory
  /-- Every key is a normal spelling. -/
  normal : ∀ {key node}, entries.get? key = some node →
    ∃ names, AreNames names ∧ key = ofComponents names
  /-- What has a name is in a directory. -/
  parent : ∀ {names name node}, AreNames names → IsName name →
    entries.get? (ofComponents (names ++ [name])) = some node →
    entries.get? (ofComponents names) = some .directory

namespace IsHierarchy

variable {entries made : Table Node} {names above : List String} {name : String} {node : Node}

/-! ## Above and below -/

/-- Whatever stands above something is a directory. -/
theorem directory_above (h : IsHierarchy entries) (hnames : AreNames names)
    (hget : entries.get? (ofComponents names) = some node) (hpre : above <+: names)
    (hne : above ≠ names) : entries.get? (ofComponents above) = some .directory := by
  induction names using List.reverseRecOn generalizing node with
  | nil => exact absurd (List.prefix_nil.1 hpre) hne
  | append_singleton front last ih =>
    obtain ⟨hfront, hlast⟩ := areNames_concat.1 hnames
    have hdir := h.parent hfront hlast hget
    rcases List.prefix_concat_iff.1 hpre with heq | hpre
    · exact absurd heq hne
    · by_cases heq : above = front
      · rwa [heq]
      · exact ih hfront hdir hpre heq

/-- Below nothing is nothing. -/
theorem get?_eq_none_below (h : IsHierarchy entries) (hnames : AreNames names)
    (hget : entries.get? (ofComponents above) = none) (hpre : above <+: names) :
    entries.get? (ofComponents names) = none := by
  by_cases heq : above = names
  · rwa [← heq]
  cases hnode : entries.get? (ofComponents names) with
  | none => rfl
  | some node =>
    rw [h.directory_above hnames hnode hpre heq] at hget
    cases hget

/-! ## Changes that keep the tree -/

theorem rootOnly (quota : UInt64) : IsHierarchy (FileTree.rootOnly quota).entries := by
  have hget : ∀ key, (FileTree.rootOnly quota).entries.get? key =
      if "/" = key then some .directory else none := fun key => Table.get?_insert ..
  refine ⟨by simp [hget], ?_, ?_⟩
  · intro key node hkey
    rw [hget] at hkey
    split at hkey
    · rename_i heq
      exact ⟨[], areNames_nil, heq.symm⟩
    · cases hkey
  · intro names name node hn hname hkey
    rw [hget] at hkey
    split at hkey
    · rename_i heq
      have := (ofComponents_eq_root_iff (areNames_concat.2 ⟨hn, hname⟩)).1 heq.symm
      simp at this
    · cases hkey

/-- Something may be put into a directory; what replaces a directory must be one. -/
theorem insert (h : IsHierarchy entries) (hnames : AreNames names) (hname : IsName name)
    (hdir : entries.get? (ofComponents names) = some .directory)
    (hkeep : entries.get? (ofComponents (names ++ [name])) = some .directory →
      node = .directory) :
    IsHierarchy (entries.insert (ofComponents (names ++ [name])) node) := by
  have hall := areNames_concat.2 ⟨hnames, hname⟩
  -- A directory stays one: it is another key, or it is replaced by a directory.
  have hstays : ∀ {other}, entries.get? other = some .directory →
      (entries.insert (ofComponents (names ++ [name])) node).get? other = some .directory := by
    intro other hother
    rw [Table.get?_insert]
    split
    · rename_i heq
      rw [hkeep (heq ▸ hother)]
    · exact hother
  refine ⟨hstays h.root, ?_, ?_⟩
  · intro key node' hkey
    rw [Table.get?_insert] at hkey
    split at hkey
    · rename_i heq
      exact ⟨names ++ [name], hall, heq.symm⟩
    · exact h.normal hkey
  · intro names' name' node' hn' hname' hkey
    rw [Table.get?_insert] at hkey
    split at hkey
    · rename_i heq
      have heq := ofComponents_injective hall (areNames_concat.2 ⟨hn', hname'⟩) heq
      rw [← (List.append_inj' heq rfl).1]
      exact hstays hdir
    · exact hstays (h.parent hn' hname' hkey)

/-- Something under which nothing stands may be taken away, unless it is the root. -/
theorem erase (h : IsHierarchy entries) (hnames : AreNames names) (hne : names ≠ [])
    (hleaf : ∀ name, IsName name → entries.get? (ofComponents (names ++ [name])) = none) :
    IsHierarchy (entries.erase (ofComponents names)) := by
  refine ⟨?_, ?_, ?_⟩
  · have hroot : ofComponents names ≠ "/" := by
      intro hroot
      exact hne ((ofComponents_eq_root_iff hnames).1 hroot)
    rw [Table.get?_erase, if_neg hroot]
    exact h.root
  · intro key node hkey
    rw [Table.get?_erase] at hkey
    split at hkey
    · cases hkey
    · exact h.normal hkey
  · intro names' name' node hn' hname' hkey
    rw [Table.get?_erase] at hkey
    split at hkey
    · cases hkey
    rw [Table.get?_erase]
    split
    · rename_i heq
      have heq := ofComponents_injective hnames hn' heq
      rw [← heq, hleaf name' hname'] at hkey
      cases hkey
    · exact h.parent hn' hname' hkey

end IsHierarchy

/-! ## The directories on the way to a path -/

/-- A directory can be made at a key, or is there. -/
def IsPassable (entries : Table Node) (key : String) : Prop :=
  entries.get? key = none ∨ entries.get? key = some .directory

/-- `made` is the table with the directories on the way to `path`. -/
structure AncestorsMade (entries : Table Node) (path : String) (made : Table Node) : Prop where
  passable : ∀ dir ∈ ancestors path, IsPassable entries dir
  get? : ∀ key, made.get? key =
    if key ∈ ancestors path then some .directory else entries.get? key

namespace FileTree

variable {entries made : Table Node} {path : String}

/-- A directory that is made where nothing is changes no other chance to make one. -/
theorem isPassable_insert_directory {dir key : String} (hdir : entries.get? dir = none) :
    IsPassable (entries.insert dir .directory) key ↔ IsPassable entries key := by
  by_cases hkey : dir = key
  · subst hkey
    simp [IsPassable, Table.get?_insert, hdir]
  · simp [IsPassable, Table.get?_insert, hkey]

/-- Directories can be made exactly if nothing else stands in their places. -/
theorem ensureDirectories_ok_iff {dirs : List String} :
    (ensureDirectories dirs entries).2 = .ok () ↔ ∀ dir ∈ dirs, IsPassable entries dir := by
  induction dirs generalizing entries with
  | nil => simp [ensureDirectories]
  | cons dir rest ih =>
    rw [ensureDirectories, List.forall_mem_cons]
    cases hdir : entries.get? dir with
    | none =>
      simp only [ih, isPassable_insert_directory hdir]
      simp [IsPassable, hdir]
    | some node =>
      cases node with
      | directory => simpa [IsPassable, hdir] using ih
      | file data => simp [IsPassable, hdir]
      | special => simp [IsPassable, hdir]

/-- Where directories cannot be made, one is named in whose place something else stands. -/
theorem ensureDirectories_error {dirs : List String} {err : StorageError}
    (h : (ensureDirectories dirs entries).2 = .error err) :
    ∃ dir ∈ dirs, ¬IsPassable entries dir ∧ err = .notADirectory dir := by
  induction dirs generalizing entries with
  | nil => cases h
  | cons dir rest ih =>
    rw [ensureDirectories] at h
    cases hdir : entries.get? dir with
    | none =>
      simp only [hdir] at h
      obtain ⟨other, hmem, hother, herr⟩ := ih h
      rw [isPassable_insert_directory hdir] at hother
      exact ⟨other, List.mem_cons_of_mem _ hmem, hother, herr⟩
    | some node =>
      rw [hdir] at h
      cases node with
      | directory =>
        obtain ⟨other, hmem, hother, herr⟩ := ih h
        exact ⟨other, List.mem_cons_of_mem _ hmem, hother, herr⟩
      | file data =>
        have hdir' : ¬IsPassable entries dir := by simp [IsPassable, hdir]
        exact ⟨dir, List.mem_cons_self .., hdir', (Except.error.inj h).symm⟩
      | special =>
        have hdir' : ¬IsPassable entries dir := by simp [IsPassable, hdir]
        exact ⟨dir, List.mem_cons_self .., hdir', (Except.error.inj h).symm⟩

/-- What stands where after directories have been made. -/
theorem get?_ensureDirectories {dirs : List String}
    (h : ensureDirectories dirs entries = (made, .ok ())) (key : String) :
    made.get? key = if key ∈ dirs then some .directory else entries.get? key := by
  induction dirs generalizing entries with
  | nil =>
    cases h
    simp
  | cons dir rest ih =>
    rw [ensureDirectories] at h
    cases hdir : entries.get? dir with
    | none =>
      simp only [hdir] at h
      rw [ih h, Table.get?_insert]
      by_cases hkey : dir = key
      · simp [hkey]
      · simp [hkey, Ne.symm hkey]
    | some node =>
      cases node with
      | directory =>
        simp only [hdir] at h
        rw [ih h]
        by_cases hkey : key = dir
        · simp [hkey, hdir]
        · simp [hkey]
      | file data => simp [hdir] at h
      | special => simp [hdir] at h

/-- If the directories on the way to a path cannot be made, the table is left alone: a first one
that is missing means that all later ones are missing too, so nothing is in their way. -/
theorem ensureDirectories_refused {err : StorageError} (h : IsHierarchy entries)
    (herr : (ensureDirectories (ancestors path) entries).2 = .error err) :
    (ensureDirectories (ancestors path) entries).1 = entries := by
  suffices ∀ above rest, AreNames (above ++ rest) →
      (ensureDirectories (beginnings (slashed above) rest) entries).2 = .error err →
      (ensureDirectories (beginnings (slashed above) rest) entries).1 = entries by
    have hnames : AreNames ([] ++ (components path).dropLast) := fun name hname =>
      areNames_components path name (List.dropLast_subset _ hname)
    have hbase : "" = slashed [] := by decide
    rw [ancestors, hbase] at herr ⊢
    exact this [] _ hnames herr
  clear herr
  intro above rest hnames herr
  induction rest generalizing above with
  | nil => rfl
  | cons name rest ih =>
    have hdir : slashed above ++ "/" ++ name = ofComponents (above ++ [name]) := by
      rw [ofComponents_of_ne_nil (by simp), slashed_concat]
    have hmove : above ++ name :: rest = above ++ [name] ++ rest := by simp
    rw [beginnings, ensureDirectories, hdir] at herr ⊢
    cases hget : entries.get? (ofComponents (above ++ [name])) with
    | none =>
      -- Everything further down is missing, so the rest cannot be refused.
      have hok : (ensureDirectories (beginnings (slashed above) (name :: rest)) entries).2 =
          .ok () := by
        rw [ensureDirectories_ok_iff]
        intro dir hmem
        obtain ⟨start, hne, hstart, rfl⟩ := mem_beginnings_iff.1 hmem
        obtain ⟨more, rfl⟩ : ∃ more, start = name :: more := by
          cases start with
          | nil => exact absurd rfl hne
          | cons first more => exact ⟨more, by rw [(List.cons_prefix_cons.1 hstart).1]⟩
        rw [← ofComponents_of_ne_nil (by simp)]
        refine .inl (h.get?_eq_none_below ?_ hget (by simp))
        exact hnames.of_isPrefix ((List.prefix_append_right_inj above).2 hstart)
      rw [beginnings, ensureDirectories, hdir, hget] at hok
      rw [hget] at herr
      rw [hok] at herr
      cases herr
    | some node =>
      cases node with
      | directory =>
        simp only [hget] at herr ⊢
        rw [← hdir, ← slashed_concat] at herr ⊢
        exact ih (above ++ [name]) (hmove ▸ hnames) herr
      | file data => rfl
      | special => rfl

end FileTree

namespace AncestorsMade

variable {entries made : Table Node} {path : String}

/-- The tree with the directories on the way to a path is a tree. -/
theorem isHierarchy (h : IsHierarchy entries) (hmade : AncestorsMade entries path made) :
    IsHierarchy made := by
  refine ⟨?_, ?_, ?_⟩
  · rw [hmade.get?, if_neg (root_notMem_ancestors path)]
    exact h.root
  · intro key node hkey
    rw [hmade.get?] at hkey
    split at hkey
    · rename_i hmem
      obtain ⟨above, hab, rfl⟩ := mem_ancestors_iff.1 hmem
      exact ⟨above, (areNames_components path).of_isPrefix hab.2.1, rfl⟩
    · exact h.normal hkey
  · intro names name node hnames hname hkey
    rw [hmade.get?]
    split
    · rfl
    rename_i hdir
    rw [hmade.get?] at hkey
    split at hkey
    · rename_i hmem
      rw [ofComponents_mem_ancestors_iff (areNames_concat.2 ⟨hnames, hname⟩)] at hmem
      rw [ofComponents_mem_ancestors_iff hnames] at hdir
      -- A beginning of the names that holds a made directory is made too, or is the root.
      by_cases hnil : names = []
      · subst hnil
        exact h.root
      · have hpre : names <+: components path := (List.prefix_append ..).trans hmem.2.1
        have hne : names ≠ components path := by
          intro heq
          have hlength := hmem.2.1.length_le
          rw [← heq, List.length_append, List.length_singleton] at hlength
          omega
        exact absurd ⟨hnil, hpre, hne⟩ hdir
    · exact h.parent hnames hname hkey

/-- The directory that is to hold a path has been made. -/
theorem get?_parent (h : IsHierarchy entries) (hmade : AncestorsMade entries path made)
    {names : List String} {name : String} (hpath : components path = names ++ [name]) :
    made.get? (ofComponents names) = some .directory := by
  have hnames := (areNames_concat.1 (hpath ▸ areNames_components path)).1
  by_cases hnil : names = []
  · subst hnil
    exact (hmade.isHierarchy h).root
  · rw [hmade.get?, if_pos]
    rw [ofComponents_mem_ancestors_iff hnames, hpath]
    exact ⟨hnil, List.prefix_append .., by simp⟩

theorem of_normalize (hmade : AncestorsMade entries (Path.normalize path) made) :
    AncestorsMade entries path made := by
  have hpassable := hmade.passable
  have hget := hmade.get?
  rw [ancestors_normalize] at hpassable
  simp only [ancestors_normalize] at hget
  exact ⟨hpassable, hget⟩

@[simp] theorem get?_normalize (hmade : AncestorsMade entries path made) :
    made.get? (Path.normalize path) = entries.get? (Path.normalize path) := by
  rw [hmade.get?, if_neg (normalize_notMem_ancestors path)]

/-- On the way to something that is there, nothing has to be made. -/
theorem eq_of_present (h : IsHierarchy entries) (hmade : AncestorsMade entries path made)
    {node : Node} (hnode : entries.get? (Path.normalize path) = some node) : made = entries := by
  apply Table.ext_get?
  intro key
  rw [hmade.get?]
  split
  · rename_i hmem
    obtain ⟨above, ⟨-, hpre, hne⟩, rfl⟩ := mem_ancestors_iff.1 hmem
    exact (h.directory_above (areNames_components path) hnode hpre hne).symm
  · rfl

/-- Where the directory that is to hold a path is there, nothing has to be made. -/
theorem of_parent (h : IsHierarchy entries) {names : List String} {name : String}
    (hpath : components path = names ++ [name])
    (hdir : entries.get? (ofComponents names) = some .directory) :
    AncestorsMade entries path entries := by
  have hnames := (areNames_concat.1 (hpath ▸ areNames_components path)).1
  have hall : ∀ dir ∈ ancestors path, entries.get? dir = some .directory := by
    intro dir hmem
    obtain ⟨above, ⟨-, hpre, hne⟩, rfl⟩ := mem_ancestors_iff.1 hmem
    rw [hpath] at hpre hne
    rcases List.prefix_concat_iff.1 hpre with heq | hpre
    · exact absurd heq hne
    · by_cases heq : above = names
      · rwa [heq]
      · exact h.directory_above hnames hdir hpre heq
  refine ⟨?_, ?_⟩
  · intro dir hmem
    exact .inr (hall dir hmem)
  · intro key
    split
    · rename_i hmem
      exact hall key hmem
    · rfl

end AncestorsMade

end PluginBridge
