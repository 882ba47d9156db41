import Mathlib.Data.List.Dedup
import PluginBridge.Proofs.Storage.Placement

/-!
# Trees made of files

`ofFiles` writes files one after another into a new tree.  What it makes depends on the last
contents given for each place, in whatever spelling (`lastGiven`), and not on the order of the
writes; but each write has to fit when its turn comes, also if what it brings is replaced later.

* `Holds` ties the tree to the files that have been written so far, and `Holds.write` is its step;
* `Holds.write_ok_iff`: the next file can be written exactly if its place is none above or below
  those before, and `bytesGiven` stays within the quota with it; and
* `tree_of_files`: which files make a tree, and which tree they make.
-/

namespace PluginBridge

/-- A sum over different things does not depend on how they are listed, nor on those that add
nothing. -/
theorem sum_map_eq_of_nodup {α : Type} {size : α → Nat} {l m : List α} (hl : l.Nodup)
    (hm : m.Nodup) (h : ∀ a, size a ≠ 0 → (a ∈ l ↔ a ∈ m)) :
    (l.map size).sum = (m.map size).sum := by
  have hzero : ∀ (list : List α), ∀ a ∈ list, decide (size a ≠ 0) = false → size a = 0 := by
    intro list a _ ha
    simpa using ha
  have hperm : (l.filter fun a => size a ≠ 0).Perm (m.filter fun a => size a ≠ 0) := by
    refine (List.perm_ext_iff_of_nodup (hl.filter _) (hm.filter _)).2 fun a => ?_
    simp only [List.mem_filter, decide_eq_true_eq]
    exact and_congr_left fun ha => h a ha
  rw [← sum_map_filter (hzero l), ← sum_map_filter (hzero m)]
  exact (hperm.map _).sum_nat

namespace FileTree

open PluginBridge.Path

variable {files : List (String × ByteArray)} {file : String × ByteArray} {names : List String}

/-! ## What is given -/

/-- What the last of some files gives for a place, however its path is spelled. -/
def lastGiven (files : List (String × ByteArray)) (names : List String) : Option ByteArray :=
  (files.reverse.find? fun file => components file.1 = names).map Prod.snd

/-- The places for which some files give anything, each once. -/
def placesGiven (files : List (String × ByteArray)) : List (List String) :=
  (files.map fun file => components file.1).dedup

/-- The bytes of the last contents that some files give for each place. -/
def bytesGiven (files : List (String × ByteArray)) : Nat :=
  ((placesGiven files).map fun names => ((lastGiven files names).map ByteArray.size).getD 0).sum

theorem lastGiven_concat (files : List (String × ByteArray)) (file : String × ByteArray)
    (names : List String) :
    lastGiven (files ++ [file]) names =
      if components file.1 = names then some file.2 else lastGiven files names := by
  rw [lastGiven, List.reverse_append, List.reverse_singleton, List.singleton_append,
    List.find?_cons]
  by_cases hpath : components file.1 = names
  · simp [hpath]
  · simp [hpath, lastGiven]

theorem lastGiven_eq_none_iff :
    lastGiven files names = none ↔ ∀ file ∈ files, components file.1 ≠ names := by
  simp [lastGiven]

theorem lastGiven_ne_none_iff :
    lastGiven files names ≠ none ↔ ∃ file ∈ files, components file.1 = names := by
  rw [ne_eq, lastGiven_eq_none_iff]
  simp only [not_forall, not_not, exists_prop]

theorem mem_placesGiven_iff : names ∈ placesGiven files ↔ lastGiven files names ≠ none := by
  rw [placesGiven, List.mem_dedup, List.mem_map, lastGiven_ne_none_iff]

theorem areNames_of_mem_placesGiven (h : names ∈ placesGiven files) : AreNames names := by
  obtain ⟨file, -, rfl⟩ := lastGiven_ne_none_iff.1 (mem_placesGiven_iff.1 h)
  exact areNames_components file.1

/-! ## The files of a tree -/

/-- The files of a tree are what is given. -/
def HoldsFiles (files : List (String × ByteArray)) (tree : FileTree) : Prop :=
  ∀ key data, tree.entries.get? key = some (.file data) ↔
    ∃ names, AreNames names ∧ key = ofComponents names ∧ lastGiven files names = some data

variable {tree : FileTree}

namespace HoldsFiles

theorem get?_iff (h : HoldsFiles files tree) (hnames : AreNames names) {data : ByteArray} :
    tree.entries.get? (ofComponents names) = some (.file data) ↔
      lastGiven files names = some data := by
  rw [h]
  constructor
  · rintro ⟨other, hother, hkey, hlast⟩
    rwa [ofComponents_injective hnames hother hkey]
  · intro hlast
    exact ⟨names, hnames, rfl, hlast⟩

/-- A tree whose files are what is given holds as many bytes. -/
theorem bytesHeld_eq (h : HoldsFiles files tree) : tree.bytesHeld = bytesGiven files := by
  have hnodup : ((placesGiven files).map ofComponents).Nodup := by
    refine (List.nodup_dedup _).map_on fun a ha b hb heq => ?_
    exact ofComponents_injective (areNames_of_mem_placesGiven ha) (areNames_of_mem_placesGiven hb)
      heq
  have hfiles : ∀ key, heldAt tree.entries key ≠ 0 →
      (key ∈ tree.keys ↔ key ∈ (placesGiven files).map ofComponents) := by
    intro key hkey
    -- Only a file holds bytes, and it is both among the keys and among what is given.
    cases hget : tree.entries.get? key with
    | none => simp [heldAt, hget] at hkey
    | some node =>
      cases node with
      | directory => simp [heldAt, hget, Node.size] at hkey
      | special => simp [heldAt, hget, Node.size] at hkey
      | file data =>
        obtain ⟨names, -, rfl, hlast⟩ := (h key data).1 hget
        have hmem : names ∈ placesGiven files := mem_placesGiven_iff.2 (by simp [hlast])
        exact iff_of_true (mem_keys_iff.2 ⟨_, hget⟩) (List.mem_map_of_mem hmem)
  rw [bytesHeld_eq_sum_keys, sum_map_eq_of_nodup tree.nodup_keys hnodup hfiles, bytesGiven,
    List.map_map]
  congr 1
  apply List.map_congr_left
  intro names hmem
  obtain ⟨data, hlast⟩ := Option.ne_none_iff_exists'.1 (mem_placesGiven_iff.1 hmem)
  have hget := (h.get?_iff (areNames_of_mem_placesGiven hmem)).2 hlast
  rw [Function.comp_apply, heldAt, hget, hlast]
  rfl

/-- With one more file in its place, the files of a tree are what is given with it. -/
theorem insert (h : HoldsFiles files tree) (file : String × ByteArray) :
    HoldsFiles (files ++ [file])
      { tree with entries := tree.entries.insert (Path.normalize file.1) (.file file.2) } := by
  intro key data
  rw [Table.get?_insert]
  split
  · rename_i hkey
    subst hkey
    constructor
    · intro hfile
      cases hfile
      exact ⟨components file.1, areNames_components file.1, rfl,
        by rw [lastGiven_concat, if_pos rfl]⟩
    · rintro ⟨names, hnames, hkey, hlast⟩
      have hsame := (ofComponents_eq_normalize_iff hnames).1 hkey.symm
      rw [lastGiven_concat, if_pos hsame.symm] at hlast
      rw [Option.some.inj hlast]
  · rename_i hkey
    rw [h]
    refine exists_congr fun names => and_congr_right fun _ => and_congr_right fun heq => ?_
    have hne : components file.1 ≠ names := fun hsame => hkey (by rw [heq, Path.normalize, hsame])
    rw [lastGiven_concat, if_neg hne]

/-- What a write of one more file needs is what is given with it. -/
theorem heldBeside_add (h : HoldsFiles files tree) (file : String × ByteArray) :
    heldBeside tree.entries (Path.normalize file.1) + file.2.size =
      bytesGiven (files ++ [file]) := by
  rw [← (h.insert file).bytesHeld_eq, bytesHeld_eq_held, held_insert, Nat.add_comm]
  rfl

end HoldsFiles

/-! ## A tree of files -/

/-- A place lies above one for which something is given. -/
def IsAboveGiven (files : List (String × ByteArray)) (names : List String) : Prop :=
  ∃ file ∈ files, names <+: components file.1 ∧ names ≠ components file.1

/-- A tree holds what is given and the directories above it, and nothing else. -/
structure Holds (files : List (String × ByteArray)) (tree : FileTree) : Prop where
  hierarchy : IsHierarchy tree.entries
  quota : tree.quota = defaultQuota
  holdsFiles : HoldsFiles files tree
  directory_iff : ∀ {names}, AreNames names →
    (tree.entries.get? (ofComponents names) = some .directory ↔
      names = [] ∨ IsAboveGiven files names)
  ne_special : ∀ key, tree.entries.get? key ≠ some .special

theorem isAboveGiven_concat_iff : IsAboveGiven (files ++ [file]) names ↔
    IsAboveGiven files names ∨ (names <+: components file.1 ∧ names ≠ components file.1) := by
  simp [IsAboveGiven, or_and_right, exists_or]

theorem holds_rootOnly : Holds [] (rootOnly defaultQuota) := by
  have hget (key : String) : (rootOnly defaultQuota).entries.get? key =
      if "/" = key then some .directory else none := Table.get?_insert ..
  refine ⟨.rootOnly _, rfl, ?_, ?_, ?_⟩
  · intro key data
    rw [hget]
    constructor
    · intro hfile
      split at hfile <;> cases hfile
    · rintro ⟨names, -, -, hlast⟩
      cases hlast
  · intro names hnames
    rw [hget, ← ofComponents_eq_root_iff hnames]
    simp [IsAboveGiven, eq_comm]
  · intro key
    rw [hget]
    split <;> simp

namespace Holds

/-- What obstructs a place is a file that is given. -/
theorem isObstructed_iff (h : Holds files tree) (hnames : AreNames names) :
    IsObstructed tree.entries (ofComponents names) ↔ ∃ file ∈ files, components file.1 = names := by
  rw [← lastGiven_ne_none_iff, Option.ne_none_iff_exists']
  constructor
  · rintro (⟨data, hfile⟩ | hspecial)
    · exact ⟨data, (h.holdsFiles.get?_iff hnames).1 hfile⟩
    · exact absurd hspecial (h.ne_special _)
  · rintro ⟨data, hlast⟩
    exact .inl ⟨data, (h.holdsFiles.get?_iff hnames).2 hlast⟩

/-- One more file can be written exactly if its place is not the root and lies neither above nor
below those before, and all that is given fits with it. -/
theorem write_ok_iff (h : Holds files tree) (file : String × ByteArray) :
    (tree.write file.1 file.2).2 = .ok () ↔
      components file.1 ≠ [] ∧ ¬IsAboveGiven files (components file.1) ∧
      (∀ other ∈ files, ¬(components other.1 <+: components file.1 ∧
        components other.1 ≠ components file.1)) ∧
      bytesGiven (files ++ [file]) ≤ defaultQuota.toNat := by
  have hplace := areNames_components file.1
  have hclear : IsClear tree.entries file.1 ↔ ∀ other ∈ files,
      ¬(components other.1 <+: components file.1 ∧ components other.1 ≠ components file.1) := by
    rw [h.hierarchy.isClear_iff]
    constructor
    · rintro hclear other hother ⟨hpre, hne⟩
      exact hclear _ hpre hne
        ((h.isObstructed_iff (areNames_components _)).2 ⟨other, hother, rfl⟩)
    · intro hapart above hpre hne hobs
      obtain ⟨other, hother, rfl⟩ := (h.isObstructed_iff (hplace.of_isPrefix hpre)).1 hobs
      exact hapart other hother ⟨hpre, hne⟩
  have hmay : tree.MayWrite file.1 file.2 ↔
      (components file.1 ≠ [] ∧ ¬IsAboveGiven files (components file.1)) ∧
        bytesGiven (files ++ [file]) ≤ defaultQuota.toNat := by
    rw [← not_or, ← h.directory_iff hplace, ← h.holdsFiles.heldBeside_add, ← h.quota]
    constructor
    · rintro ⟨hdir, -, hfits⟩
      exact ⟨hdir, hfits⟩
    · rintro ⟨hdir, hfits⟩
      exact ⟨hdir, h.ne_special _, hfits⟩
  rw [(placed_write tree file.1 file.2).ok_iff, hclear, hmay]
  tauto

/-- A write of one more file leaves a tree that holds what is given with it. -/
theorem write (h : Holds files tree) (hok : (tree.write file.1 file.2).2 = .ok ()) :
    Holds (files ++ [file]) (tree.write file.1 file.2).1 := by
  obtain ⟨hroot, habove, -, -⟩ := (h.write_ok_iff file).1 hok
  obtain ⟨made, hmade, hafter⟩ := (placed_write tree file.1 file.2).exists_made hok
  refine ⟨(outcome_write h.hierarchy file.1 file.2).isHierarchy h.hierarchy, ?_, ?_, ?_, ?_⟩
  all_goals rw [hafter]
  · exact h.quota
  · -- The directories on the way take the place of no file.
    intro key data
    rw [← h.holdsFiles.insert file key data, hmade.get?_insert, Table.get?_insert]
    by_cases hkey : key = Path.normalize file.1
    · rw [if_pos hkey, if_pos hkey.symm]
    rw [if_neg hkey, if_neg (Ne.symm hkey)]
    split
    · rename_i hmem
      rcases hmade.passable key hmem with hnone | hdir
      · simp [hnone]
      · simp [hdir]
    · rfl
  · intro names hnames
    rw [hmade.get?_insert, isAboveGiven_concat_iff]
    by_cases hsame : names = components file.1
    · rw [if_pos (by rw [hsame, Path.normalize]), hsame]
      simp [hroot, habove]
    have hkey : ofComponents names ≠ Path.normalize file.1 := fun heq =>
      hsame ((ofComponents_eq_normalize_iff hnames).1 heq)
    rw [if_neg hkey]
    split
    · rename_i hmem
      have hbetween := (ofComponents_mem_ancestors_iff hnames).1 hmem
      exact iff_of_true rfl (.inr (.inr hbetween.2))
    · rename_i hmem
      rw [h.directory_iff hnames, ← or_assoc]
      -- What is newly above the file is the root, or it is not on the way.
      refine ⟨.inl, fun hplace => hplace.elim id fun hproper => .inl ?_⟩
      by_contra hnil
      exact hmem ((ofComponents_mem_ancestors_iff hnames).2 ⟨hnil, hproper⟩)
  · intro key
    rw [hmade.get?_insert]
    split
    · simp
    split
    · simp
    · exact h.ne_special key

end Holds

/-! ## Files that make a tree -/

/-- What files must be like to make a tree: each has a name, none lies above another, and however
many of the first are taken, the last contents for each place fit one mebibyte together. -/
structure FormTree (files : List (String × ByteArray)) : Prop where
  named : ∀ file ∈ files, components file.1 ≠ []
  apart : ∀ file ∈ files, ∀ other ∈ files,
    ¬(components file.1 <+: components other.1 ∧ components file.1 ≠ components other.1)
  fit : ∀ count, bytesGiven (files.take count) ≤ 2 ^ 20

/-- What has to hold of each file when its turn comes. -/
theorem formTree_concat_iff : FormTree (files ++ [file]) ↔
    FormTree files ∧ components file.1 ≠ [] ∧ ¬IsAboveGiven files (components file.1) ∧
      (∀ other ∈ files, ¬(components other.1 <+: components file.1 ∧
        components other.1 ≠ components file.1)) ∧
      bytesGiven (files ++ [file]) ≤ 2 ^ 20 := by
  constructor
  · rintro ⟨hnamed, hapart, hfit⟩
    have hmem : ∀ other ∈ files, other ∈ files ++ [file] := fun other hother =>
      List.mem_append_left _ hother
    have hlast : file ∈ files ++ [file] := List.mem_append_right _ (List.mem_singleton_self _)
    refine ⟨⟨?_, ?_, ?_⟩, hnamed file hlast, ?_, ?_, ?_⟩
    · exact fun other hother => hnamed other (hmem other hother)
    · exact fun one hone other hother => hapart one (hmem one hone) other (hmem other hother)
    · intro count
      have hcount := hfit (min count files.length)
      rwa [List.take_append_of_le_length (Nat.min_le_right _ _), ← List.take_eq_take_min] at hcount
    · rintro ⟨other, hother, hpre⟩
      exact hapart file hlast other (hmem other hother) hpre
    · exact fun other hother => hapart other (hmem other hother) file hlast
    · have hall := hfit (files ++ [file]).length
      rwa [List.take_length] at hall
  · rintro ⟨⟨hnamed, hapart, hfit⟩, hroot, habove, hbelow, hall⟩
    refine ⟨?_, ?_, ?_⟩
    · intro one hone
      rcases List.mem_append.1 hone with hone | hone
      · exact hnamed one hone
      · rwa [List.mem_singleton.1 hone]
    · intro one hone other hother
      rcases List.mem_append.1 hone with hone | hone <;>
        rcases List.mem_append.1 hother with hother | hother
      · exact hapart one hone other hother
      · rw [List.mem_singleton.1 hother]
        exact hbelow one hone
      · rw [List.mem_singleton.1 hone]
        exact fun hpre => habove ⟨other, hother, hpre⟩
      · rw [List.mem_singleton.1 hone, List.mem_singleton.1 hother]
        exact fun hpre => hpre.2 rfl
    · intro count
      by_cases hcount : count ≤ files.length
      · rw [List.take_append_of_le_length hcount]
        exact hfit count
      · have hwhole : (files ++ [file]).length ≤ count := by
          rw [List.length_append, List.length_singleton]
          omega
        rw [List.take_of_length_le hwhole]
        exact hall

theorem ofFiles_concat_eq_ok_iff {after : FileTree} : ofFiles (files ++ [file]) = .ok after ↔
    ∃ tree, ofFiles files = .ok tree ∧ tree.write file.1 file.2 = (after, .ok ()) := by
  rw [ofFiles, List.foldlM_append, ← ofFiles]
  cases ofFiles files with
  | error err => simp [bind, Except.bind]
  | ok tree =>
    simp only [List.foldlM_cons, List.foldlM_nil, bind, Except.bind, pure, Except.pure,
      Except.ok.injEq, exists_eq_left']
    cases hwrite : tree.write file.1 file.2 with
    | mk left result => cases result <;> simp

theorem holds_of_ofFiles (hmade : ofFiles files = .ok tree) : Holds files tree := by
  induction files using List.reverseRecOn generalizing tree with
  | nil =>
    cases hmade
    exact holds_rootOnly
  | append_singleton files file ih =>
    obtain ⟨before, hbefore, hwrite⟩ := ofFiles_concat_eq_ok_iff.1 hmade
    have hstep := (ih hbefore).write (congrArg Prod.snd hwrite)
    rwa [hwrite] at hstep

theorem exists_ofFiles_iff : (∃ tree, ofFiles files = .ok tree) ↔ FormTree files := by
  induction files using List.reverseRecOn with
  | nil => exact iff_of_true ⟨_, rfl⟩ ⟨nofun, nofun, fun count => by simp [bytesGiven, placesGiven]⟩
  | append_singleton files file ih =>
    rw [formTree_concat_iff, ← ih]
    constructor
    · rintro ⟨after, hafter⟩
      obtain ⟨tree, htree, hwrite⟩ := ofFiles_concat_eq_ok_iff.1 hafter
      have hok := congrArg Prod.snd hwrite
      exact ⟨⟨tree, htree⟩, ((holds_of_ofFiles htree).write_ok_iff file).1 hok⟩
    · rintro ⟨⟨tree, htree⟩, hfits⟩
      have hok := ((holds_of_ofFiles htree).write_ok_iff file).2 hfits
      exact ⟨_, ofFiles_concat_eq_ok_iff.2 ⟨tree, htree, by rw [← hok]⟩⟩

/-- **A tree made of files.**  Files make a tree exactly if each has a name, no path is a proper
beginning of another, and after each write the last contents given for every place fit one mebibyte
together.  The tree has a file with the last contents at each path, under whatever spelling they
were given, directories at the root and above each path, and nothing else. -/
theorem tree_of_files (files : List (String × ByteArray)) :
    ((∃ tree, ofFiles files = .ok tree) ↔ FormTree files) ∧
    ∀ tree, ofFiles files = .ok tree →
      tree.quota = defaultQuota ∧
      (∀ key data, tree.entries.get? key = some (.file data) ↔
        ∃ file ∈ files, key = Path.normalize file.1 ∧
          lastGiven files (components file.1) = some data) ∧
      (∀ key, tree.entries.get? key = some .directory ↔
        key = "/" ∨ ∃ file ∈ files, ∃ above, above <+: components file.1 ∧
          above ≠ components file.1 ∧ key = ofComponents above) ∧
      ∀ key, tree.entries.get? key ≠ some .special := by
  refine ⟨exists_ofFiles_iff, fun tree hmade => ?_⟩
  have h := holds_of_ofFiles hmade
  refine ⟨h.quota, ?_, ?_, h.ne_special⟩
  · intro key data
    rw [h.holdsFiles]
    constructor
    · rintro ⟨names, -, rfl, hlast⟩
      obtain ⟨file, hfile, rfl⟩ := lastGiven_ne_none_iff.1 (by rw [hlast]; exact nofun)
      exact ⟨file, hfile, rfl, hlast⟩
    · rintro ⟨file, -, rfl, hlast⟩
      exact ⟨components file.1, areNames_components file.1, rfl, hlast⟩
  · intro key
    constructor
    · intro hdir
      obtain ⟨names, hnames, rfl⟩ := h.hierarchy.normal hdir
      rcases (h.directory_iff hnames).1 hdir with hnil | ⟨file, hfile, hpre, hne⟩
      · exact .inl (by rw [hnil, ofComponents_nil])
      · exact .inr ⟨file, hfile, names, hpre, hne, rfl⟩
    · rintro (rfl | ⟨file, hfile, above, hpre, hne, rfl⟩)
      · exact h.hierarchy.root
      · have habove := (areNames_components file.1).of_isPrefix hpre
        exact (h.directory_iff habove).2 (.inr ⟨file, hfile, hpre, hne⟩)

end FileTree

end PluginBridge
