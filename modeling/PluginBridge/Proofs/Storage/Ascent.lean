import Mathlib.Data.List.Infix
import PluginBridge.Proofs.Storage.Names
import PluginBridge.Storage.Operation

/-!
# Spellings and the way up

All that is done with a path is done with its normal spelling, and that is as good as the list of
its components: it is read back, it is its own normal spelling, and other components have another
one.

A directory on the way to a path can be found from either end.  Going down, the components are added
one by one; going up, a normal spelling is cut before its last slash, again and again.  Each cut
takes off the last component (`parent?_normalize`), so the cuts meet the directories on the way in
reverse, and after them the root (`enclosing_normalize`).
-/

namespace PluginBridge

namespace Path

variable {path dir name : String} {names : List String}

/-! ## Going up -/

theorem eq_append_of_beforeLastSlash {text before : List Char}
    (h : beforeLastSlash text = some before) : ∃ name, text = before ++ '/' :: name := by
  obtain ⟨⟨front, name⟩, hcut, rfl⟩ := Option.map_eq_some_iff.1 h
  exact ⟨name, (Text.splitAtLast_eq_some_iff.1 hcut).1⟩

/-- The directory that holds a path is spelled shorter. -/
theorem length_lt_of_parent? (h : parent? path = some dir) : dir.length < path.length := by
  rw [parent?] at h
  split at h
  · cases h
  rename_i hroot
  obtain ⟨before, hbefore, rfl⟩ := Option.map_eq_some_iff.1 h
  obtain ⟨name, hpath⟩ := eq_append_of_beforeLastSlash hbefore
  have hlength : path.length = before.length + (name.length + 1) := by
    rw [← String.length_toList, hpath]
    simp
  split
  · -- Something follows the slash at the front, or the path were the root.
    rename_i hnil
    have hname : name ≠ [] := by
      rintro rfl
      rw [hnil] at hpath
      exact hroot (String.toList_inj.1 hpath)
    have hpos := List.length_pos_iff.2 hname
    have hone : "/".length = 1 := rfl
    omega
  · rw [String.length_ofList]
    omega

/-- The directories around a path, innermost first: the one that holds it, the one that holds that,
and so on. -/
def enclosing (path : String) : List String :=
  match h : parent? path with
  | none => []
  | some dir =>
    have := length_lt_of_parent? h
    dir :: enclosing dir
termination_by path.length

theorem enclosing_of_none (h : parent? path = none) : enclosing path = [] := by
  rw [enclosing]
  split
  · rfl
  · simp_all

theorem enclosing_of_some (h : parent? path = some dir) :
    enclosing path = dir :: enclosing dir := by
  rw [enclosing]
  split
  · simp_all
  · simp_all

/-- Going up from a normal spelling meets the directories on the way down in reverse, and after them
the root. -/
theorem enclosing_ofComponents (h : AreNames (names ++ [name])) :
    enclosing (ofComponents (names ++ [name])) = (beginnings "" names).reverse ++ ["/"] := by
  induction names using List.reverseRecOn generalizing name with
  | nil =>
    obtain ⟨hnames, hname⟩ := areNames_concat.1 h
    rw [enclosing_of_some (parent?_ofComponents_concat hnames hname), ofComponents_nil,
      enclosing_of_none parent?_root]
    rfl
  | append_singleton front last ih =>
    obtain ⟨hnames, hname⟩ := areNames_concat.1 h
    rw [enclosing_of_some (parent?_ofComponents_concat hnames hname), ih hnames,
      ofComponents_of_ne_nil (by simp), ← slashed_nil, beginnings_concat, List.reverse_concat]
    rfl

theorem parent?_normalize (h : components path ≠ []) :
    parent? (normalize path) = some (ofComponents (components path).dropLast) := by
  obtain ⟨names, name, hnames, hname, hpath⟩ := exists_components_eq_concat h
  rw [normalize, hpath, parent?_ofComponents_concat hnames hname, List.dropLast_concat]

theorem enclosing_normalize (h : components path ≠ []) :
    enclosing (normalize path) = (ancestors path).reverse ++ ["/"] := by
  obtain ⟨names, name, hnames, hname, hpath⟩ := exists_components_eq_concat h
  rw [normalize, hpath, enclosing_ofComponents (areNames_concat.2 ⟨hnames, hname⟩),
    ancestors_of_concat hpath]

/-- Only the root is in no directory. -/
theorem parent?_normalize_eq_none_iff :
    parent? (normalize path) = none ↔ normalize path = "/" := by
  constructor
  · intro hnone
    by_contra hroot
    rw [parent?_normalize (mt normalize_eq_root_iff.2 hroot)] at hnone
    cases hnone
  · intro hroot
    rw [hroot, parent?_root]

/-! ## Going down -/

theorem beginnings_eq_map (above names : List String) :
    beginnings (slashed above) names =
      names.inits.tail.map fun start => ofComponents (above ++ start) := by
  induction names generalizing above with
  | nil => rfl
  | cons name rest ih =>
    have hinits : rest.inits = [] :: rest.inits.tail := by cases rest <;> rfl
    rw [beginnings, ← slashed_concat, ih, ← ofComponents_of_ne_nil (by simp), List.inits_cons,
      List.tail_cons, List.map_map, hinits]
    simp [Function.comp_def]

/-- The directories on the way to a path are spelled by the nonempty proper beginnings of its
components, the shortest first. -/
theorem ancestors_eq_map (path : String) :
    ancestors path = (components path).dropLast.inits.tail.map ofComponents :=
  beginnings_eq_map [] _

end Path

namespace FileTree

/-! ## Spellings -/

/-- All that can be asked of a path or done to it. -/
def operationsAt (path : String) (data : ByteArray) : List Operation :=
  [.write path data, .makeDirectory path, .makeDirectories path, .makeSpecial path, .remove path,
    .stat path, .list path]

/-- A tree tells no spelling of a path from another. -/
theorem map_perform_operationsAt (tree : FileTree) (data : ByteArray) {a b : String}
    (h : Path.normalize a = Path.normalize b) :
    (operationsAt a data).map tree.perform = (operationsAt b data).map tree.perform := by
  simp only [operationsAt, List.map_cons, List.map_nil, perform, write, makeDirectory,
    makeDirectories, makeSpecial, remove, stat, list, h]

end FileTree

namespace Path

/-! ## Main result -/

/-- **Normal spellings are as good as components.**  The normal spelling of a path has its
components and is its own normal spelling.  Two paths share it exactly if they have the same
components; then all that is done with one of them does the same with the other, in every tree.

Only the root is in no directory.  Any other path is in the directory that its components name
without the last one.  Going up from its normal spelling meets the directories that are made on the
way down to it, the spellings of the nonempty proper beginnings of its components, in reverse; after
them comes the root, and nothing else. -/
theorem normal_spelling_and_ascent (a b : String) :
    components (normalize a) = components a ∧
    normalize (normalize a) = normalize a ∧
    (normalize a = normalize b ↔ components a = components b) ∧
    (components a = components b → ∀ (tree : FileTree) (data : ByteArray),
      (FileTree.operationsAt a data).map tree.perform =
        (FileTree.operationsAt b data).map tree.perform) ∧
    (parent? (normalize a) = none ↔ normalize a = "/") ∧
    (components a ≠ [] →
      parent? (normalize a) = some (ofComponents (components a).dropLast) ∧
      ancestors a = (components a).dropLast.inits.tail.map ofComponents ∧
      enclosing (normalize a) = (ancestors a).reverse ++ ["/"]) := by
  refine ⟨components_normalize a, normalize_normalize a, normalize_eq_normalize_iff, ?_,
    parent?_normalize_eq_none_iff, ?_⟩
  · intro hsame tree data
    exact tree.map_perform_operationsAt data (normalize_eq_normalize_iff.2 hsame)
  · intro hne
    exact ⟨parent?_normalize hne, ancestors_eq_map a, enclosing_normalize hne⟩

/-- Two spellings of a path of three components, one of which begins with a dot. -/
theorem normal_spelling_and_ascent_of_dots :
    let a := "usr//./.local/lib/"
    let b := "/usr/.local/./lib"
    components a = components b ∧ components a ≠ [] ∧
      normalize a = normalize b ∧
      parent? (normalize a) = some "/usr/.local" ∧
      enclosing (normalize a) = ["/usr/.local", "/usr", "/"] := by
  intro a b
  have hsame : components a = components b := by decide
  have hne : components a ≠ [] := by decide
  obtain ⟨-, -, hspelling, -, -, hascent⟩ := normal_spelling_and_ascent a b
  obtain ⟨hparent, -, henclosing⟩ := hascent hne
  refine ⟨hsame, hne, hspelling.2 hsame, ?_, ?_⟩
  · rw [hparent]
    decide
  · rw [henclosing]
    decide

end Path

end PluginBridge
