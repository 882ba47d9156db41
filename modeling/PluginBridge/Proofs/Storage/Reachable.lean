import PluginBridge.Proofs.Storage.Edit

/-!
# Trees that operations can reach

Every course of operations on a tree that began with the root alone leaves a tree: each step is an
edit or nothing.

* `keys_of_reached_tree`: its keys are nonempty lists of names, and only directories stand above
  another key;
* `tree_after_refusal`: an operation that is refused has changed nothing, even where it makes
  directories before it has checked everything.
-/

namespace PluginBridge.FileTree

open PluginBridge.Path

/-! ## Step and run -/

/-- What carrying out an operation comes to: an answer about the tree as it is, or a change. -/
inductive Performed (tree : FileTree) : FileTree × Except StorageError Answer → Prop where
  | asked (answer : Except StorageError Answer) : Performed tree (tree, answer)
  | changed {change : Change} (houtcome : Outcome tree change) :
      Performed tree (perform.changed change)

theorem performed {tree : FileTree} (h : IsHierarchy tree.entries) (operation : Operation) :
    Performed tree (tree.perform operation) := by
  cases operation <;> rw [perform]
  case write path data => exact .changed (outcome_write h path data)
  case makeDirectory path => exact .changed (outcome_makeDirectory h path)
  case makeDirectories path => exact .changed (outcome_makeDirectories h path)
  case makeSpecial path => exact .changed (outcome_makeSpecial h path)
  case remove path => exact .changed (outcome_remove tree path)
  all_goals exact .asked _

theorem Performed.isHierarchy {tree : FileTree} {result : FileTree × Except StorageError Answer}
    (h : IsHierarchy tree.entries) (hresult : Performed tree result) :
    IsHierarchy result.1.entries := by
  cases hresult with
  | asked answer => exact h
  | changed houtcome => exact houtcome.isHierarchy h

theorem Performed.eq_of_error {tree : FileTree} {result : FileTree × Except StorageError Answer}
    {err : StorageError} (hresult : Performed tree result) (herr : result.2 = .error err) :
    result.1 = tree := by
  cases hresult with
  | asked answer => rfl
  | @changed change houtcome =>
    refine @Outcome.eq_of_error tree change err houtcome ?_
    cases hchange : change.2 with
    | error err' =>
      rw [perform.changed, hchange] at herr
      cases herr
      rfl
    | ok done =>
      rw [perform.changed, hchange] at herr
      cases herr

@[simp] theorem changed_fst (change : Change) : (perform.changed change).1 = change.1 := rfl

/-- What each operation keeps, a course of operations keeps. -/
theorem performAll_keeps {P : FileTree → Prop}
    (hstep : ∀ tree operation, P tree → P (tree.perform operation).1) {tree : FileTree}
    (h : P tree) (operations : List Operation) : P (tree.performAll operations).1 := by
  induction operations generalizing tree with
  | nil => exact h
  | cons operation rest ih => exact ih (hstep tree operation h)

theorem performAll_append (tree : FileTree) (before after : List Operation) :
    tree.performAll (before ++ after) =
      (((tree.performAll before).1.performAll after).1,
        (tree.performAll before).2 ++ ((tree.performAll before).1.performAll after).2) := by
  induction before generalizing tree with
  | nil => rfl
  | cons operation rest ih => simp only [List.cons_append, performAll, ih]

theorem isHierarchy_reached (quota : UInt64) (operations : List Operation) :
    IsHierarchy ((rootOnly quota).performAll operations).1.entries := by
  apply performAll_keeps (P := fun tree => IsHierarchy tree.entries)
  · intro tree operation h
    exact (performed h operation).isHierarchy h
  · exact IsHierarchy.rootOnly quota

/-! ## The keys -/

/-- What stands before a slash of a key is the key of a directory. -/
theorem get?_before_slash {tree : FileTree} (h : IsHierarchy tree.entries) {key : String}
    {node : Node} (hkey : tree.entries.get? key = some node) {dir below : List Char}
    (hne : dir ≠ []) (hcut : key.toList = dir ++ '/' :: below) :
    tree.entries.get? (String.ofList dir) = some .directory := by
  obtain ⟨names, hnames, rfl⟩ := h.normal hkey
  obtain ⟨above, ⟨-, hpre, hproper⟩, heq⟩ := eq_ofComponents_of_normal_slash hnames hne hcut
  rw [heq]
  exact h.directory_above hnames hkey hpre hproper

/-- **The keys are the places of a tree.**  The root is a directory.  Every other key is one or
more names, each after a slash, and whatever stands before a slash inside it is the key of a
directory; so nothing stands below a key that is no directory. -/
theorem keys_of_reached_tree (quota : UInt64) (operations : List Operation) :
    let entries := ((rootOnly quota).performAll operations).1.entries
    entries.get? "/" = some .directory ∧
      ∀ key node, entries.get? key = some node → key ≠ "/" →
        (∃ names : List String, names ≠ [] ∧
          (∀ name ∈ names, name ≠ "" ∧ name ≠ "." ∧ '/' ∉ name.toList) ∧
          key.toList = names.flatMap fun name => '/' :: name.toList) ∧
        (∀ dir below : List Char, dir ≠ [] → key.toList = dir ++ '/' :: below →
          entries.get? (String.ofList dir) = some .directory) ∧
        (node ≠ .directory → ∀ below, entries.get? (key ++ "/" ++ below) = none) := by
  intro entries
  have h := isHierarchy_reached quota operations
  refine ⟨h.root, ?_⟩
  intro key node hkey hroot
  obtain ⟨names, hnames, rfl⟩ := h.normal hkey
  have hnil : names ≠ [] := by
    intro hnil
    exact hroot (by rw [hnil, ofComponents_nil])
  refine ⟨⟨names, hnil, fun name hname => isName_iff.1 (hnames name hname), ?_⟩, ?_, ?_⟩
  · rw [ofComponents_of_ne_nil hnil, toList_slashed]
  · intro dir below hne hcut
    exact get?_before_slash h hkey hne hcut
  · intro hnode below
    cases hbelow : entries.get? (ofComponents names ++ "/" ++ below) with
    | none => rfl
    | some other =>
      -- Something below the key makes the key a directory.
      have hdir := get?_before_slash h hbelow (toList_ofComponents_ne_nil names)
        (by simp : _ = (ofComponents names).toList ++ '/' :: below.toList)
      rw [String.ofList_toList] at hdir
      exact absurd (Option.some.inj (hkey.symm.trans hdir)) hnode

/-! ## Refusals -/

/-- **A refused operation has changed nothing**, although directories are made on the way to a path
before all is checked. -/
theorem tree_after_refusal (quota : UInt64) (operations : List Operation) (operation : Operation)
    (err : StorageError)
    (herr : (((rootOnly quota).performAll operations).1.perform operation).2 = .error err) :
    (((rootOnly quota).performAll operations).1.perform operation).1 =
      ((rootOnly quota).performAll operations).1 :=
  (performed (isHierarchy_reached quota operations) operation).eq_of_error herr

/-- A special node is refused below a file, two directories further down a path that begins with a
directory which is there. -/
theorem tree_after_refusal_below_file :
    let operations : List Operation :=
      [.makeDirectories "/kept", .write "kept//note" ⟨#[104, 105]⟩]
    let tree := ((rootOnly defaultQuota).performAll operations).1
    (tree.perform (.makeSpecial "/kept/./note/new/pipe")).2 =
        .error (.notADirectory "/kept/note") ∧
      (tree.perform (.makeSpecial "/kept/./note/new/pipe")).1 = tree := by
  have herr : (((rootOnly defaultQuota).performAll
      [.makeDirectories "/kept", .write "kept//note" ⟨#[104, 105]⟩]).1.perform
        (.makeSpecial "/kept/./note/new/pipe")).2 = .error (.notADirectory "/kept/note") := by
    decide
  exact ⟨herr, tree_after_refusal _ _ _ _ herr⟩

end PluginBridge.FileTree
