import PluginBridge.Proofs.Storage.Quota

/-!
# Putting a node at a path

Writing a file, making directories and making a special node differ in the node that they put at a
path and in what they ask of what stands there.  What they ask of the directories on the way is the
same, and so is what they leave behind.

* `withAncestors_of_clear` and `withAncestors_of_obstructed`: the directories on the way are made
  if no file and no special node stands there, and otherwise the refusal names the one that does;
* `placed_write`, `placed_makeDirectories` and `placed_makeSpecial`: each operation succeeds exactly
  if the way is clear and it is allowed at the path, and then puts its node there; and
* `AncestorsMade.get?_insert` and `AncestorsMade.held_insert`: what that does to every key, and to
  the bytes that are held.
-/

namespace PluginBridge

open PluginBridge.Path

/-- What is there already may be set again. -/
theorem Table.insert_of_get? {β : Type} {table : Table β} {key : String} {value : β}
    (h : table.get? key = some value) : table.insert key value = table := by
  apply Table.ext_get?
  intro k
  rw [Table.get?_insert]
  split
  · rename_i heq
    rw [← heq, h]
  · rfl

variable {entries made : Table Node} {path key : String} {node : Node}

/-! ## Obstacles -/

/-- A file or a special node stands at a key. -/
def IsObstructed (entries : Table Node) (key : String) : Prop :=
  (∃ data, entries.get? key = some (.file data)) ∨ entries.get? key = some .special

theorem not_isObstructed_iff : ¬IsObstructed entries key ↔ IsPassable entries key := by
  rw [IsPassable, IsObstructed]
  cases entries.get? key with
  | none => simp
  | some node => cases node <;> simp

theorem not_isPassable_iff : ¬IsPassable entries key ↔ IsObstructed entries key := by
  rw [← not_isObstructed_iff, Classical.not_not]

theorem IsObstructed.exists_node (h : IsObstructed entries key) :
    ∃ node, entries.get? key = some node := by
  rcases h with ⟨data, hfile⟩ | hspecial
  · exact ⟨_, hfile⟩
  · exact ⟨_, hspecial⟩

theorem IsObstructed.ne_directory (h : IsObstructed entries key) :
    entries.get? key ≠ some .directory := by
  intro hdir
  exact not_isPassable_iff.2 h (.inr hdir)

/-- No file and no special node stands on the way to a path. -/
def IsClear (entries : Table Node) (path : String) : Prop :=
  ∀ dir ∈ ancestors path, ¬IsObstructed entries dir

theorem isClear_iff : IsClear entries path ↔ ∀ dir ∈ ancestors path, IsPassable entries dir := by
  simp only [IsClear, not_isObstructed_iff]

/-- Where nothing stands in the way of some directories, making them makes what is missing. -/
theorem FileTree.get?_ensureDirectories_of_passable {dirs : List String}
    (hpass : ∀ dir ∈ dirs, IsPassable entries dir) (key : String) :
    (ensureDirectories dirs entries).1.get? key =
      if key ∈ dirs then some .directory else entries.get? key := by
  have hok := ensureDirectories_ok_iff.2 hpass
  cases hens : ensureDirectories dirs entries with
  | mk made result =>
    rw [hens] at hok
    obtain rfl : result = .ok () := hok
    exact get?_ensureDirectories hens key

/-- On a clear way the directories can be made. -/
theorem IsClear.ancestorsMade (hclear : IsClear entries path) :
    AncestorsMade entries path (FileTree.ensureDirectories (ancestors path) entries).1 := by
  have hpass := isClear_iff.1 hclear
  exact ⟨hpass, FileTree.get?_ensureDirectories_of_passable hpass⟩

theorem AncestorsMade.isClear (hmade : AncestorsMade entries path made) : IsClear entries path :=
  isClear_iff.2 hmade.passable

namespace IsHierarchy

variable {names above below : List String}

/-- Nothing obstructs what is above something. -/
theorem not_isObstructed_above (h : IsHierarchy entries) (hnames : AreNames names)
    (hget : entries.get? (ofComponents names) = some node) (hpre : above <+: names)
    (hne : above ≠ names) : ¬IsObstructed entries (ofComponents above) := by
  intro hobs
  exact hobs.ne_directory (h.directory_above hnames hget hpre hne)

/-- On the way to one place there is at most one obstacle: above it are directories, and nothing is
below it. -/
theorem eq_of_isObstructed (h : IsHierarchy entries) (hnames : AreNames names)
    (habove : above <+: names) (hbelow : below <+: names)
    (hobs : IsObstructed entries (ofComponents above))
    (hobs' : IsObstructed entries (ofComponents below)) : above = below := by
  obtain ⟨node, hnode⟩ := hobs.exists_node
  obtain ⟨node', hnode'⟩ := hobs'.exists_node
  apply Classical.byContradiction
  intro hne
  rcases List.prefix_or_prefix_of_prefix habove hbelow with hpre | hpre
  · exact h.not_isObstructed_above (hnames.of_isPrefix hbelow) hnode' hpre hne hobs
  · exact h.not_isObstructed_above (hnames.of_isPrefix habove) hnode hpre (Ne.symm hne) hobs'

/-- The root is a directory, so it may be counted among what is on the way to a path. -/
theorem isClear_iff (h : IsHierarchy entries) : IsClear entries path ↔
    ∀ above, above <+: components path → above ≠ components path →
      ¬IsObstructed entries (ofComponents above) := by
  constructor
  · intro hclear above hpre hne
    by_cases hnil : above = []
    · rw [hnil, ofComponents_nil]
      intro hobs
      exact hobs.ne_directory h.root
    · exact hclear _ (mem_ancestors_iff.2 ⟨above, ⟨hnil, hpre, hne⟩, rfl⟩)
  · intro hall dir hdir
    obtain ⟨above, ⟨-, hpre, hne⟩, rfl⟩ := mem_ancestors_iff.1 hdir
    exact hall above hpre hne

end IsHierarchy

/-! ## What is left behind -/

namespace AncestorsMade

theorem eq_ensureDirectories (hmade : AncestorsMade entries path made) :
    made = (FileTree.ensureDirectories (ancestors path) entries).1 := by
  apply Table.ext_get?
  intro key
  rw [hmade.get?, hmade.isClear.ancestorsMade.get?]

/-- The directories on the way to a path cost nothing. -/
theorem held_eq (hmade : AncestorsMade entries path made) : held made = held entries := by
  rw [hmade.eq_ensureDirectories, FileTree.held_ensureDirectories]

/-- A node at a path and the directories on the way to it: every other key is as before. -/
theorem get?_insert (hmade : AncestorsMade entries path made) (node : Node) (key : String) :
    (made.insert (Path.normalize path) node).get? key =
      if key = Path.normalize path then some node
      else if key ∈ ancestors path then some .directory
      else entries.get? key := by
  rw [Table.get?_insert, hmade.get?]
  simp only [eq_comm]

/-- With a node at a path, its bytes are held instead of those that were held there. -/
theorem held_insert (hmade : AncestorsMade entries path made) (node : Node) :
    held (made.insert (Path.normalize path) node) =
      node.size + heldBeside entries (Path.normalize path) := by
  rw [PluginBridge.held_insert, heldBeside_congr hmade.held_eq hmade.get?_normalize]

end AncestorsMade

/-! ## Making the directories on the way -/

namespace FileTree

variable {tree : FileTree}

/-- On a clear way, what comes next sees the table with the directories. -/
theorem withAncestors_of_clear (hclear : IsClear tree.entries path)
    (next : Table Node → Change) :
    ∃ made, AncestorsMade tree.entries path made ∧
      tree.withAncestors (Path.normalize path) next = next made := by
  apply withAncestors_cases (P := fun change =>
    ∃ made, AncestorsMade tree.entries path made ∧ change = next made)
  · intro made err hens
    obtain ⟨dir, hdir, hobs, -⟩ := ensureDirectories_error (congrArg Prod.snd hens)
    rw [ancestors_normalize] at hdir
    exact absurd (not_isPassable_iff.1 hobs) (hclear dir hdir)
  · intro made _ hmade
    exact ⟨made, hmade, rfl⟩

theorem withAncestors_of_not_clear (hclear : ¬IsClear tree.entries path)
    (next : Table Node → Change) :
    ∃ left err, tree.withAncestors (Path.normalize path) next = (left, .error err) := by
  apply withAncestors_cases (P := fun change => ∃ left err, change = (left, .error err))
  · intro made err _
    exact ⟨_, err, rfl⟩
  · intro made _ hmade
    exact absurd hmade.isClear hclear

/-- The obstacle on the way is named, and in a tree nothing has been made before it. -/
theorem withAncestors_of_obstructed (h : IsHierarchy tree.entries) {above : List String}
    (hpre : above <+: components path) (hne : above ≠ components path)
    (hobs : IsObstructed tree.entries (ofComponents above)) (next : Table Node → Change) :
    tree.withAncestors (Path.normalize path) next =
      (tree, .error (.notADirectory (ofComponents above))) := by
  apply withAncestors_cases (P := fun change =>
    change = (tree, .error (.notADirectory (ofComponents above))))
  · intro made err hens
    have herr := congrArg Prod.snd hens
    have hsame : made = tree.entries := by
      rw [← ensureDirectories_refused h herr, hens]
    obtain ⟨dir, hdir, hother, rfl⟩ := ensureDirectories_error herr
    obtain ⟨other, hbetween, rfl⟩ := mem_ancestors_iff.1 hdir
    rw [components_normalize] at hbetween
    rw [hsame, h.eq_of_isObstructed (areNames_components path) hpre hbetween.2.1 hobs
      (not_isPassable_iff.1 hother)]
  · intro made _ hmade
    exact absurd hobs (h.isClear_iff.1 hmade.isClear above hpre hne)

/-! ## The three operations -/

/-- What comes of putting a node at a path: it is done if the way is clear and the operation is
allowed at the path, and refused otherwise. -/
inductive Placed (tree : FileTree) (path : String) (node : Node) (allowed : Prop) :
    Change → Prop where
  | done {made : Table Node} (hallowed : allowed)
      (hmade : AncestorsMade tree.entries path made) :
      Placed tree path node allowed
        ({ tree with entries := made.insert (Path.normalize path) node }, .ok ())
  | refused (left : FileTree) (err : StorageError)
      (hno : ¬(IsClear tree.entries path ∧ allowed)) :
      Placed tree path node allowed (left, .error err)

namespace Placed

variable {allowed : Prop} {change : Change}

theorem ok_iff (h : Placed tree path node allowed change) :
    change.2 = .ok () ↔ IsClear tree.entries path ∧ allowed := by
  cases h with
  | done hallowed hmade => exact ⟨fun _ => ⟨hmade.isClear, hallowed⟩, fun _ => rfl⟩
  | refused left err hno => exact ⟨fun hok => (nomatch hok), fun hyes => absurd hyes hno⟩

theorem exists_made (h : Placed tree path node allowed change) (hok : change.2 = .ok ()) :
    ∃ made, AncestorsMade tree.entries path made ∧
      change.1 = { tree with entries := made.insert (Path.normalize path) node } := by
  cases h with
  | done hallowed hmade => exact ⟨_, hmade, rfl⟩
  | refused left err hno => cases hok

/-- The directories on the way are made first, so what remains is what happens at the path. -/
theorem of_withAncestors {next : Table Node → Change}
    (hdone : ∀ made, AncestorsMade tree.entries path made → allowed → next made =
      ({ tree with entries := made.insert (Path.normalize path) node }, .ok ()))
    (hrefused : ∀ made, AncestorsMade tree.entries path made → ¬allowed →
      ∃ left err, next made = (left, .error err)) :
    Placed tree path node allowed (tree.withAncestors (Path.normalize path) next) := by
  by_cases hclear : IsClear tree.entries path
  · obtain ⟨made, hmade, heq⟩ := withAncestors_of_clear hclear next
    rw [heq]
    by_cases hallowed : allowed
    · rw [hdone made hmade hallowed]
      exact .done hallowed hmade
    · obtain ⟨left, err, hleft⟩ := hrefused made hmade hallowed
      rw [hleft]
      exact .refused left err fun hyes => hallowed hyes.2
  · obtain ⟨left, err, hleft⟩ := withAncestors_of_not_clear hclear next
    rw [hleft]
    exact .refused left err fun hyes => hclear hyes.1

end Placed

/-- A write finds a file or nothing at the path, and the bytes it brings fit beside all others. -/
structure MayWrite (tree : FileTree) (path : String) (data : ByteArray) : Prop where
  ne_directory : tree.entries.get? (Path.normalize path) ≠ some .directory
  ne_special : tree.entries.get? (Path.normalize path) ≠ some .special
  fits : heldBeside tree.entries (Path.normalize path) + data.size ≤ tree.quota.toNat

theorem placed_write (tree : FileTree) (path : String) (data : ByteArray) :
    Placed tree path (.file data) (tree.MayWrite path data) (tree.write path data) := by
  by_cases hdir : tree.entries.get? (Path.normalize path) = some .directory
  · simp only [write, hdir]
    exact .refused _ _ fun hyes => hyes.2.ne_directory hdir
  by_cases hspecial : tree.entries.get? (Path.normalize path) = some .special
  · simp only [write, hspecial]
    exact .refused _ _ fun hyes => hyes.2.ne_special hspecial
  rw [write_eq tree path data hdir hspecial]
  split
  · rename_i hover
    exact .refused _ _ fun hyes => Nat.not_le.2 hover hyes.2.fits
  · rename_i hunder
    have hmay : tree.MayWrite path data := ⟨hdir, hspecial, Nat.not_lt.1 hunder⟩
    apply Placed.of_withAncestors
    · intro made _ _
      rfl
    · intro made _ hno
      exact absurd hmay hno

theorem placed_makeDirectories (tree : FileTree) (path : String) :
    Placed tree path .directory (¬IsObstructed tree.entries (Path.normalize path))
      (tree.makeDirectories path) := by
  rw [makeDirectories]
  apply Placed.of_withAncestors
  · intro made hmade hfree
    rcases not_isObstructed_iff.1 hfree with hnone | hdir
    · simp only [hmade.get?_normalize, hnone]
    · simp only [hmade.get?_normalize, hdir]
      rw [Table.insert_of_get? (hmade.get?_normalize.trans hdir)]
  · intro made hmade hobs
    rcases Classical.not_not.1 hobs with ⟨data, hfile⟩ | hspecial
    · simp only [hmade.get?_normalize, hfile]
      exact ⟨_, _, rfl⟩
    · simp only [hmade.get?_normalize, hspecial]
      exact ⟨_, _, rfl⟩

theorem placed_makeSpecial (tree : FileTree) (path : String) :
    Placed tree path .special (tree.entries.get? (Path.normalize path) = none)
      (tree.makeSpecial path) := by
  rw [makeSpecial]
  apply Placed.of_withAncestors
  · intro made hmade hnone
    simp [hmade.get?_normalize, hnone]
  · intro made hmade hsome
    obtain ⟨node, hnode⟩ := Option.ne_none_iff_exists'.1 hsome
    simp only [hmade.get?_normalize, hnode, Option.isSome_some, if_true]
    exact ⟨_, _, rfl⟩

end FileTree

end PluginBridge
