import PluginBridge.Proofs.Storage.Placement

/-!
# Creations commute

What a creation leaves behind is a layout, the new node with the directories on the way to it, laid
over the tree.  It succeeds where the layout joins with the tree, meeting at most in directories
(`perform_ok_iff`), and then the tree is the one with the layout on top (`Creates`).  Of two layouts
it does not matter which is laid first: both succeed exactly if each joins with the tree and the two
with each other, and the bytes of both fit (`both_ok_iff`).  `creations_commute` says this of all
trees that operations can reach.
-/

namespace PluginBridge

open PluginBridge.Path

/-! ## Layouts -/

/-- Two nodes may be wanted in one place if only one of them is, or if both are directories. -/
def AreJoinable (a b : Option Node) : Prop :=
  a = none ∨ b = none ∨ (a = some .directory ∧ b = some .directory)

namespace AreJoinable

variable {a b c : Option Node}

theorem symm (h : AreJoinable a b) : AreJoinable b a := by
  rcases h with hnone | hnone | ⟨ha, hb⟩
  · exact .inr (.inl hnone)
  · exact .inl hnone
  · exact .inr (.inr ⟨hb, ha⟩)

/-- Of two nodes that may be wanted in one place, either comes first. -/
theorem or_comm (h : AreJoinable a b) : a.or b = b.or a := by
  rcases h with rfl | rfl | ⟨rfl, rfl⟩ <;> simp

/-- What joins with both joins with what they leave in their place. -/
theorem or_right_iff (h : AreJoinable a b) :
    AreJoinable c (a.or b) ↔ AreJoinable c a ∧ AreJoinable c b := by
  rcases h with rfl | rfl | ⟨rfl, rfl⟩ <;> simp [AreJoinable]

theorem directory_iff : AreJoinable (some .directory) b ↔ b = none ∨ b = some .directory := by
  simp [AreJoinable]

theorem iff_none_of_ne_directory {node : Node} (hnode : node ≠ .directory) :
    AreJoinable (some node) b ↔ b = none := by
  simp [AreJoinable, hnode]

end AreJoinable

/-! ## Creations -/

/-- An operation that makes something. -/
inductive Creation where
  | directories (path : String)
  | special (path : String)
  | file (path : String) (data : ByteArray)

namespace Creation

def path : Creation → String
  | directories path => path
  | special path => path
  | file path _ => path

/-- What is to stand at the path. -/
def node : Creation → Node
  | directories _ => .directory
  | special _ => .special
  | file _ data => .file data

def operation : Creation → FileTree.Operation
  | directories path => .makeDirectories path
  | special path => .makeSpecial path
  | file path data => .write path data

/-- A write makes something only if there is no file yet that it replaces. -/
def IsNew (tree : FileTree) : Creation → Prop
  | file path _ => ∀ old, tree.entries.get? (Path.normalize path) ≠ some (.file old)
  | _ => True

/-- What a creation wants to stand where. -/
def layout (creation : Creation) (key : String) : Option Node :=
  if key = Path.normalize creation.path then some creation.node
  else if key ∈ ancestors creation.path then some .directory
  else none

variable {creation a b : Creation} {tree : FileTree} {quota : UInt64}

/-- A layout joins with a table exactly if the way is clear and the node may stand at the path. -/
theorem joins_iff {entries : Table Node} :
    (∀ key, AreJoinable (creation.layout key) (entries.get? key)) ↔
      IsClear entries creation.path ∧
        AreJoinable (some creation.node) (entries.get? (Path.normalize creation.path)) := by
  constructor
  · intro hall
    refine ⟨isClear_iff.2 fun dir hmem => ?_, ?_⟩
    · have hne : dir ≠ Path.normalize creation.path := fun heq =>
        normalize_notMem_ancestors creation.path (heq ▸ hmem)
      have hdir := hall dir
      rw [layout, if_neg hne, if_pos hmem] at hdir
      exact AreJoinable.directory_iff.1 hdir
    · have hpath := hall (Path.normalize creation.path)
      rwa [layout, if_pos rfl] at hpath
  · rintro ⟨hclear, hpath⟩ key
    rw [layout]
    split
    · rename_i heq
      rwa [heq]
    split
    · rename_i hmem
      exact AreJoinable.directory_iff.2 (isClear_iff.1 hclear key hmem)
    · exact .inl rfl

/-- Away from its path, a creation wants nothing but directories. -/
theorem layout_of_ne {key : String} (hkey : key ≠ Path.normalize creation.path) :
    creation.layout key = none ∨ creation.layout key = some .directory := by
  rw [layout, if_neg hkey]
  split
  · exact .inr rfl
  · exact .inl rfl

/-! ## One creation -/

/-- What a creation asks of what stands at its path. -/
def Allowed (tree : FileTree) : Creation → Prop
  | directories path => ¬IsObstructed tree.entries (Path.normalize path)
  | special path => tree.entries.get? (Path.normalize path) = none
  | file path data => tree.MayWrite path data

/-- A creation puts its node at its path. -/
theorem placed_perform (creation : Creation) (tree : FileTree) :
    ∃ change, tree.perform creation.operation = FileTree.perform.changed change ∧
      tree.Placed creation.path creation.node (creation.Allowed tree) change := by
  cases creation with
  | directories path => exact ⟨_, rfl, FileTree.placed_makeDirectories tree path⟩
  | special path => exact ⟨_, rfl, FileTree.placed_makeSpecial tree path⟩
  | file path data => exact ⟨_, rfl, FileTree.placed_write tree path data⟩

/-- Where there is no file to replace, a write needs an empty place and room beside all files. -/
theorem mayWrite_iff_of_new {path : String} {data : ByteArray}
    (hnew : (file path data).IsNew tree) :
    tree.MayWrite path data ↔ tree.entries.get? (Path.normalize path) = none ∧
      held tree.entries + data.size ≤ tree.quota.toNat := by
  constructor
  · rintro ⟨hdir, hspecial, hfits⟩
    have hnone : tree.entries.get? (Path.normalize path) = none := by
      cases hget : tree.entries.get? (Path.normalize path) with
      | none => rfl
      | some node =>
        cases node with
        | directory => exact absurd hget hdir
        | special => exact absurd hget hspecial
        | file old => exact absurd hget (hnew old)
    exact ⟨hnone, heldBeside_of_none hnone ▸ hfits⟩
  · rintro ⟨hnone, hfits⟩
    exact ⟨by simp [hnone], by simp [hnone], (heldBeside_of_none hnone).symm ▸ hfits⟩

/-- A creation that replaces no file is allowed where its node joins with what stands there and its
bytes fit. -/
theorem allowed_iff (hwithin : tree.IsWithin quota) (hnew : creation.IsNew tree) :
    creation.Allowed tree ↔
      AreJoinable (some creation.node) (tree.entries.get? (Path.normalize creation.path)) ∧
        held tree.entries + creation.node.size ≤ quota.toNat := by
  cases creation with
  | directories path =>
    rw [Allowed, not_isObstructed_iff, and_iff_left (by exact hwithin.held_le)]
    exact AreJoinable.directory_iff.symm
  | special path =>
    have hne : (special path).node ≠ .directory := nofun
    rw [Allowed, and_iff_left (by exact hwithin.held_le)]
    exact (AreJoinable.iff_none_of_ne_directory hne).symm
  | file path data =>
    have hne : (file path data).node ≠ .directory := nofun
    rw [Allowed, mayWrite_iff_of_new hnew, hwithin.quota_eq]
    exact and_congr_left' (AreJoinable.iff_none_of_ne_directory hne).symm

/-- A creation that replaces no file succeeds exactly if its layout joins with the tree and its bytes
fit. -/
theorem perform_ok_iff (hwithin : tree.IsWithin quota) (hnew : creation.IsNew tree) :
    (tree.perform creation.operation).2 = .ok .done ↔
      (∀ key, AreJoinable (creation.layout key) (tree.entries.get? key)) ∧
        held tree.entries + creation.node.size ≤ quota.toNat := by
  obtain ⟨change, hperform, hplaced⟩ := placed_perform creation tree
  have hdone : (tree.perform creation.operation).2 = .ok .done ↔ change.2 = .ok () := by
    rw [hperform, FileTree.perform.changed]
    cases change.2 <;> simp [Except.map]
  rw [hdone, hplaced.ok_iff, allowed_iff hwithin hnew, joins_iff, and_assoc]

/-- The tree with a layout on top. -/
structure Creates (creation : Creation) (tree after : FileTree) : Prop where
  quota : after.quota = tree.quota
  get? : ∀ key, after.entries.get? key = (creation.layout key).or (tree.entries.get? key)
  held : held after.entries = held tree.entries + creation.node.size

theorem creates_perform (hwithin : tree.IsWithin quota) (hnew : creation.IsNew tree)
    (hok : (tree.perform creation.operation).2 = .ok .done) :
    creation.Creates tree (tree.perform creation.operation).1 := by
  obtain ⟨hjoins, -⟩ := (perform_ok_iff hwithin hnew).1 hok
  obtain ⟨change, hperform, hplaced⟩ := placed_perform creation tree
  rw [hperform] at hok ⊢
  have hdone : change.2 = .ok () := by
    cases hchange : change.2 with
    | ok done => rfl
    | error err => simp [FileTree.perform.changed, hchange, Except.map] at hok
  obtain ⟨made, hmade, hafter⟩ := hplaced.exists_made hdone
  rw [FileTree.changed_fst, hafter]
  refine ⟨rfl, ?_, ?_⟩
  · intro key
    rw [hmade.get?_insert, layout]
    split
    · rfl
    split <;> rfl
  · -- Nothing that holds bytes has been replaced.
    have hnothing : heldAt tree.entries (Path.normalize creation.path) = 0 := by
      rcases (joins_iff.1 hjoins).2 with hnone | hnone | ⟨-, hdir⟩
      · cases hnone
      · rw [heldAt, hnone]; rfl
      · rw [heldAt, hdir]; rfl
    rw [hmade.held_insert, held_eq tree.entries (Path.normalize creation.path), hnothing,
      Nat.zero_add, Nat.add_comm]

/-! ## Two creations -/

/-- A creation at another path replaces no file after the first any more than before. -/
theorem Creates.isNew {after : FileTree} (hcreates : a.Creates tree after)
    (hpaths : components a.path ≠ components b.path) (hnew : b.IsNew tree) : b.IsNew after := by
  cases b with
  | directories path => trivial
  | special path => trivial
  | file path data =>
    intro old hold
    have hkey : Path.normalize path ≠ Path.normalize a.path := fun heq =>
      hpaths (normalize_eq_normalize_iff.1 heq.symm)
    rw [hcreates.get?] at hold
    rcases layout_of_ne hkey with hnone | hdir
    · rw [hnone, Option.none_or] at hold
      exact hnew old hold
    · rw [hdir] at hold
      cases hold

/-- Two creations succeed one after the other exactly if their layouts join with the tree and with
each other and the bytes of both fit.  This does not tell which was first. -/
theorem both_ok_iff (hwithin : tree.IsWithin quota)
    (hpaths : components a.path ≠ components b.path) (ha : a.IsNew tree) (hb : b.IsNew tree) :
    (tree.perform a.operation).2 = .ok .done ∧
        ((tree.perform a.operation).1.perform b.operation).2 = .ok .done ↔
      (∀ key, AreJoinable (a.layout key) (tree.entries.get? key)) ∧
      (∀ key, AreJoinable (b.layout key) (tree.entries.get? key)) ∧
      (∀ key, AreJoinable (a.layout key) (b.layout key)) ∧
      held tree.entries + a.node.size + b.node.size ≤ quota.toNat := by
  have hstep := FileTree.isWithin_perform hwithin a.operation
  constructor
  · rintro ⟨hfirst, hsecond⟩
    have hcreates := creates_perform hwithin ha hfirst
    obtain ⟨hjoins, -⟩ := (perform_ok_iff hwithin ha).1 hfirst
    obtain ⟨hjoins', hfits⟩ := (perform_ok_iff hstep (hcreates.isNew hpaths hb)).1 hsecond
    have hboth (key : String) := by
      have hkey := hjoins' key
      rwa [hcreates.get?, (hjoins key).or_right_iff] at hkey
    exact ⟨hjoins, fun key => (hboth key).2, fun key => (hboth key).1.symm, hcreates.held ▸ hfits⟩
  · rintro ⟨hjoins, hjoins', hjoin, hfits⟩
    have hfirst := (perform_ok_iff hwithin ha).2 ⟨hjoins, by omega⟩
    have hcreates := creates_perform hwithin ha hfirst
    refine ⟨hfirst, (perform_ok_iff hstep (hcreates.isNew hpaths hb)).2 ⟨fun key => ?_, ?_⟩⟩
    · rw [hcreates.get?, (hjoins key).or_right_iff]
      exact ⟨(hjoin key).symm, hjoins' key⟩
    · rw [hcreates.held]
      exact hfits

/-- Two layouts that join give one tree, whichever is on top. -/
theorem Creates.comm {afterA afterB afterAB afterBA : FileTree}
    (hjoin : ∀ key, AreJoinable (a.layout key) (b.layout key))
    (ha : a.Creates tree afterA) (hab : b.Creates afterA afterAB)
    (hb : b.Creates tree afterB) (hba : a.Creates afterB afterBA) : afterAB = afterBA := by
  have hquota : afterAB.quota = afterBA.quota := by
    rw [hab.quota, ha.quota, hba.quota, hb.quota]
  have hentries : afterAB.entries = afterBA.entries := by
    apply Table.ext_get?
    intro key
    rw [hab.get?, ha.get?, hba.get?, hb.get?, ← Option.or_assoc, ← Option.or_assoc,
      (hjoin key).or_comm]
  cases afterAB
  cases afterBA
  cases hquota
  cases hentries
  rfl

/-- So the order can be turned round. -/
theorem both_ok_swap (hwithin : tree.IsWithin quota)
    (hpaths : components a.path ≠ components b.path) (ha : a.IsNew tree) (hb : b.IsNew tree)
    (hok : (tree.perform a.operation).2 = .ok .done ∧
      ((tree.perform a.operation).1.perform b.operation).2 = .ok .done) :
    (tree.perform b.operation).2 = .ok .done ∧
      ((tree.perform b.operation).1.perform a.operation).2 = .ok .done := by
  obtain ⟨hjoins, hjoins', hjoin, hfits⟩ := (both_ok_iff hwithin hpaths ha hb).1 hok
  refine (both_ok_iff hwithin hpaths.symm hb ha).2
    ⟨hjoins', hjoins, fun key => (hjoin key).symm, ?_⟩
  rwa [Nat.add_right_comm]

/-- Two creations in one order leave what they leave in the other. -/
theorem perform_comm (hwithin : tree.IsWithin quota)
    (hpaths : components a.path ≠ components b.path) (ha : a.IsNew tree) (hb : b.IsNew tree)
    (hok : (tree.perform a.operation).2 = .ok .done ∧
      ((tree.perform a.operation).1.perform b.operation).2 = .ok .done) :
    ((tree.perform a.operation).1.perform b.operation).1 =
      ((tree.perform b.operation).1.perform a.operation).1 := by
  obtain ⟨-, -, hjoin, -⟩ := (both_ok_iff hwithin hpaths ha hb).1 hok
  obtain ⟨hbfirst, hasecond⟩ := both_ok_swap hwithin hpaths ha hb hok
  have hafterA := creates_perform hwithin ha hok.1
  have hafterB := creates_perform hwithin hb hbfirst
  have hafterAB := creates_perform (FileTree.isWithin_perform hwithin a.operation)
    (hafterA.isNew hpaths hb) hok.2
  have hafterBA := creates_perform (FileTree.isWithin_perform hwithin b.operation)
    (hafterB.isNew hpaths.symm ha) hasecond
  exact hafterA.comm hjoin hafterAB hafterB hafterBA

theorem answers_pair_iff (tree : FileTree) (first second : FileTree.Operation) :
    (tree.performAll [first, second]).2 = [.ok .done, .ok .done] ↔
      (tree.perform first).2 = .ok .done ∧
        ((tree.perform first).1.perform second).2 = .ok .done := by
  simp [FileTree.performAll]

/-- **Creations commute.**  Of two creations at different paths that replace no file, both succeed in
one order exactly if both succeed in the other, and then the trees are equal: whether one path lies
above the other, what directories they share, and what room the quota leaves. -/
theorem creations_commute (quota : UInt64) (operations : List FileTree.Operation) (a b : Creation)
    (hpaths : components a.path ≠ components b.path)
    (ha : a.IsNew ((FileTree.rootOnly quota).performAll operations).1)
    (hb : b.IsNew ((FileTree.rootOnly quota).performAll operations).1) :
    let tree := ((FileTree.rootOnly quota).performAll operations).1
    let forth := tree.performAll [a.operation, b.operation]
    let back := tree.performAll [b.operation, a.operation]
    (forth.2 = [.ok .done, .ok .done] ↔ back.2 = [.ok .done, .ok .done]) ∧
    (forth.2 = [.ok .done, .ok .done] → forth.1 = back.1) := by
  intro tree forth back
  have hwithin : tree.IsWithin quota := FileTree.isWithin_reached quota operations
  rw [answers_pair_iff, answers_pair_iff]
  exact ⟨⟨both_ok_swap hwithin hpaths ha hb, both_ok_swap hwithin hpaths.symm hb ha⟩,
    perform_comm hwithin hpaths ha hb⟩

/-- A file and a special node in a directory that neither finds there, under a quota that the file
uses up. -/
theorem creations_commute_in_new_directory :
    let operations : List FileTree.Operation := [.makeDirectories "/kept"]
    let tree := ((FileTree.rootOnly 2).performAll operations).1
    let note : Creation := .file "new//note" ⟨#[104, 105]⟩
    let terminal : Creation := .special "/new/./dev/tty"
    components note.path ≠ components terminal.path ∧ note.IsNew tree ∧ terminal.IsNew tree ∧
      (tree.performAll [note.operation, terminal.operation]).2 = [.ok .done, .ok .done] ∧
      (tree.performAll [note.operation, terminal.operation]).1 =
        (tree.performAll [terminal.operation, note.operation]).1 := by
  intro operations tree note terminal
  have hpaths : components note.path ≠ components terminal.path := by decide
  have hnone : tree.entries.get? (Path.normalize note.path) = none := by decide
  have hnote : note.IsNew tree := by
    intro old hold
    exact Option.some_ne_none _ (hold.symm.trans hnone)
  have hok : (tree.performAll [note.operation, terminal.operation]).2 =
      [.ok .done, .ok .done] := by
    decide +kernel
  obtain ⟨-, hsame⟩ := creations_commute 2 operations note terminal hpaths hnote trivial
  exact ⟨hpaths, hnote, trivial, hok, hsame hok⟩

end Creation

end PluginBridge
