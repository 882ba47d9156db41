import PluginBridge.Proofs.Storage.Quota

/-!
# Under a larger quota

The quota is read in one place, where a write is refused for it, and that is before anything else
can be refused or changed.  So a course of operations that is never refused for the quota does not
tell it from a larger one: a step under the larger quota is the same step (`perform_underQuota`), and
so is every step of a run (`run_under_larger_quota`).
-/

namespace PluginBridge.FileTree

variable {tree : FileTree} {limit : UInt64}

/-- The tree as it is under another quota. -/
abbrev underQuota (tree : FileTree) (limit : UInt64) : FileTree :=
  { tree with quota := limit }

theorem rootOnly_underQuota (quota limit : UInt64) :
    (rootOnly quota).underQuota limit = rootOnly limit := rfl

/-! ## Changes -/

/-- What is made on the way to a path does not depend on the quota. -/
theorem withAncestors_underQuota (path : String) {next next' : Table Node → Change}
    (hnext : ∀ made, next' made = ((next made).1.underQuota limit, (next made).2)) :
    (tree.underQuota limit).withAncestors path next' =
      ((tree.withAncestors path next).1.underQuota limit, (tree.withAncestors path next).2) := by
  rw [withAncestors, withAncestors]
  rcases ensureDirectories (Path.ancestors path) tree.entries with ⟨made, outcome⟩
  cases outcome with
  | ok done => exact hnext made
  | error err => rfl

theorem makeDirectory_underQuota (tree : FileTree) (limit : UInt64) (path : String) :
    (tree.underQuota limit).makeDirectory path =
      ((tree.makeDirectory path).1.underQuota limit, (tree.makeDirectory path).2) := by
  rw [makeDirectory, makeDirectory]
  cases tree.entries.get? (Path.normalize path) <;>
    cases Path.parent? (Path.normalize path) with
    | none => rfl
    | some parent =>
      dsimp only [underQuota]
      cases tree.entries.get? parent with
      | none => rfl
      | some node => cases node <;> rfl

theorem makeDirectories_underQuota (tree : FileTree) (limit : UInt64) (path : String) :
    (tree.underQuota limit).makeDirectories path =
      ((tree.makeDirectories path).1.underQuota limit, (tree.makeDirectories path).2) := by
  rw [makeDirectories, makeDirectories]
  refine withAncestors_underQuota _ fun made => ?_
  cases made.get? (Path.normalize path) with
  | none => rfl
  | some node => cases node <;> rfl

theorem makeSpecial_underQuota (tree : FileTree) (limit : UInt64) (path : String) :
    (tree.underQuota limit).makeSpecial path =
      ((tree.makeSpecial path).1.underQuota limit, (tree.makeSpecial path).2) := by
  rw [makeSpecial, makeSpecial]
  refine withAncestors_underQuota _ fun made => ?_
  cases made.get? (Path.normalize path) <;> rfl

theorem remove_underQuota (tree : FileTree) (limit : UInt64) (path : String) :
    (tree.underQuota limit).remove path =
      ((tree.remove path).1.underQuota limit, (tree.remove path).2) := by
  rw [remove, remove]
  by_cases hroot : Path.normalize path = "/"
  · rw [if_pos hroot, if_pos hroot]
  rw [if_neg hroot, if_neg hroot]
  by_cases hunder : tree.entries.entriesUnder (Path.normalize path ++ "/") = []
  · rw [if_neg (not_not_intro hunder), if_neg (not_not_intro hunder)]
    cases tree.entries.get? (Path.normalize path) <;> rfl
  · rw [if_pos hunder, if_pos hunder]

/-- A write that the quota allows, a larger one allows too, and what comes after the check does not
depend on it. -/
theorem write_underQuota (hle : tree.quota ≤ limit) {path : String} {data : ByteArray}
    (hfits : ∀ key wanted quota,
      (tree.write path data).2 ≠ .error (.quotaExceeded key wanted quota)) :
    (tree.underQuota limit).write path data =
      ((tree.write path data).1.underQuota limit, (tree.write path data).2) := by
  by_cases hdir : tree.entries.get? (Path.normalize path) = some .directory
  · simp only [write, hdir]
  by_cases hspecial : tree.entries.get? (Path.normalize path) = some .special
  · simp only [write, hspecial]
  have hunder : ¬tree.quota.toNat <
      heldBeside tree.entries (Path.normalize path) + data.size := by
    intro hover
    exact hfits _ _ _ ((write_quotaExceeded_iff hdir hspecial).2 ⟨hover, rfl, rfl, rfl⟩)
  have hunder' : ¬(tree.underQuota limit).quota.toNat <
      heldBeside (tree.underQuota limit).entries (Path.normalize path) + data.size := by
    have hlimit : tree.quota.toNat ≤ limit.toNat := UInt64.le_iff_toNat_le.1 hle
    exact fun hover => hunder (Nat.lt_of_le_of_lt hlimit hover)
  rw [write_eq tree path data hdir hspecial, if_neg hunder,
    write_eq (tree.underQuota limit) path data hdir hspecial, if_neg hunder']
  exact withAncestors_underQuota _ fun made => rfl

/-! ## Questions -/

theorem walk_underQuota (tree : FileTree) (limit : UInt64) (depth : Nat) (dir : String) :
    (tree.underQuota limit).walk depth dir = tree.walk depth dir := by
  induction depth generalizing dir with
  | zero => rfl
  | succ depth ih =>
    simp only [walk, ih]
    rfl

/-! ## Step and run -/

/-- Is an operation refused for the quota? -/
def IsOverQuota (answer : Except StorageError Answer) : Prop :=
  ∃ key wanted quota, answer = .error (.quotaExceeded key wanted quota)

/-- **One operation.**  Unless it asks for the quota, or is refused for it, it does under a larger
quota what it does under a smaller one. -/
theorem perform_underQuota (hle : tree.quota ≤ limit) {operation : Operation}
    (hasks : operation ≠ .quota) (hfits : ¬IsOverQuota (tree.perform operation).2) :
    (tree.underQuota limit).perform operation =
      ((tree.perform operation).1.underQuota limit, (tree.perform operation).2) := by
  cases operation <;> simp only [perform, perform.changed]
  case write path data =>
    rw [write_underQuota hle]
    intro key wanted quota hover
    refine hfits ⟨key, wanted, quota, ?_⟩
    rw [perform, perform.changed, hover]
    rfl
  case makeDirectory path => rw [makeDirectory_underQuota]
  case makeDirectories path => rw [makeDirectories_underQuota]
  case makeSpecial path => rw [makeSpecial_underQuota]
  case remove path => rw [remove_underQuota]
  case stat path => rfl
  case list path => rfl
  case checkDirectory path => rfl
  case bytesHeld => rfl
  case quota => exact absurd rfl hasks
  case visits =>
    rw [visits, walk_underQuota]
    rfl

/-- **A course of operations.** -/
theorem performAll_underQuota {quota : UInt64} (h : tree.IsWithin quota) (hle : quota ≤ limit)
    {operations : List Operation} (hasks : .quota ∉ operations)
    (hfits : ∀ answer ∈ (tree.performAll operations).2, ¬IsOverQuota answer) :
    (tree.underQuota limit).performAll operations =
      ((tree.performAll operations).1.underQuota limit, (tree.performAll operations).2) := by
  induction operations generalizing tree with
  | nil => rfl
  | cons operation rest ih =>
    obtain ⟨hfirst, hrest⟩ := List.forall_mem_cons.1 hfits
    have hstep := perform_underQuota (h.quota_eq ▸ hle) (Ne.symm (List.ne_of_not_mem_cons hasks))
      hfirst
    have hrun := ih (isWithin_perform h operation) (List.not_mem_of_not_mem_cons hasks) hrest
    simp only [performAll, hstep, hrun]

/-! ## Main result -/

/-- **A larger quota shows only where the smaller one refuses.**  A course of operations none of which
is refused for the quota, and none of which asks for it, gives the same answers under any larger one,
other refusals and their data included, and leaves the same entries after each operation. -/
theorem run_under_larger_quota (quota larger : UInt64) (hle : quota ≤ larger)
    (operations : List Operation) (hasks : .quota ∉ operations)
    (hfits : ∀ answer ∈ ((rootOnly quota).performAll operations).2, ¬IsOverQuota answer) :
    ((rootOnly larger).performAll operations).2 = ((rootOnly quota).performAll operations).2 ∧
      ∀ before, before <+: operations →
        ((rootOnly larger).performAll before).1.entries =
          ((rootOnly quota).performAll before).1.entries := by
  rw [← rootOnly_underQuota quota larger,
    performAll_underQuota (isWithin_rootOnly quota) hle hasks hfits]
  refine ⟨rfl, ?_⟩
  rintro before ⟨after, rfl⟩
  have hasks' : .quota ∉ before := fun hmem => hasks (List.mem_append_left _ hmem)
  rw [performAll_append] at hfits
  rw [performAll_underQuota (isWithin_rootOnly quota) hle hasks' fun answer hmem =>
    hfits answer (List.mem_append_left _ hmem)]

/-- Eight bytes fill the smaller quota, and a write below the file that holds five of them gets as far
as the directories on its way. -/
theorem run_under_larger_quota_to_the_brim :
    let operations : List Operation :=
      [.write "/a" ⟨#[49, 50, 51, 52, 53]⟩, .makeDirectory "/x/y", .write "/a/b" ⟨#[54, 55, 56]⟩,
        .write "/b" ⟨#[54, 55, 56]⟩, .remove "/", .bytesHeld, .list "/"]
    let answers : List (Except StorageError Answer) :=
      [.ok .done, .error (.parentMissing "/x"), .error (.notADirectory "/a"), .ok .done,
        .error .cannotRemoveRoot, .ok (.bytes 8), .ok (.children [⟨"a", .file⟩, ⟨"b", .file⟩])]
    ((rootOnly 8).performAll operations).2 = answers ∧ .quota ∉ operations ∧
      (∀ answer ∈ answers, ¬IsOverQuota answer) ∧
      ((rootOnly 20).performAll operations).2 = answers := by
  intro operations answers
  have hanswers : ((rootOnly 8).performAll operations).2 = answers := by decide
  have hasks : .quota ∉ operations := by decide
  have hfits : ∀ answer ∈ answers, ¬IsOverQuota answer := by
    rintro answer hmem ⟨key, wanted, quota, rfl⟩
    simp [answers] at hmem
  have hsame := (run_under_larger_quota 8 20 (by decide) operations hasks (hanswers ▸ hfits)).1
  exact ⟨hanswers, hasks, hfits, hsame.trans hanswers⟩

end PluginBridge.FileTree
