import Mathlib.Data.List.Nodup
import PluginBridge.Proofs.Browser.Mirror
import PluginBridge.Proofs.Number.Whole

/-!
# The two storages agree

The private storage of a browser walks handles, one name after another; the storage in memory looks
one normal spelling up.  If the browser mirrors the tree, both come to the same.

* `Mirrors.walk`: a walk along names ends at a handle of a directory exactly if the tree has one
  there;
* `Mirrors.stat` and `Mirrors.list`: so statuses and listings agree, whichever way the path is
  spelled and wherever it leads; and
* `agrees_with_memory`: the same for the futures that the bridge polls, on every tree that
  operations can reach.
-/

namespace PluginBridge

open PluginBridge.Path

/-! ## Agreement -/

/-- Two results agree: both are failures, or both are successes with related values. -/
inductive Agree {ε δ α β : Type} (R : α → β → Prop) : Except ε α → Except δ β → Prop where
  | failed (err : ε) (err' : δ) : Agree R (.error err) (.error err')
  | related {value : α} {value' : β} (h : R value value') : Agree R (.ok value) (.ok value')

theorem Agree.bind {ε δ α β γ κ : Type} {R : α → β → Prop} {S : γ → κ → Prop}
    {result : Except ε α} {result' : Except δ β} {f : α → Except ε γ} {f' : β → Except δ κ}
    (h : Agree R result result')
    (hf : ∀ value value', R value value' → Agree S (f value) (f' value')) :
    Agree S (result.bind f) (result'.bind f') := by
  cases h with
  | failed err err' => exact .failed err err'
  | related h => exact hf _ _ h

theorem Agree.mapError {ε δ κ α β : Type} {R : α → β → Prop} {result : Except ε α}
    {result' : Except δ β} (f : ε → κ) (h : Agree R result result') :
    Agree R (result.mapError f) result' := by
  cases h with
  | failed err err' => exact .failed (f err) err'
  | related h => exact .related h

/-- Two listings show the same children.  Only their order may differ, and not even that if the
first one goes by name. -/
structure SameChildren (shown held : List Child) : Prop where
  perm : shown.Perm held
  nodup : (shown.map Child.name).Nodup
  eq_of_sorted : (shown.Pairwise fun a b => a.name < b.name) → shown = held

theorem FileTree.AreChildren.sameChildren {tree : FileTree} {names : List String}
    {shown held : List Child} (h : tree.AreChildren names held)
    (hnodup : (shown.map Child.name).Nodup)
    (hshown : ∀ child, child ∈ shown ↔ IsName child.name ∧
      ∃ node, tree.node? (names ++ [child.name]) = some node ∧ node.kind = child.kind) :
    SameChildren shown held := by
  have hperm : shown.Perm held := by
    rw [List.perm_ext_iff_of_nodup (.of_map _ hnodup) (.of_map _ h.nodup_names)]
    intro child
    rw [hshown, h.mem_iff]
  refine ⟨hperm, hnodup, ?_⟩
  intro hsorted
  refine hperm.eq_of_pairwise ?_ hsorted h.sorted
  intro a b _ _ hlt hgt
  exact absurd (String.lt_trans hlt hgt) (String.lt_irrefl _)

namespace Browser

/-! ## Results of dialogues -/

namespace Dialogue

variable {η α β : Type} (answer : Query η → Except Value (Settled η))

@[simp] theorem result_ask (query : Query η)
    (next : Except Value (Settled η) → Dialogue η α) :
    (ask query next).result answer = (next (answer query)).result answer := rfl

@[simp] theorem result_expect (query : Query η) (take : Settled η → Except Value α) :
    (expect query take).result answer = (answer query).bind take := rfl

@[simp] theorem result_onSuccess (dialogue : Dialogue η (Except Value α))
    (f : α → Dialogue η (Except Value β)) :
    (dialogue.onSuccess f).result answer =
      (dialogue.result answer).bind fun value => (f value).result answer := by
  rw [onSuccess, result_andThen]
  cases dialogue.result answer <;> rfl

end Dialogue

/-! ## Walks -/

section

variable {η : Type} [Handle η] {answer : Query η → Except Value (Settled η)} {root : η}
  {tree : FileTree} {StandsFor : η → List String → Prop}

/-- A walk ends at a handle of a directory if there is one, and otherwise it fails. -/
def Reaches (result : Except Value η) (node : Option Node) (standsForIt : η → Prop) : Prop :=
  (node = some .directory ∧ ∃ handle, result = .ok handle ∧ standsForIt handle) ∨
  (node ≠ some .directory ∧ ∃ reason, result = .error reason)

theorem directory_of_kind {node : Option Node} (h : node.map Node.kind = some .directory) :
    node = some .directory := by
  obtain ⟨node, rfl, hkind⟩ := Option.map_eq_some_iff.1 h
  cases node <;> first | rfl | cases hkind

theorem file_of_kind {node : Option Node} (h : node.map Node.kind = some .file) :
    ∃ data, node = some (.file data) := by
  obtain ⟨node, rfl, hkind⟩ := Option.map_eq_some_iff.1 h
  cases node <;> first | exact ⟨_, rfl⟩ | cases hkind

/-- The handle that a browser gives is accepted, being of the kind that was asked for. -/
theorem Gives.ofKind {given : Except Value (Settled η)} {kind : NodeKind} {node : Option Node}
    {standsForIt : η → Prop} (h : Gives given kind node standsForIt) :
    (node.map Node.kind = some kind ∧
      ∃ child, given.bind (Settled.ofKind kind) = .ok child ∧ standsForIt child) ∨
    (node.map Node.kind ≠ some kind ∧
      ∃ reason, given.bind (Settled.ofKind kind) = .error reason) := by
  rcases h with ⟨hkind, child, rfl, hchild, hplace⟩ | ⟨hkind, reason, rfl⟩
  · exact .inl ⟨hkind, child, if_pos hchild, hplace⟩
  · exact .inr ⟨hkind, reason, rfl⟩

/-- **A walk along names.**  From a directory it ends where the names lead, exactly if there is a
directory. -/
theorem Mirrors.walk (m : Mirrors answer root tree StandsFor) (h : IsHierarchy tree.entries)
    {handle : η} {names rest : List String} (hstands : StandsFor handle names)
    (hdir : tree.node? names = some .directory) (hnames : AreNames (names ++ rest)) :
    Reaches ((PrivateStorage.walk handle rest).result answer) (tree.node? (names ++ rest))
      (StandsFor · (names ++ rest)) := by
  induction rest generalizing handle names with
  | nil =>
    rw [List.append_nil]
    exact .inl ⟨hdir, handle, rfl, hstands⟩
  | cons name rest ih =>
    have hmove : names ++ name :: rest = names ++ [name] ++ rest := by simp
    rw [hmove] at hnames ⊢
    have hall : AreNames (names ++ [name]) := hnames.of_isPrefix (List.prefix_append ..)
    rw [PrivateStorage.walk, Dialogue.result_onSuccess, Dialogue.result_expect]
    rcases (m.directory hstands hdir (areNames_concat.1 hall).2).ofKind with
      ⟨hkind, child, hnext, hplace⟩ | ⟨hkind, reason, hnext⟩
    · rw [hnext]
      exact ih hplace (directory_of_kind hkind) hnames
    · rw [hnext]
      refine .inr ⟨?_, reason, rfl⟩
      -- A directory further down would make this one a directory.
      intro hbelow
      apply hkind
      by_cases hnil : rest = []
      · rw [hnil, List.append_nil] at hbelow
        rw [hbelow]
        rfl
      · have hproper : names ++ [name] ≠ names ++ [name] ++ rest := by simpa using hnil
        have habove := h.directory_above hnames hbelow (List.prefix_append _ rest) hproper
        rw [FileTree.node?, habove]
        rfl

theorem Mirrors.directory_path (m : Mirrors answer root tree StandsFor)
    (h : IsHierarchy tree.entries) (path : String) :
    Reaches ((PrivateStorage.directory root path).result answer) (tree.node? (components path))
      (StandsFor · (components path)) :=
  m.walk h m.root (FileTree.node?_nil h) (areNames_components path)

/-! ## Statuses -/

/-- What is asked about a name in a directory comes to the status of what stands there. -/
theorem Mirrors.statIn (m : Mirrors answer root tree StandsFor)
    (hspecial : ∀ key, tree.entries.get? key ≠ some .special) {parent : η} {names : List String}
    {name path : String} (hstands : StandsFor parent names)
    (hdir : tree.node? names = some .directory) (hpath : components path = names ++ [name]) :
    Agree (· = ·) ((PrivateStorage.statIn parent name).result answer) (tree.stat path) := by
  have hname : IsName name := (areNames_concat.1 (hpath ▸ areNames_components path)).2
  rw [PrivateStorage.statIn, Dialogue.result_ask]
  rcases m.directory hstands hdir hname with
    ⟨hkind, child, hanswer, -, -⟩ | ⟨hkind, reason, hanswer⟩
  · rw [hanswer, FileTree.stat_of_node (hpath ▸ directory_of_kind hkind)]
    exact .related rfl
  · -- Only after a rejection is a file asked for.
    rw [hanswer]
    simp only [Dialogue.result_onSuccess, Dialogue.result_expect]
    rcases (m.file hstands hdir hname).ofKind with
      ⟨hfile, child, hhandle, hplace⟩ | ⟨hfile, reason', hhandle⟩
    · obtain ⟨data, hdata⟩ := file_of_kind hfile
      have hsize : (answer (.contents child)).bind Settled.fileSize = .ok (.ofNat data.size) := by
        rw [m.contents hplace hdata]
        rfl
      rw [hhandle, FileTree.stat_of_node (hpath ▸ hdata)]
      show Agree _ (((answer (.contents child)).bind Settled.fileSize).bind _) _
      rw [hsize]
      refine .related ?_
      rw [Binary64.toNat_toUInt64_ofNat (m.size_lt hdata)]
      rfl
    · have hmissing : tree.node? (names ++ [name]) = none := by
        cases hnode : tree.node? (names ++ [name]) with
        | none => rfl
        | some node =>
          rw [hnode] at hkind hfile
          cases node with
          | directory => exact absurd rfl hkind
          | file data => exact absurd rfl hfile
          | special => exact absurd hnode (hspecial _)
      obtain ⟨err, herr⟩ := FileTree.stat_of_missing (hpath ▸ hmissing)
      rw [hhandle, herr]
      exact .failed reason' err

/-- **Statuses agree**, whichever way the path is spelled and wherever it leads. -/
theorem Mirrors.stat (m : Mirrors answer root tree StandsFor) (h : IsHierarchy tree.entries)
    (hspecial : ∀ key, tree.entries.get? key ≠ some .special) (path : String) :
    Agree (· = ·) ((PrivateStorage.stat root path).result answer) (tree.stat path) := by
  by_cases hroot : components path = []
  · have hstat : tree.stat path = .ok Node.directory.stat :=
      FileTree.stat_of_node (hroot ▸ FileTree.node?_nil h)
    rw [PrivateStorage.stat, hroot, hstat]
    exact .related rfl
  obtain ⟨names, name, hnames, hname, hpath⟩ := exists_components_eq_concat hroot
  -- The names before the last one are joined, and the directory takes them apart again.
  have hparent := m.directory_path h ("/".intercalate names)
  rw [components_intercalate hnames] at hparent
  rw [PrivateStorage.stat, hpath, List.getLast?_concat, List.dropLast_concat]
  simp only [Dialogue.result_onSuccess]
  rcases hparent with ⟨hdir, parent, hresult, hstands⟩ | ⟨hdir, reason, hresult⟩
  · rw [hresult]
    exact m.statIn hspecial hstands hdir hpath
  · have hmissing : tree.node? (names ++ [name]) = none := by
      cases hnode : tree.node? (names ++ [name]) with
      | none => rfl
      | some node => exact absurd (h.parent hnames hname hnode) hdir
    obtain ⟨err, herr⟩ := FileTree.stat_of_missing (hpath ▸ hmissing)
    rw [hresult, herr]
    exact .failed reason err

/-! ## Listings -/

/-- Handles are all taken for children. -/
theorem mapM_entry (handles : List η) :
    (handles.map Item.handle).mapM PrivateStorage.entry = .ok (handles.map Handle.toChild) := by
  induction handles with
  | nil => rfl
  | cons handle rest ih =>
    rw [List.map_cons, List.mapM_cons, ih]
    rfl

/-- **Listings agree.** -/
theorem Mirrors.list (m : Mirrors answer root tree StandsFor) (h : IsHierarchy tree.entries)
    (path : String) :
    Agree SameChildren ((PrivateStorage.list root path).result answer) (tree.list path) := by
  rw [PrivateStorage.list, Dialogue.result_onSuccess]
  rcases m.directory_path h path with ⟨hdir, handle, hresult, hstands⟩ | ⟨hdir, reason, hresult⟩
  · obtain ⟨held, hlist, hheld⟩ := FileTree.list_of_directory h hdir
    obtain ⟨handles, hanswer, hnodup, hshown⟩ := m.children hstands hdir
    have hentries : (answer (.children handle)).bind
        (fun settled => settled.items.bind (·.mapM PrivateStorage.entry)) =
          .ok (handles.map Handle.toChild) := by
      rw [hanswer]
      exact mapM_entry handles
    rw [hresult, hlist]
    show Agree _ ((answer (.children handle)).bind _) _
    rw [hentries]
    refine .related (hheld.sameChildren ?_ hshown)
    rwa [List.map_map]
  · obtain ⟨err, hlist⟩ := FileTree.list_of_not_directory hdir
    rw [hresult, hlist]
    exact .failed ..

end

/-! ## Futures -/

namespace PrivateStorage

open FileTree

/-- **The two storages agree.**  The browser mirrors a tree that operations on the storage in memory
have left, without special nodes.  Then, for every path, both storages fail or both tell the same
status; both take the path for a directory or both refuse it; and both fail to list it or show the
same children.  How many polls a promise takes does not matter. -/
theorem agrees_with_memory {η ω : Type} [Handle η] (quota : UInt64) (operations : List Operation)
    (api : StorageApi η ω) (world : ω) (root : η) (granted : UInt64)
    (StandsFor : η → List String → Prop)
    (hspecial : ∀ key,
      ((rootOnly quota).performAll operations).1.entries.get? key ≠ some .special)
    (hmirror : Mirrors (fun query => (api.answer world query).outcome) root
      ((rootOnly quota).performAll operations).1 StandsFor) (path : String) :
    let tree := ((rootOnly quota).performAll operations).1
    let browser := PrivateStorage.storage api root granted
    let memory := FileTree.storage quota
    Agree (· = ·) ((browser.stat path).run world) ((memory.stat path).run tree) ∧
    Agree (· = ·) ((browser.checkDirectory path).run world)
      ((memory.checkDirectory path).run tree) ∧
    Agree SameChildren ((browser.list path).run world) ((memory.list path).run tree) := by
  intro tree browser memory
  have h : IsHierarchy tree.entries := isHierarchy_reached quota operations
  have hstat : Agree (· = ·) ((browser.stat path).run world) ((memory.stat path).run tree) := by
    show Agree _ ((((PrivateStorage.stat root path).future api).map _).run world) _
    rw [Future.run_map, Dialogue.run_future]
    exact (hmirror.stat h hspecial path).mapError _
  refine ⟨hstat, ?_, ?_⟩
  · rw [Storage.checkDirectory, Storage.checkDirectory, Future.run_map, Future.run_map]
    refine hstat.bind ?_
    rintro stat _ rfl
    split
    · exact .related rfl
    · exact .failed ..
  · show Agree _ ((((PrivateStorage.list root path).future api).map _).run world) _
    rw [Future.run_map, Dialogue.run_future]
    exact (hmirror.list h path).mapError _

/-- A file in a directory and an empty directory, copied into the simulated browser, where every
promise takes one poll more. -/
theorem agrees_with_memory_on_copy :
    let operations : List Operation :=
      [.write "docs//note.txt" ⟨#[104, 105]⟩, .makeDirectory "/empty"]
    let tree := ((rootOnly defaultQuota).performAll operations).1
    let browser := PrivateStorage.storage (StoredTree.api 1) TreeHandle.root defaultQuota
    let memory := FileTree.storage defaultQuota
    let world := StoredTree.copy tree
    (∀ key, tree.entries.get? key ≠ some .special) ∧
      Mirrors world.answer .root tree (StoredTree.IsCopy tree) ∧
      Agree (· = ·) ((browser.stat "/docs/./note.txt").run world)
        ((memory.stat "/docs/./note.txt").run tree) ∧
      Agree SameChildren ((browser.list "").run world) ((memory.list "").run tree) := by
  intro operations tree browser memory world
  have hentries : ∀ e ∈ tree.entries.entries,
      e.2 ≠ .special ∧ ".." ∉ components e.1 ∧ e.2.size < 2 ^ 53 := by
    decide
  have hkey {key node} (hget : tree.entries.get? key = some node) :=
    hentries (key, node) (Table.mem_entries_iff.2 hget)
  have hspecial : ∀ key, tree.entries.get? key ≠ some .special :=
    fun key hget => (hkey hget).1 rfl
  have hmirror : Mirrors world.answer .root tree (StoredTree.IsCopy tree) :=
    StoredTree.mirrors_copy (isHierarchy_reached defaultQuota operations)
      (fun key node hget => (hkey hget).2.1) (fun key data hget => (hkey hget).2.2)
  have hagree := agrees_with_memory defaultQuota operations (StoredTree.api 1) world .root
    defaultQuota (StoredTree.IsCopy tree) hspecial hmirror
  exact ⟨hspecial, hmirror, (hagree "/docs/./note.txt").1, (hagree "").2.2⟩

end PrivateStorage

end Browser

end PluginBridge
