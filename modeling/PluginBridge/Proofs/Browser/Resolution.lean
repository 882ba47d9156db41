import PluginBridge.Proofs.Browser.Agreement
import PluginBridge.Proofs.Browser.Exchange

/-!
# Resolving and listing walk alike

In the private storage of a browser a path is resolved by a status, which joins the names before the
last one, takes them apart again and then tries the last one as a directory; a listing walks all
names in one go.  Both come to the same walk, even if the browser rejects whatever it likes and
changes between any two queries, as long as a directory answers a lookup of a directory the same way
each time (`IsSteady`).

* `goes_walk`: a walk asks for the lookups on its way and ends where they lead;
* `goes_stat` and `goes_list`: a status and a listing make exactly these lookups before anything
  else; and
* `resolution_follows_walk`: so a path that can be resolved fails to be listed only because of what
  its directory shows.
-/

namespace PluginBridge.Browser

open PluginBridge.Path

variable {η ω : Type}

/-! ## Lookups -/

/-- What is assumed of a browser: a directory gives the same answer each time when it is asked for a
directory, and gives out handles of directories only.  It may answer anything else as it likes, and
differently in every world. -/
structure IsSteady [Handle η] (api : StorageApi η ω) (lookup : η → String → Except Value η) :
    Prop where
  answer_directory : ∀ world parent name,
    (api.answer world (.directory parent name)).outcome = (lookup parent name).map .handle
  directory_of_lookup : ∀ {parent name child}, lookup parent name = .ok child →
    Handle.kind child = .directory

/-- Does a query ask for a directory? -/
def Query.IsLookup : Query η → Prop
  | directory _ _ => True
  | _ => False

/-- The lookups on the way from a directory along names, up to the first that fails. -/
def lookups (lookup : η → String → Except Value η) : η → List String → List (Query η)
  | _, [] => []
  | start, name :: rest =>
    .directory start name ::
      match lookup start name with
      | .ok next => lookups lookup next rest
      | .error _ => []

/-- The lookups of a walk are asked for first, and no others after them. -/
def AsksFirst (walk asked : List (Query η)) : Prop :=
  ∃ later, asked = walk ++ later ∧ ∀ query ∈ later, ¬query.IsLookup

variable {api : StorageApi η ω} {lookup : η → String → Except Value η} {worlds : List ω}

/-- The last name is looked up in the directory that the names before it lead to. -/
theorem lookups_concat_of_ok {start parent : η} {names : List String}
    (h : names.foldlM lookup start = .ok parent) (name : String) :
    lookups lookup start (names ++ [name]) =
      lookups lookup start names ++ [.directory parent name] := by
  induction names generalizing start with
  | nil =>
    cases h
    rw [List.nil_append, lookups, lookups]
    cases lookup parent name <;> rfl
  | cons first rest ih =>
    rw [List.foldlM_cons] at h
    cases hfirst : lookup start first with
    | error value =>
      rw [hfirst] at h
      cases h
    | ok next =>
      rw [hfirst] at h
      simp only [List.cons_append, lookups, hfirst, ih h]

/-- If they lead nowhere, it is not looked up at all. -/
theorem lookups_concat_of_error {start : η} {value : Value} {names : List String}
    (h : names.foldlM lookup start = .error value) (name : String) :
    lookups lookup start (names ++ [name]) = lookups lookup start names := by
  induction names generalizing start with
  | nil => cases h
  | cons first rest ih =>
    rw [List.foldlM_cons] at h
    cases hfirst : lookup start first with
    | error value => simp only [List.cons_append, lookups, hfirst]
    | ok next =>
      rw [hfirst] at h
      simp only [List.cons_append, lookups, hfirst, ih h]

variable [Handle η]

/-- In every world the answer to a lookup is a directory or a rejection. -/
theorem IsSteady.answer_eq (hsteady : IsSteady api lookup) {parent : η} {name : String}
    {answer : Except Value (Settled η)}
    (hanswer : api.MayAnswer worlds (.directory parent name) answer) :
    answer = (lookup parent name).map .handle ∧
      answer.bind (Settled.ofKind .directory) = lookup parent name := by
  obtain ⟨world, -, rfl⟩ := hanswer
  refine ⟨hsteady.answer_directory world parent name, ?_⟩
  rw [hsteady.answer_directory]
  cases hlookup : lookup parent name with
  | error value => rfl
  | ok child => exact if_pos (hsteady.directory_of_lookup hlookup)

/-! ## Walks -/

/-- **A walk** asks for the lookups on its way and ends where they lead. -/
theorem goes_walk (hsteady : IsSteady api lookup) {start : η} {names : List String}
    {asked : List (Query η)} {result : Except Value η}
    (h : (PrivateStorage.walk start names).Goes (api.MayAnswer worlds) asked result) :
    asked = lookups lookup start names ∧ result = names.foldlM lookup start := by
  induction names generalizing start asked with
  | nil =>
    cases h
    exact ⟨rfl, rfl⟩
  | cons name rest ih =>
    rw [lookups, List.foldlM_cons]
    rcases Dialogue.Goes.of_onSuccess h with
      ⟨value, hfirst, rfl⟩ | ⟨first, next, later, hfirst, hlater, rfl⟩
    · obtain ⟨answer, hanswer, rfl, heq⟩ := hfirst.of_expect
      rw [(hsteady.answer_eq hanswer).2] at heq
      rw [← heq]
      exact ⟨rfl, rfl⟩
    · obtain ⟨answer, hanswer, rfl, heq⟩ := hfirst.of_expect
      rw [(hsteady.answer_eq hanswer).2] at heq
      rw [← heq]
      obtain ⟨rfl, rfl⟩ := ih hlater
      exact ⟨rfl, rfl⟩

/-! ## Statuses -/

/-- A name is tried as a directory first.  Only if that fails other queries follow, and what they
find is no directory. -/
theorem goes_statIn (hsteady : IsSteady api lookup) {parent : η} {name : String}
    {asked : List (Query η)} {status : Except Value NodeStat}
    (h : (PrivateStorage.statIn parent name).Goes (api.MayAnswer worlds) asked status) :
    AsksFirst [.directory parent name] asked ∧
      ((∃ stat, status = .ok stat ∧ stat.isDirectory) ↔
        ∃ child, lookup parent name = .ok child) := by
  cases h with
  | @ask _ _ answer _ _ hanswer hnext =>
    have hlookup := (hsteady.answer_eq hanswer).1
    cases answer with
    | ok settled =>
      cases hnext
      cases hchild : lookup parent name with
      | error value =>
        rw [hchild] at hlookup
        cases hlookup
      | ok child => exact ⟨⟨[], rfl, by simp⟩, ⟨fun _ => ⟨child, rfl⟩, fun _ => ⟨_, rfl, rfl⟩⟩⟩
    | error value =>
      have hnone : ¬∃ child, lookup parent name = .ok child := by
        rintro ⟨child, hchild⟩
        rw [hchild] at hlookup
        cases hlookup
      rcases Dialogue.Goes.of_onSuccess hnext with
        ⟨_, hfile, rfl⟩ | ⟨_, handle, _, hfile, hsize, rfl⟩
      · obtain ⟨_, -, rfl, -⟩ := hfile.of_expect
        exact ⟨⟨[.file parent name], rfl, by simp [Query.IsLookup]⟩, by simpa using hnone⟩
      · obtain ⟨_, -, rfl, -⟩ := hfile.of_expect
        rcases Dialogue.Goes.of_onSuccess hsize with
          ⟨_, hcontents, rfl⟩ | ⟨_, size, _, hcontents, hdone, rfl⟩
        · obtain ⟨_, -, rfl, -⟩ := hcontents.of_expect
          exact ⟨⟨[.file parent name, .contents handle], rfl, by simp [Query.IsLookup]⟩,
            by simpa using hnone⟩
        · obtain ⟨_, -, rfl, -⟩ := hcontents.of_expect
          cases hdone
          exact ⟨⟨[.file parent name, .contents handle], rfl, by simp [Query.IsLookup]⟩,
            by simpa [NodeStat.file] using hnone⟩

/-- **A status** makes the lookups of the whole walk before it asks for anything else, and takes the
path for a directory exactly if the walk leads somewhere.  It fails with the walk if that does not
even get to the last name. -/
theorem goes_stat (hsteady : IsSteady api lookup) {root : η} {path : String}
    {asked : List (Query η)} {status : Except Value NodeStat}
    (h : (PrivateStorage.stat root path).Goes (api.MayAnswer worlds) asked status) :
    AsksFirst (lookups lookup root (components path)) asked ∧
      ((∃ stat, status = .ok stat ∧ stat.isDirectory) ↔
        ∃ last, (components path).foldlM lookup root = .ok last) ∧
      ∀ value, (components path).dropLast.foldlM lookup root = .error value →
        status = .error value := by
  by_cases hroot : components path = []
  · rw [PrivateStorage.stat, hroot] at h
    cases h
    rw [hroot]
    refine ⟨⟨[], rfl, by simp⟩, ⟨fun _ => ⟨root, rfl⟩, fun _ => ⟨_, rfl, rfl⟩⟩, ?_⟩
    intro value hvalue
    cases hvalue
  obtain ⟨names, name, hnames, -, hpath⟩ := exists_components_eq_concat hroot
  rw [PrivateStorage.stat, hpath, List.getLast?_concat, List.dropLast_concat] at h
  rw [hpath, List.dropLast_concat]
  -- The names before the last one are joined, and the directory takes them apart again.
  rcases Dialogue.Goes.of_onSuccess h with
    ⟨value, hparents, rfl⟩ | ⟨first, parent, later, hparents, hlast, rfl⟩
  · rw [PrivateStorage.directory, components_intercalate hnames] at hparents
    obtain ⟨rfl, hvalue⟩ := goes_walk hsteady hparents
    rw [lookups_concat_of_error hvalue.symm, List.foldlM_append, ← hvalue]
    have hnone : ¬∃ last, (Except.error value : Except Value η) = .ok last := by simp
    refine ⟨⟨[], by simp, by simp⟩, iff_of_false (by simp) hnone, ?_⟩
    intro _ heq
    cases heq
    rfl
  · rw [PrivateStorage.directory, components_intercalate hnames] at hparents
    obtain ⟨rfl, hparent⟩ := goes_walk hsteady hparents
    obtain ⟨⟨others, rfl, hothers⟩, hkind⟩ := goes_statIn hsteady hlast
    have hwalk : (names ++ [name]).foldlM lookup root = lookup parent name := by
      rw [List.foldlM_append, ← hparent]
      exact bind_pure (lookup parent name)
    rw [lookups_concat_of_ok hparent.symm, hwalk, ← hparent]
    exact ⟨⟨others, by simp, hothers⟩, hkind, by simp⟩

/-! ## Listings -/

/-- The ways in which the enumeration of a directory can end, by the answer of the browser. -/
inductive Enumerates (answer : Except Value (Settled η)) : Except Value (List Child) → Prop where
  | rejected {value : Value} (h : answer = .error value) : Enumerates answer (.error value)
  /-- What is given is no array. -/
  | noArray {settled : Settled η} {value : Value} (h : answer = .ok settled)
      (hitems : settled.items = .error value) : Enumerates answer (.error value)
  /-- The first item that is no handle is the error. -/
  | noHandle {settled : Settled η} {before : List η} {value : Value} {after : List (Item η)}
      (h : answer = .ok settled)
      (hitems : settled.items = .ok (before.map .handle ++ .plain value :: after)) :
      Enumerates answer (.error value)
  | shown {settled : Settled η} {handles : List η} (h : answer = .ok settled)
      (hitems : settled.items = .ok (handles.map .handle)) :
      Enumerates answer (.ok (handles.map Handle.toChild))

/-- Either all items are handles, or one of them is the first that is none. -/
theorem items_cases {κ : Type} (items : List (Item κ)) :
    (∃ handles : List κ, items = handles.map .handle) ∨
      ∃ (before : List κ) (value : Value) (after : List (Item κ)),
        items = before.map .handle ++ .plain value :: after := by
  induction items with
  | nil => exact .inl ⟨[], rfl⟩
  | cons item rest ih =>
    cases item with
    | plain value => exact .inr ⟨[], value, rest, rfl⟩
    | handle held =>
      rcases ih with ⟨handles, rfl⟩ | ⟨before, value, after, rfl⟩
      · exact .inl ⟨held :: handles, rfl⟩
      · exact .inr ⟨held :: before, value, after, rfl⟩

theorem mapM_entry_of_plain (before : List η) (value : Value) (after : List (Item η)) :
    (before.map Item.handle ++ .plain value :: after).mapM PrivateStorage.entry =
      .error value := by
  rw [List.mapM_append, mapM_entry, List.mapM_cons]
  rfl

theorem enumerates (answer : Except Value (Settled η)) :
    Enumerates answer
      (answer.bind fun settled => settled.items.bind (·.mapM PrivateStorage.entry)) := by
  cases answer with
  | error value => exact .rejected rfl
  | ok settled =>
    show Enumerates _ (settled.items.bind _)
    cases hitems : settled.items with
    | error value => exact .noArray rfl hitems
    | ok items =>
      show Enumerates _ (items.mapM PrivateStorage.entry)
      rcases items_cases items with ⟨handles, rfl⟩ | ⟨before, value, after, rfl⟩
      · rw [mapM_entry]
        exact .shown rfl hitems
      · rw [mapM_entry_of_plain]
        exact .noHandle rfl hitems

/-- **A listing** makes the lookups of the whole walk before it asks for anything else.  It fails
with the walk; where the walk leads somewhere, it ends as the enumeration of that directory does. -/
theorem goes_list (hsteady : IsSteady api lookup) {root : η} {path : String}
    {asked : List (Query η)} {listing : Except Value (List Child)}
    (h : (PrivateStorage.list root path).Goes (api.MayAnswer worlds) asked listing) :
    AsksFirst (lookups lookup root (components path)) asked ∧
      ((∃ value, (components path).foldlM lookup root = .error value ∧ listing = .error value) ∨
        ∃ last, (components path).foldlM lookup root = .ok last ∧ ∃ world ∈ worlds,
          Enumerates (api.answer world (.children last)).outcome listing) := by
  rcases Dialogue.Goes.of_onSuccess h with
    ⟨value, hwalk, rfl⟩ | ⟨first, last, later, hwalk, hchildren, rfl⟩
  · obtain ⟨rfl, hvalue⟩ := goes_walk hsteady hwalk
    exact ⟨⟨[], by simp, by simp⟩, .inl ⟨value, hvalue.symm, rfl⟩⟩
  · obtain ⟨rfl, hlast⟩ := goes_walk hsteady hwalk
    obtain ⟨answer, ⟨world, hworld, rfl⟩, rfl, rfl⟩ := hchildren.of_expect
    exact ⟨⟨[.children last], rfl, by simp [Query.IsLookup]⟩,
      .inr ⟨last, hlast.symm, world, hworld, enumerates _⟩⟩

/-! ## Steady browsers -/

/-- A browser that looks directories up in a table for good, and answers everything else from the
tree of the moment. -/
def StoredTree.pinned (lookup : TreeHandle → String → Except Value TreeHandle) (delay : Nat) :
    StorageApi TreeHandle StoredTree where
  answer
    | _, .directory parent name => { delay, outcome := (lookup parent name).map .handle }
    | tree, query => { delay, outcome := tree.answer query }

/-- Whatever is in the table, as long as it is directories. -/
theorem StoredTree.isSteady_pinned {lookup : TreeHandle → String → Except Value TreeHandle}
    (h : ∀ {parent name child}, lookup parent name = .ok child →
      Handle.kind child = NodeKind.directory) (delay : Nat) :
    IsSteady (pinned lookup delay) lookup where
  answer_directory := fun _ _ _ => rfl
  directory_of_lookup := h

/-! ## Both together -/

namespace PrivateStorage

theorem checkDirectory_answer (hsteady : IsSteady api lookup) {root : η} {quota : UInt64}
    {path : String} {result : Except StorageError Unit}
    (h : ((storage api root quota).checkDirectory path).answer? worlds = some result) :
    (result = .ok () ↔ ∃ last, (components path).foldlM lookup root = .ok last) ∧
      ∀ value, (components path).dropLast.foldlM lookup root = .error value →
        result = .error (.host value.reason) := by
  rw [Storage.checkDirectory, storage, Future.answer?_map, Future.answer?_map, Option.map_map,
    Option.map_eq_some_iff] at h
  obtain ⟨status, hstatus, rfl⟩ := h
  obtain ⟨asked, hgoes⟩ := (Dialogue.ensuresIn_future api worlds _).of_answer? hstatus
  obtain ⟨-, hkind, hparents⟩ := goes_stat hsteady hgoes
  refine ⟨Iff.trans ?_ hkind, ?_⟩
  · cases status with
    | error value => exact iff_of_false (fun h => by cases h) (by simp)
    | ok stat =>
      show (if stat.isDirectory then _ else _) = Except.ok () ↔ _
      split <;> simp_all
  · intro value hvalue
    rw [hparents value hvalue]
    rfl

theorem list_answer (hsteady : IsSteady api lookup) {root : η} {quota : UInt64} {path : String}
    {listing : Except StorageError (List Child)}
    (h : ((storage api root quota).list path).answer? worlds = some listing) :
    (∃ value, (components path).foldlM lookup root = .error value ∧
        listing = .error (.host value.reason)) ∨
      ∃ last, (components path).foldlM lookup root = .ok last ∧ ∃ world ∈ worlds, ∃ result,
        Enumerates (api.answer world (.children last)).outcome result ∧
          listing = result.mapError fun value => .host value.reason := by
  rw [storage, Future.answer?_map, Option.map_eq_some_iff] at h
  obtain ⟨result, hresult, rfl⟩ := h
  obtain ⟨asked, hgoes⟩ := (Dialogue.ensuresIn_future api worlds _).of_answer? hresult
  rcases (goes_list hsteady hgoes).2 with ⟨value, hwalk, rfl⟩ | ⟨last, hwalk, world, hworld, hends⟩
  · exact .inl ⟨value, hwalk, rfl⟩
  · exact .inr ⟨last, hwalk, world, hworld, result, hends, rfl⟩

/-- **Resolving and listing walk alike**, for every path and in any course of a steady browser.

A status and a listing make the lookups of the walk along all components, in their order, before
they ask for anything else; the walk itself makes no others.  The path is resolved exactly if that
walk leads somewhere, and what stops the walk before the last component is the error of both.  A
listing fails where the walk leads nowhere, and otherwise it is the enumeration of the directory
that the walk leads to; so if a path has been resolved, its listing fails only with a rejected
enumeration, with one that is no array, or with a child that is no handle.  Both are answered if
they are polled for long enough. -/
theorem resolution_follows_walk (hsteady : IsSteady api lookup) (root : η) (quota : UInt64)
    (path : String) :
    let storage := storage api root quota
    let walk := lookups lookup root (components path)
    let walked := (components path).foldlM lookup root
    (∀ worlds asked result, (directory root path).Goes (api.MayAnswer worlds) asked result →
      asked = walk ∧ result = walked) ∧
    (∀ worlds asked status,
      (stat root path).Goes (api.MayAnswer worlds) asked status → AsksFirst walk asked) ∧
    (∀ worlds asked listing,
      (list root path).Goes (api.MayAnswer worlds) asked listing → AsksFirst walk asked) ∧
    (∀ worlds result, (storage.checkDirectory path).answer? worlds = some result →
      (result = .ok () ↔ ∃ last, walked = .ok last) ∧
      ∀ value, (components path).dropLast.foldlM lookup root = .error value →
        result = .error (.host value.reason)) ∧
    (∀ worlds listing, (storage.list path).answer? worlds = some listing →
      (∃ value, walked = .error value ∧ listing = .error (.host value.reason)) ∨
      ∃ last, walked = .ok last ∧ ∃ world ∈ worlds, ∃ result,
        Enumerates (api.answer world (.children last)).outcome result ∧
          listing = result.mapError fun value => .host value.reason) ∧
    (∀ before after err, (storage.checkDirectory path).answer? before = some (.ok ()) →
      (storage.list path).answer? after = some (.error err) →
      ∃ last value, walked = .ok last ∧ err = .host value.reason ∧ ∃ world ∈ after,
        Enumerates (api.answer world (.children last)).outcome (.error value)) ∧
    ∀ course : Nat → ω,
      (∃ polls, ((storage.checkDirectory path).answer? ((List.range polls).map course)).isSome) ∧
      ∃ polls, ((storage.list path).answer? ((List.range polls).map course)).isSome := by
  refine ⟨fun _ _ _ h => goes_walk hsteady h, fun _ _ _ h => (goes_stat hsteady h).1,
    fun _ _ _ h => (goes_list hsteady h).1, fun _ _ h => checkDirectory_answer hsteady h,
    fun _ _ h => list_answer hsteady h, ?_,
    fun course => ⟨Future.exists_answer? _ course, Future.exists_answer? _ course⟩⟩
  intro before after err hresolved hlisted
  obtain ⟨last, hwalk⟩ := (checkDirectory_answer hsteady hresolved).1.1 rfl
  rcases list_answer hsteady hlisted with
    ⟨value, hfails, -⟩ | ⟨last', hleads, world, hworld, result, hends, hresult⟩
  · rw [hwalk] at hfails
    cases hfails
  · cases result with
    | ok children => cases hresult
    | error value =>
      cases hresult
      exact ⟨last', value, hleads, rfl, world, hworld, hends⟩

/-- Where every directory holds one called `docs` and nothing else, `docs` is resolved, and then its
listing fails with something that is no handle. -/
theorem resolution_follows_walk_of_pinned :
    let docs := TreeHandle.entry "docs" (.directory [] none (some (.ok (.array [.null]))))
    let lookup := fun (_ : TreeHandle) (name : String) =>
      if name = "docs" then Except.ok docs else .error (Value.string "gone")
    let api := StoredTree.pinned lookup 1
    let storage := storage api .root defaultQuota
    IsSteady api lookup ∧
      (storage.checkDirectory "docs//.").answer? [{}, {}] = some (.ok ()) ∧
      (storage.list "docs//.").answer? [{}, {}, {}] = some (.error (.host "JsValue(null)")) ∧
      ∃ last value, (components "docs//.").foldlM lookup .root = .ok last ∧
        StorageError.host "JsValue(null)" = .host value.reason ∧
        ∃ tree ∈ [({} : StoredTree), {}, {}],
          Enumerates (api.answer tree (.children last)).outcome (.error value) := by
  intro docs lookup api storage
  have hsteady : IsSteady api lookup := by
    apply StoredTree.isSteady_pinned
    intro parent name child h
    simp only [lookup] at h
    split at h
    · cases h
      rfl
    · cases h
  have hresolved : (storage.checkDirectory "docs//.").answer? [{}, {}] = some (.ok ()) := rfl
  have hlisted : (storage.list "docs//.").answer? [{}, {}, {}] =
      some (.error (.host "JsValue(null)")) := rfl
  exact ⟨hsteady, hresolved, hlisted,
    (resolution_follows_walk hsteady .root defaultQuota "docs//.").2.2.2.2.2.1
      _ _ _ hresolved hlisted⟩

end PrivateStorage

end PluginBridge.Browser
