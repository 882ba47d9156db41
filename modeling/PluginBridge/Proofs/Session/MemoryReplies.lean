import PluginBridge.Proofs.Session.Posts
import PluginBridge.Proofs.Storage.Listing

/-!
# Replies from a tree in memory

A session whose storage is a tree in memory, which operations change from outside while requests
wait.

* `isHierarchy_worldAfter`: through all of that the tree stays a tree;
* `poll_from_memory`: the first poll of a task ends it, and answers from the tree as it is then;
* `replies_from_memory`: a directory is listed by its children and everything else is refused, and
  the reply to a stat never contradicts the listing.
-/

namespace PluginBridge.Session

open PluginBridge.Path

/-! ## Sessions over a tree -/

/-- An event that changes the tree, if it does, by an operation on it. -/
def Event.IsHosted : Event FileTree → Prop
  | .change f => ∃ operation, f = fun tree => (tree.perform operation).1
  | _ => True

/-- A bridge with an empty tree for its storage. -/
def onMemory (bridge : Bridge FileTree) (quota : UInt64) : Session FileTree :=
  fresh { bridge with storage := some (FileTree.storage quota) } (.rootOnly quota)

/-- After `before`, a request is made, and `between` passes until its task is polled first. -/
structure Waits (before between : List (Event FileTree)) : Prop where
  hosted : ∀ event ∈ before ++ between, event.IsHosted
  quiet : ∀ event ∈ between, ¬event.Touches (requestCount before)

/-- What a poll comes to: what becomes of the task, and the texts that are posted. -/
def polled {ω : Type} (session : Session ω) (number : Nat) : PollResult × List String :=
  ((session.poll number).2.2, sent (session.poll number).2.1)

theorem isHierarchy_worldAfter {tree : FileTree} (h : IsHierarchy tree.entries)
    {course : List (Event FileTree)} (hhosted : ∀ event ∈ course, event.IsHosted) :
    IsHierarchy (worldAfter tree course).entries := by
  induction course generalizing tree with
  | nil => exact h
  | cons event rest ih =>
    obtain ⟨hevent, hrest⟩ := List.forall_mem_cons.1 hhosted
    refine ih ?_ hrest
    cases event with
    | change f =>
      obtain ⟨operation, rfl⟩ := hevent
      exact (FileTree.performed h operation).isHierarchy h
    | _ => exact h

/-! ## One request -/

/-- The message of a request makes that request. -/
theorem request?_print {ω : Type} (request : FileRequest) :
    (Event.message (PluginMessage.rpc request).print : Event ω).request? = some request := by
  have hparse : PluginMessage.parse (PluginMessage.rpc request).print = .ok (.rpc request) :=
    @PluginMessage.parse_print (.rpc request) trivial
  rw [Event.request?, hparse]

/-- What stands before the path in the message of a request. -/
def header : FileRequest → String
  | .list _ => "X5D"
  | .stat _ => "X5S"

theorem print_rpc (request : FileRequest) :
    (PluginMessage.rpc request).print = header request ++ request.path := by
  apply String.toList_injective
  cases request <;> simp [PluginMessage.print, FileRequest.print, FileRequest.command, header]

/-- The reply to a request that is answered from a tree. -/
def replyTexts (tree : FileTree) : FileRequest → List String
  | .list path => listingTexts (tree.list path)
  | .stat path => statTexts (tree.stat path)

/-- One poll ends a task that asks a tree. -/
theorem step_task_memory (traced : Bool) (quota : UInt64) (request : FileRequest)
    (tree : FileTree) :
    ∃ effects, (request.task traced (FileTree.storage quota)).step tree = (effects, .ended) ∧
      sent effects = replyTexts tree request := by
  cases request with
  | list path =>
    exact ⟨_, FileRequest.step_answering_of_ready rfl, FileRequest.sent_listingReply traced path _⟩
  | stat path =>
    exact ⟨_, FileRequest.step_answering_of_ready rfl, FileRequest.sent_statReply traced path _⟩

/-- The message of a request starts a task whose first poll ends it, and posts the reply from the
tree as it is then. -/
theorem poll_from_memory (bridge : Bridge FileTree) (quota : UInt64)
    {before between : List (Event FileTree)} (hwaits : Waits before between)
    (request : FileRequest) :
    let session := ((onMemory bridge quota).run
      (before ++ .message (PluginMessage.rpc request).print :: between)).1
    polled session (requestCount before) = (.ready, replyTexts session.world request) := by
  intro session
  have hstorage : ((onMemory bridge quota).run before).1.bridge.storage =
      some (FileTree.storage quota) := storage_run ..
  have hlength : ((onMemory bridge quota).run before).1.tasks.length = requestCount before :=
    length_tasks_fresh rfl before
  have hslot := getElem?_tasks_react_of_request hstorage (request?_print request)
  rw [hlength] at hslot
  have hsession : session = ((((onMemory bridge quota).run before).1.react
      (.message (PluginMessage.rpc request).print)).1.run between).1 := by
    show ((onMemory bridge quota).run (_ ++ _ :: _)).1 = _
    rw [run_append, run_cons]
  have htask : session.task? (requestCount before) =
      some (request.task ((onMemory bridge quota).run before).1.bridge.traced
        (FileTree.storage quota)) := by
    rw [task?_eq_some_iff, hsession]
    exact ⟨getElem?_tasks_run hslot hwaits.quiet, request.hasEnded_task _ _⟩
  obtain ⟨effects, hstep, hsent⟩ := step_task_memory
    ((onMemory bridge quota).run before).1.bridge.traced quota request session.world
  rw [polled, poll_of_ready htask hstep, hsent]

theorem number_onMemory (bridge : Bridge FileTree) (quota : UInt64)
    (before : List (Event FileTree)) (request : FileRequest) :
    (((onMemory bridge quota).run before).1.start (PluginMessage.rpc request).print).2.2 =
      some (requestCount before) := by
  rw [number_start, request?_print, storage_run]
  exact congrArg some (length_tasks_fresh rfl before)

/-! ## What the replies say -/

/-- The tree in which a task is polled is a tree. -/
theorem Waits.isHierarchy (bridge : Bridge FileTree) (quota : UInt64)
    {before between : List (Event FileTree)} (hwaits : Waits before between) (data : String) :
    IsHierarchy
      ((onMemory bridge quota).run (before ++ .message data :: between)).1.world.entries := by
  rw [world_run]
  apply isHierarchy_worldAfter (IsHierarchy.rootOnly quota)
  intro event hmem
  rcases List.mem_append.1 hmem with hmem | hmem
  · exact hwaits.hosted event (List.mem_append_left _ hmem)
  rcases List.mem_cons.1 hmem with rfl | hmem
  · exact trivial
  · exact hwaits.hosted event (List.mem_append_right _ hmem)

variable {tree : FileTree} {path : String}

theorem listing_of_directory (h : IsHierarchy tree.entries)
    (hdir : tree.node? (components path) = some .directory) :
    ∃ children, tree.AreChildren (components path) children ∧
      replyTexts tree (.list path) = children.map (fun child =>
        "X5D" ++ String.singleton child.kind.marker ++ child.name) ++ ["X5D_0"] := by
  obtain ⟨children, hlist, hchildren⟩ := FileTree.list_of_directory h hdir
  exact ⟨children, hchildren, by rw [replyTexts, hlist, listingTexts]⟩

theorem listing_of_not_directory (hdir : tree.node? (components path) ≠ some .directory) :
    replyTexts tree (.list path) = ["X5D_/"] := by
  obtain ⟨err, hlist⟩ := FileTree.list_of_not_directory hdir
  rw [replyTexts, hlist, listingTexts]

/-- The status of a path and its listing agree on whether it is a directory. -/
theorem stat_iff_listing (h : IsHierarchy tree.entries) :
    replyTexts tree (.stat path) =
      if (replyTexts tree (.list path)).getLast? = some "X5D_0" then ["X5S0"] else ["X5S/"] := by
  by_cases hdir : tree.node? (components path) = some .directory
  · obtain ⟨children, -, hlisting⟩ := listing_of_directory h hdir
    obtain ⟨stat, hstat, hkind⟩ := FileTree.stat_eq_directory_iff.2 hdir
    rw [hlisting, List.getLast?_concat, if_pos rfl, replyTexts, hstat, statTexts, if_pos hkind]
  · have hfailed : ["X5D_/"].getLast? ≠ some "X5D_0" := by decide
    rw [listing_of_not_directory hdir, if_neg hfailed, replyTexts]
    cases hstat : tree.stat path with
    | error err => rfl
    | ok stat =>
      have hkind : ¬stat.isDirectory := by
        intro hkind
        exact hdir (FileTree.stat_eq_directory_iff.1 ⟨stat, hstat, hkind⟩)
      exact if_neg hkind

/-- **Replies from memory.**  However the host changes the tree and whatever else is asked
meanwhile, the first poll of a task ends it.  A listing gives the children of a directory as the
tree is at that poll, by name, and refuses everything else.  A stat that is polled in the same tree
succeeds exactly if the listing does. -/
theorem replies_from_memory (bridge : Bridge FileTree) (quota : UInt64) (path : String)
    {before between : List (Event FileTree)} (hlist : Waits before between) :
    let session := ((onMemory bridge quota).run
      (before ++ .message ("X5D" ++ path) :: between)).1
    (((onMemory bridge quota).run before).1.start ("X5D" ++ path)).2.2 =
      some (requestCount before) ∧
    ∃ listing : List String,
      polled session (requestCount before) = (.ready, listing) ∧
      (session.world.node? (components path) = some .directory →
        ∃ children, session.world.AreChildren (components path) children ∧
          listing = children.map (fun child =>
            "X5D" ++ String.singleton child.kind.marker ++ child.name) ++ ["X5D_0"]) ∧
      (session.world.node? (components path) ≠ some .directory → listing = ["X5D_/"]) ∧
      ∀ before' between', Waits before' between' →
        let session' := ((onMemory bridge quota).run
          (before' ++ .message ("X5S" ++ path) :: between')).1
        (((onMemory bridge quota).run before').1.start ("X5S" ++ path)).2.2 =
          some (requestCount before') ∧
        (session'.world = session.world →
          polled session' (requestCount before') =
            (.ready, if listing.getLast? = some "X5D_0" then ["X5S0"] else ["X5S/"])) := by
  intro session
  have hprint : (PluginMessage.rpc (.list path)).print = "X5D" ++ path := print_rpc (.list path)
  have hprint' : (PluginMessage.rpc (.stat path)).print = "X5S" ++ path := print_rpc (.stat path)
  have hpoll := poll_from_memory bridge quota hlist (.list path)
  have hnumber := number_onMemory bridge quota before (.list path)
  rw [hprint] at hpoll hnumber
  have htree : IsHierarchy session.world.entries := hlist.isHierarchy bridge quota _
  refine ⟨hnumber, _, hpoll, fun hdir => listing_of_directory htree hdir,
    fun hdir => listing_of_not_directory hdir, ?_⟩
  intro before' between' hstat session'
  have hpoll' := poll_from_memory bridge quota hstat (.stat path)
  have hnumber' := number_onMemory bridge quota before' (.stat path)
  rw [hprint'] at hpoll' hnumber'
  refine ⟨hnumber', ?_⟩
  intro hsame
  rw [← stat_iff_listing htree, ← hsame]
  exact hpoll'

/-- While a listing waits, a file is written into its directory, and an older task is polled.  A
stat that waits in its place succeeds. -/
theorem replies_from_memory_after_write :
    let before : List (Event FileTree) :=
      [.change fun tree => (tree.perform (.makeDirectories "/a/b")).1, .message "X5Sb"]
    let between : List (Event FileTree) :=
      [.change fun tree => (tree.perform (.write "a//note" ⟨#[104, 105]⟩)).1, .poll 0]
    let session := ((onMemory ({} : Bridge FileTree) 8).run
      (before ++ .message ("X5D" ++ "./a") :: between)).1
    Waits before between ∧ session.world.node? (components "./a") = some .directory ∧
      polled session 1 = (.ready, ["X5DDb", "X5DFnote", "X5D_0"]) ∧
      ∃ children, session.world.AreChildren (components "./a") children ∧
        polled session 1 = (.ready, children.map (fun child =>
          "X5D" ++ String.singleton child.kind.marker ++ child.name) ++ ["X5D_0"]) ∧
        polled ((onMemory ({} : Bridge FileTree) 8).run
          (before ++ .message ("X5S" ++ "./a") :: between)).1 1 = (.ready, ["X5S0"]) := by
  intro before between session
  have hwaits : Waits before between := by
    refine ⟨?_, by decide⟩
    intro event hmem
    simp only [before, between, List.cons_append, List.nil_append, List.mem_cons,
      List.not_mem_nil, or_false] at hmem
    rcases hmem with rfl | rfl | rfl | rfl
    · exact ⟨_, rfl⟩
    · exact trivial
    · exact ⟨_, rfl⟩
    · exact trivial
  have hdir : session.world.node? (components "./a") = some .directory := by decide
  obtain ⟨-, listing, hpoll, hlisting, -, hstat⟩ := replies_from_memory {} 8 "./a" hwaits
  obtain ⟨children, hchildren, rfl⟩ := hlisting hdir
  have hpoll' := (hstat before between hwaits).2 rfl
  rw [List.getLast?_concat, if_pos rfl] at hpoll'
  exact ⟨hwaits, hdir, by decide, children, hchildren, hpoll, hpoll'⟩

end PluginBridge.Session
