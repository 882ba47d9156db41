import PluginBridge.Text.Split

/-!
# Paths

A path is a text whose components stand between slashes.  Empty components and `.` mean nothing,
so a path has many spellings; `normalize` picks the one with exactly one slash before each
component.  The root has no components and is spelled `/`.

`components_ofComponents` says that a normal spelling is read back, `components_normalize` that
normalizing keeps the components.
-/

namespace PluginBridge.Path

/-! ## Components -/

/-- A part between slashes that names something: neither empty nor `.`. -/
abbrev IsComponent (part : List Char) : Prop :=
  part ≠ [] ∧ part ≠ ['.']

/-- The components of a path. -/
def components (path : String) : List String :=
  ((path.toList.splitOn '/').filter fun part => IsComponent part).map String.ofList

/-! ## Normal spelling -/

/-- The normal spelling of a list of components: each after a slash, and the root as `/`. -/
def ofComponents (names : List String) : String :=
  if names = [] then "/" else String.ofList (names.flatMap fun name => '/' :: name.toList)

/-- The normal spelling of a path. -/
def normalize (path : String) : String :=
  ofComponents (components path)

/-! ## Directories around a path -/

/-- What stands before the last slash, if there is one. -/
def beforeLastSlash (path : List Char) : Option (List Char) :=
  (Text.splitAtLast '/' path).map Prod.fst

/-- The directory that holds a normal path.  The root has none; where the last slash is the first
character, the directory is the root. -/
def parent? (path : String) : Option String :=
  if path = "/" then none
  else (beforeLastSlash path.toList).map fun before =>
    if before = [] then "/" else String.ofList before

/-- The spellings of the nonempty beginnings of a list of components below `base`, shortest
first. -/
def beginnings (base : String) : List String → List String
  | [] => []
  | name :: rest => (base ++ "/" ++ name) :: beginnings (base ++ "/" ++ name) rest

/-- The directories on the way to a path: its proper ancestors without the root, shallowest
first. -/
def ancestors (path : String) : List String :=
  beginnings "" (components path).dropLast

/-- The text with which the paths inside a directory begin. -/
def childPrefix (dir : String) : String :=
  if dir = "/" then "/" else dir ++ "/"

/-! ## The normal spelling keeps the components -/

theorem splitOn_slashed {names : List (List Char)} (h : ∀ name ∈ names, '/' ∉ name) :
    (names.flatMap fun name => '/' :: name).splitOn '/' = [] :: names := by
  have : (names.flatMap fun name => '/' :: name) = ['/'].intercalate ([] :: names) := by
    clear h
    cases names with
    | nil => simp [List.intercalate]
    | cons name rest =>
      induction rest generalizing name with
      | nil => simp [List.intercalate]
      | cons next rest ih => cases rest <;> simp_all [List.intercalate]
  rw [this, List.splitOn_intercalate _ _ (by simp)]
  intro l hl
  rcases List.mem_cons.1 hl with rfl | hl
  · simp
  · exact h l hl

/-- What a component is once it stands in a list of components. -/
theorem mem_components {path name : String} (h : name ∈ components path) :
    IsComponent name.toList ∧ '/' ∉ name.toList := by
  obtain ⟨part, hpart, rfl⟩ := List.mem_map.1 h
  have ⟨hmem, hcomp⟩ := List.mem_filter.1 hpart
  exact ⟨by simpa using hcomp, by simpa using Text.notMem_of_mem_splitOn hmem⟩

theorem components_ofComponents {names : List String}
    (h : ∀ name ∈ names, IsComponent name.toList ∧ '/' ∉ name.toList) :
    components (ofComponents names) = names := by
  unfold ofComponents
  split
  · rename_i hnil
    subst hnil
    decide
  · have hsplit := @splitOn_slashed (names.map String.toList)
      (by simpa using fun n hn => (h n hn).2)
    rw [List.flatMap_map] at hsplit
    rw [components, String.toList_ofList, hsplit, List.filter_cons_of_neg (by simp),
      List.filter_eq_self.2, List.map_map]
    · exact (List.map_congr_left fun n _ => String.ofList_toList).trans (List.map_id _)
    · intro part hpart
      obtain ⟨n, hn, rfl⟩ := List.mem_map.1 hpart
      exact decide_eq_true (h n hn).1

theorem components_normalize (path : String) : components (normalize path) = components path :=
  components_ofComponents fun _ => mem_components

end PluginBridge.Path
