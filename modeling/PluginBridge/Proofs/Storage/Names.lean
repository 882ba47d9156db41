import PluginBridge.Storage.Path

/-!
# Paths as lists of names

A normal spelling and the list of its names determine each other, so everything about directories
around a path can be said about beginnings of a list.

* `ofComponents_injective`: two lists of names with one normal spelling are equal,
* `ofComponents_concat` and `parent?_ofComponents_concat`: what one more name does to a spelling,
* `mem_ancestors_iff`: the directories on the way to a path are the nonempty proper beginnings of
  its names, and
* `eq_ofComponents_of_slash`: a normal spelling that is cut before a slash is a normal spelling.
-/

namespace PluginBridge.Path

/-! ## Names -/

/-- A text that can stand in a list of components. -/
def IsName (name : String) : Prop :=
  IsComponent name.toList ∧ '/' ∉ name.toList

/-- Every component is a name. -/
abbrev AreNames (names : List String) : Prop :=
  ∀ name ∈ names, IsName name

theorem isName_iff {name : String} :
    IsName name ↔ name ≠ "" ∧ name ≠ "." ∧ '/' ∉ name.toList := by
  have hnil : name.toList = [] ↔ name = "" := @String.toList_inj name ""
  have hdot : name.toList = ['.'] ↔ name = "." := @String.toList_inj name "."
  simp only [IsName, IsComponent, ne_eq, hnil, hdot, and_assoc]

theorem areNames_components (path : String) : AreNames (components path) := by
  intro name hname
  exact mem_components hname

theorem areNames_nil : AreNames [] := by
  intro name hname
  cases hname

theorem areNames_concat {names : List String} {name : String} :
    AreNames (names ++ [name]) ↔ AreNames names ∧ IsName name := by
  simp [AreNames, or_imp, forall_and]

theorem AreNames.of_isPrefix {above names : List String} (h : AreNames names)
    (hab : above <+: names) : AreNames above := by
  intro name hname
  exact h name (hab.subset hname)

/-- A path that is not the root has a last name. -/
theorem exists_components_eq_concat {path : String} (h : components path ≠ []) :
    ∃ names name, AreNames names ∧ IsName name ∧ components path = names ++ [name] := by
  rcases List.eq_nil_or_concat (components path) with hnil | ⟨names, name, hpath⟩
  · exact absurd hnil h
  · rw [List.concat_eq_append] at hpath
    obtain ⟨hnames, hname⟩ := areNames_concat.1 (hpath ▸ areNames_components path)
    exact ⟨names, name, hnames, hname, hpath⟩

/-! ## Spellings -/

theorem ofComponents_injective {a b : List String} (ha : AreNames a) (hb : AreNames b)
    (h : ofComponents a = ofComponents b) : a = b := by
  rw [← components_ofComponents ha, h, components_ofComponents hb]

@[simp] theorem ofComponents_nil : ofComponents [] = "/" := by
  simp [ofComponents]

/-- Each name after a slash; unlike the normal spelling, the empty list has no slash. -/
def slashed (names : List String) : String :=
  String.ofList (names.flatMap fun name => '/' :: name.toList)

theorem toList_slashed (names : List String) :
    (slashed names).toList = names.flatMap fun name => '/' :: name.toList :=
  String.toList_ofList

theorem slashed_concat (names : List String) (name : String) :
    slashed (names ++ [name]) = slashed names ++ "/" ++ name := by
  apply String.toList_injective
  simp [toList_slashed]

/-- Names without slashes can be told apart in a text that has a slash before each of them. -/
theorem slashed_injective {a b : List String} (ha : ∀ name ∈ a, '/' ∉ name.toList)
    (hb : ∀ name ∈ b, '/' ∉ name.toList) (h : slashed a = slashed b) : a = b := by
  have split : ∀ {names : List String}, (∀ name ∈ names, '/' ∉ name.toList) →
      (slashed names).toList.splitOn '/' = [] :: names.map String.toList := by
    intro names hnames
    rw [toList_slashed, ← splitOn_slashed (by simpa using hnames), List.flatMap_map]
  have heq := congrArg (List.splitOn '/') (congrArg String.toList h)
  rw [split ha, split hb, List.cons.injEq] at heq
  exact (List.map_inj_right fun _ _ => String.toList_injective).1 heq.2

theorem ofComponents_of_ne_nil {names : List String} (h : names ≠ []) :
    ofComponents names = slashed names := by
  rw [ofComponents, if_neg h, slashed]

theorem toList_ofComponents_ne_nil (names : List String) : (ofComponents names).toList ≠ [] := by
  cases names with
  | nil => simp
  | cons name rest => simp [ofComponents_of_ne_nil, toList_slashed]

theorem ofComponents_eq_root_iff {names : List String} (h : AreNames names) :
    ofComponents names = "/" ↔ names = [] := by
  constructor
  · intro hroot
    exact ofComponents_injective h areNames_nil hroot
  · rintro rfl
    exact ofComponents_nil

theorem normalize_eq_root_iff {path : String} : normalize path = "/" ↔ components path = [] :=
  ofComponents_eq_root_iff (areNames_components path)

/-- The text before the children of a directory is its spelling and one slash, also at the root. -/
theorem childPrefix_ofComponents {names : List String} (h : AreNames names) :
    childPrefix (ofComponents names) = slashed names ++ "/" := by
  by_cases hnil : names = []
  · subst hnil
    decide
  · have hroot : ofComponents names ≠ "/" := by
      intro hroot
      exact hnil ((ofComponents_eq_root_iff h).1 hroot)
    rw [childPrefix, if_neg hroot, ofComponents_of_ne_nil hnil]

theorem childPrefix_of_ne_root {dir : String} (h : dir ≠ "/") : childPrefix dir = dir ++ "/" :=
  if_neg h

theorem ofComponents_concat {names : List String} (h : AreNames names) (name : String) :
    ofComponents (names ++ [name]) = childPrefix (ofComponents names) ++ name := by
  rw [ofComponents_of_ne_nil (by simp), slashed_concat, childPrefix_ofComponents h]

/-- The spelling of a child begins with the text before the children of its directory. -/
theorem childPrefix_isPrefix {names : List String} (h : AreNames names) (name : String) :
    (childPrefix (ofComponents names)).toList <+: (ofComponents (names ++ [name])).toList := by
  rw [ofComponents_concat h, String.toList_append]
  exact List.prefix_append _ _

/-- Below the root, that text is the spelling of the path and a slash. -/
theorem normalize_slash_isPrefix {path : String} (hne : normalize path ≠ "/") (name : String) :
    (normalize path ++ "/").toList <+: (ofComponents (components path ++ [name])).toList := by
  rw [← childPrefix_of_ne_root hne]
  exact childPrefix_isPrefix (areNames_components path) name

theorem ofComponents_eq_normalize_iff {names : List String} {path : String} (h : AreNames names) :
    ofComponents names = normalize path ↔ names = components path := by
  constructor
  · intro heq
    exact ofComponents_injective h (areNames_components path) heq
  · rintro rfl
    rfl

/-- Two paths have one normal spelling exactly if they have the same components. -/
theorem normalize_eq_normalize_iff {a b : String} :
    normalize a = normalize b ↔ components a = components b :=
  ofComponents_eq_normalize_iff (areNames_components a)

@[simp] theorem normalize_normalize (path : String) :
    normalize (normalize path) = normalize path := by
  rw [normalize, components_normalize, ← normalize]

/-- One more name after a slash is one more component, however the path before it is spelled. -/
theorem components_append_name (path : String) {name : String} (h : IsName name) :
    components (path ++ "/" ++ name) = components path ++ [name] := by
  have hsplit : (path ++ "/" ++ name).toList.splitOn '/' =
      path.toList.splitOn '/' ++ [name.toList] := by
    rw [← List.splitOn_eq_singleton h.2, ← List.splitOn_append_cons_self]
    simp
  have hkeep : ([name.toList].filter fun part => IsComponent part) = [name.toList] :=
    List.filter_eq_self.2 fun part hpart =>
      decide_eq_true (List.mem_singleton.1 hpart ▸ h.1)
  rw [components, hsplit, List.filter_append, hkeep, List.map_append]
  simp [components]

/-- Joined by slashes, names are the components of a path. -/
theorem components_intercalate {names : List String} (h : AreNames names) :
    components ("/".intercalate names) = names := by
  by_cases hnil : names = []
  · subst hnil
    decide
  have hsplit : ("/".intercalate names).toList.splitOn '/' = names.map String.toList := by
    rw [String.toList_intercalate]
    refine List.splitOn_intercalate '/' ?_ (by simpa using hnil)
    simpa using fun name hname => (h name hname).2
  rw [components, hsplit, List.filter_eq_self.2]
  · simp
  · intro part hpart
    obtain ⟨name, hname, rfl⟩ := List.mem_map.1 hpart
    exact decide_eq_true (h name hname).1

theorem normalize_append_name (path : String) {name : String} (h : IsName name) :
    normalize (path ++ "/" ++ name) = childPrefix (normalize path) ++ name := by
  rw [normalize, components_append_name path h, ofComponents_concat (areNames_components path),
    normalize]

/-! ## The directory that holds a path -/

theorem beforeLastSlash_append {dir name : List Char} (h : '/' ∉ name) :
    beforeLastSlash (dir ++ '/' :: name) = some dir := by
  rw [beforeLastSlash, Text.splitAtLast_append h, Option.map_some]

theorem parent?_ofComponents_concat {names : List String} {name : String} (h : AreNames names)
    (hname : IsName name) :
    parent? (ofComponents (names ++ [name])) = some (ofComponents names) := by
  have hne : ofComponents (names ++ [name]) ≠ "/" := by
    intro hroot
    simpa using (ofComponents_eq_root_iff (areNames_concat.2 ⟨h, hname⟩)).1 hroot
  have hsplit : (ofComponents (names ++ [name])).toList =
      (slashed names).toList ++ '/' :: name.toList := by
    rw [ofComponents_of_ne_nil (by simp), slashed_concat]
    simp
  rw [parent?, if_neg hne, hsplit, beforeLastSlash_append hname.2, Option.map_some]
  by_cases hnil : names = []
  · subst hnil
    decide
  · have hslashed : (slashed names).toList ≠ [] := by
      rw [toList_slashed]
      cases names with
      | nil => exact absurd rfl hnil
      | cons first rest => simp
    rw [if_neg hslashed, String.ofList_toList, ofComponents_of_ne_nil hnil]

theorem parent?_root : parent? "/" = none := by
  simp [parent?]

/-! ## The directories on the way to a path -/

theorem mem_beginnings_iff {above names : List String} {dir : String} :
    dir ∈ beginnings (slashed above) names ↔
      ∃ start, start ≠ [] ∧ start <+: names ∧ dir = slashed (above ++ start) := by
  induction names generalizing above with
  | nil => simp +contextual [beginnings]
  | cons name rest ih =>
    rw [beginnings, List.mem_cons, ← slashed_concat, ih]
    constructor
    · rintro (rfl | ⟨start, -, hstart, rfl⟩)
      · exact ⟨[name], by simp, by simp, rfl⟩
      · exact ⟨name :: start, by simp, by simpa using hstart, by simp⟩
    · rintro ⟨start, hne, hstart, rfl⟩
      cases start with
      | nil => exact absurd rfl hne
      | cons first more =>
        obtain ⟨rfl, hmore⟩ := List.cons_prefix_cons.1 hstart
        by_cases hnil : more = []
        · exact .inl (by rw [hnil])
        · exact .inr ⟨more, hnil, hmore, by simp⟩

theorem slashed_nil : slashed [] = "" := rfl

theorem beginnings_concat (above names : List String) (name : String) :
    beginnings (slashed above) (names ++ [name]) =
      beginnings (slashed above) names ++ [slashed (above ++ names ++ [name])] := by
  induction names generalizing above with
  | nil => simp [beginnings, slashed_concat]
  | cons first rest ih =>
    rw [List.cons_append, beginnings, beginnings, ← slashed_concat, ih]
    simp

theorem ancestors_of_concat {path name : String} {names : List String}
    (hpath : components path = names ++ [name]) : ancestors path = beginnings "" names := by
  rw [ancestors, hpath, List.dropLast_concat]

/-- Is `above` a beginning of `names` that is neither empty nor the whole of it? -/
def IsBetween (above names : List String) : Prop :=
  above ≠ [] ∧ above <+: names ∧ above ≠ names

theorem isPrefix_dropLast_iff {above names : List String} (h : above ≠ []) :
    above <+: names.dropLast ↔ above <+: names ∧ above ≠ names := by
  rcases List.eq_nil_or_concat names with rfl | ⟨front, last, rfl⟩
  · simp [h]
  · rw [List.concat_eq_append, List.dropLast_concat, List.prefix_concat_iff]
    constructor
    · intro hab
      refine ⟨.inr hab, ?_⟩
      intro heq
      have hlength := hab.length_le
      rw [heq, List.length_append, List.length_singleton] at hlength
      omega
    · rintro ⟨heq | hab, hne⟩
      · exact absurd heq hne
      · exact hab

theorem mem_ancestors_iff {path dir : String} :
    dir ∈ ancestors path ↔
      ∃ above, IsBetween above (components path) ∧ dir = ofComponents above := by
  have hbase : "" = slashed [] := by decide
  rw [ancestors, hbase, mem_beginnings_iff]
  constructor
  · rintro ⟨above, hne, hab, rfl⟩
    obtain ⟨hpre, hproper⟩ := (isPrefix_dropLast_iff hne).1 hab
    exact ⟨above, ⟨hne, hpre, hproper⟩, (ofComponents_of_ne_nil hne).symm⟩
  · rintro ⟨above, ⟨hne, hpre, hproper⟩, rfl⟩
    exact ⟨above, hne, (isPrefix_dropLast_iff hne).2 ⟨hpre, hproper⟩, ofComponents_of_ne_nil hne⟩

theorem ofComponents_mem_ancestors_iff {path : String} {above : List String}
    (h : AreNames above) :
    ofComponents above ∈ ancestors path ↔ IsBetween above (components path) := by
  rw [mem_ancestors_iff]
  constructor
  · rintro ⟨other, hother, heq⟩
    have hnames := (areNames_components path).of_isPrefix hother.2.1
    rwa [ofComponents_injective h hnames heq]
  · intro hab
    exact ⟨above, hab, rfl⟩

@[simp] theorem ancestors_normalize (path : String) :
    ancestors (normalize path) = ancestors path := by
  rw [ancestors, components_normalize, ← ancestors]

theorem normalize_notMem_ancestors (path : String) : normalize path ∉ ancestors path := by
  rw [normalize, ofComponents_mem_ancestors_iff (areNames_components path)]
  intro h
  exact h.2.2 rfl

theorem root_notMem_ancestors (path : String) : "/" ∉ ancestors path := by
  rw [← ofComponents_nil, ofComponents_mem_ancestors_iff areNames_nil]
  intro h
  exact h.1 rfl

/-- A text without a slash at the front of a text that is cut at a slash is before the cut. -/
theorem append_eq_append_slash {name rest dir below : List Char} (h : '/' ∉ name)
    (hcut : name ++ rest = dir ++ '/' :: below) :
    ∃ more, dir = name ++ more ∧ rest = more ++ '/' :: below := by
  rcases List.append_eq_append_iff.1 hcut with hmore | ⟨more, rfl, hbelow⟩
  · exact hmore
  · cases more with
    | nil => exact ⟨[], by simp, by simpa using hbelow.symm⟩
    | cons c more =>
      rw [List.cons_append, List.cons.injEq] at hbelow
      obtain ⟨rfl, -⟩ := hbelow
      exact absurd (by simp) h

/-- What stands before a slash of a normal spelling is a normal spelling, unless it is empty: the
spelling can only be cut between two names. -/
theorem eq_ofComponents_of_slash {names : List String} {dir below : List Char}
    (h : AreNames names) (hne : dir ≠ [])
    (hcut : (slashed names).toList = dir ++ '/' :: below) :
    ∃ above, IsBetween above names ∧ String.ofList dir = ofComponents above := by
  suffices ∃ above, above <+: names ∧ above ≠ names ∧ dir = (slashed above).toList by
    obtain ⟨above, hpre, hproper, rfl⟩ := this
    have hnil : above ≠ [] := fun hnil => hne (by rw [hnil]; decide)
    exact ⟨above, ⟨hnil, hpre, hproper⟩,
      by rw [String.ofList_toList, ofComponents_of_ne_nil hnil]⟩
  clear hne
  -- The first name holds no slash, so a cut that is not before it is after it.
  induction names generalizing dir with
  | nil => simp [toList_slashed] at hcut
  | cons name rest ih =>
    rw [toList_slashed, List.flatMap_cons, List.cons_append] at hcut
    cases dir with
    | nil => exact ⟨[], by simp, by simp, by decide⟩
    | cons c dir =>
      rw [List.cons_append, List.cons.injEq] at hcut
      obtain ⟨rfl, hcut⟩ := hcut
      have hname : '/' ∉ name.toList := (h name (List.mem_cons_self ..)).2
      obtain ⟨more, rfl, hrest⟩ := append_eq_append_slash hname hcut
      obtain ⟨above, hpre, hproper, rfl⟩ :=
        ih (fun n hn => h n (List.mem_cons_of_mem _ hn)) ((toList_slashed rest).trans hrest)
      exact ⟨name :: above, by simpa using hpre, by simpa using hproper, by simp [toList_slashed]⟩

/-- The same for the spelling of a path that may be the root, which has nothing before its slash. -/
theorem eq_ofComponents_of_normal_slash {names : List String} {dir below : List Char}
    (h : AreNames names) (hne : dir ≠ [])
    (hcut : (ofComponents names).toList = dir ++ '/' :: below) :
    ∃ above, IsBetween above names ∧ String.ofList dir = ofComponents above := by
  by_cases hnil : names = []
  · subst hnil
    have hlength := congrArg List.length hcut
    have hpos := List.length_pos_iff.2 hne
    simp at hlength
    omega
  · rw [ofComponents_of_ne_nil hnil] at hcut
    exact eq_ofComponents_of_slash h hne hcut

end PluginBridge.Path
