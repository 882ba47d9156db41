import PluginBridge.Proofs.Settings.Gathering

/-!
# The two forms of a configuration

A configuration is written as an object whose members come in any order, or as a list with the quota
first, with any blanks between the parts.

* `parse_object`: an object is read member by member, and the first that is refused is the error;
* `parse_list`: a list is read as the object with the same values; and
* `parse_members`: so the settings are those that the members give, in whichever order and form.
-/

namespace PluginBridge.Settings

/-! ## The object form -/

/-- The parts of an object. -/
def objectParts (members : List Member) : List (List Char) :=
  ['{'] :: memberParts true members

/-- What is read of either form is the configuration if nothing but blanks stands behind it. -/
def finish (read : Settings × List Char) : Except Failure Settings :=
  match skipBlanks read.2 with
  | [] => .ok read.1
  | rest => failOn .trailingCharacters rest

theorem finish_of_spaced {rest : List Char} (h : Spaced [] rest) (config : Settings) :
    finish (config, rest) = .ok config := by
  rw [finish, h.skipBlanks_nil]

theorem readConfig_object {text inner : List Char} (h : skipBlanks text = '{' :: inner) :
    readConfig text = (readMembers true {} inner).bind finish := by
  rw [readConfig, h]
  rfl

theorem readConfig_list {text inner : List Char} (h : skipBlanks text = '[' :: inner) :
    readConfig text = (readList inner).bind finish := by
  rw [readConfig, h]
  rfl

theorem parse_eq (text : String) :
    parse text = (readConfig text.toList).mapError fun failure =>
      ⟨failure.fault, .ofLeft text.toList failure.left⟩ := rfl

/-- **An object** is read member by member, and the first that is refused is the error. -/
theorem parse_object {members : List Member} {text : String}
    (h : Spaced (objectParts members) text.toList) :
    (∃ last, members.foldlM Draft.take {} = .ok last ∧ parse text = .ok last.config) ∨
    ∃ before m after next failure, members = before ++ m :: after ∧
      before.foldlM Draft.take {} = .ok next ∧ next.take m = .error failure.fault ∧
      Offends (next.has · = true) m (memberParts false after) text.toList failure ∧
      parse text = .error ⟨failure.fault, .ofLeft text.toList failure.left⟩ := by
  obtain ⟨rest, hskip, htext, hrest⟩ := h.skipBlanks_cons (startsPart_cons rfl)
  rw [List.singleton_append] at hskip htext
  rw [parse_eq, readConfig_object hskip]
  rcases readMembers_cases {} hrest with
    ⟨last, behind, htake, hread, hbehind⟩ |
    ⟨before, m, after, next, failure, hsplit, hbefore, htake, hoffends, hread⟩
  · rw [hread]
    refine .inl ⟨last, htake, ?_⟩
    rw [Except.bind, finish_of_spaced hbehind]
    rfl
  · rw [hread]
    exact .inr ⟨before, m, after, next, failure, hsplit, hbefore, htake,
      hoffends.of_isSuffix ((List.suffix_cons _ _).trans htext), rfl⟩

/-- The settings or the fault of an object, without the place. -/
theorem parse_object_fault {members : List Member} {text : String}
    (h : Spaced (objectParts members) text.toList) :
    (parse text).mapError Error.fault = (members.foldlM Draft.take {}).map Draft.config := by
  rcases parse_object h with
    ⟨last, htake, hparse⟩ | ⟨before, m, after, next, failure, rfl, hbefore, htake, -, hparse⟩
  · rw [htake, hparse]
    rfl
  · rw [List.foldlM_append, hbefore, hparse]
    show _ = ((next.take m >>= fun last => after.foldlM Draft.take last).map Draft.config)
    rw [htake]
    rfl

/-! ## The list form -/

/-- The parts of some elements, and the bracket that closes the list. -/
def elementParts : Bool → List Literal → List (List Char)
  | _, [] => [[']']]
  | first, value :: rest => separator first ++ (value.text :: elementParts false rest)

/-- The parts of a list. -/
def listParts (values : List Literal) : List (List Char) :=
  ['['] :: elementParts true values

/-- The member that gives a setting a value. -/
def Member.ofField (field : Field) (value : Literal) : Member where
  key := field.key
  value := value
  isPlain := by cases field <;> simp [Field.key]

/-- The members with the values of a list: the quota first. -/
def ofValues (values : List Literal) : List Member :=
  List.zipWith Member.ofField [.quota, .traced] values

theorem endsValue_elementParts (values : List Literal) :
    EndsValue (elementParts false values) := by
  cases values with
  | nil => exact ⟨']', [], [], rfl, endsNumber_singleton (by decide)⟩
  | cons value rest => exact ⟨',', [], _, rfl, endsNumber_singleton (by decide)⟩

theorem readSeparator_nil {first : Bool} {text : List Char}
    (h : Spaced (elementParts first []) text) :
    ∃ rest, readSeparator first text = .ok (false, rest) ∧
      Spaced (elementParts false []) rest := by
  obtain ⟨rest, hskip, -, hrest⟩ := h.skipBlanks_cons (startsPart_cons rfl)
  refine ⟨']' :: rest, ?_, hrest.next [']']⟩
  rw [readSeparator, hskip]
  rfl

theorem readSeparator_cons {first : Bool} {value : Literal} {values : List Literal}
    {text : List Char} (h : Spaced (elementParts first (value :: values)) text) :
    ∃ rest, readSeparator first text = .ok (true, value.text ++ rest) ∧
      Spaced (elementParts false values) rest := by
  obtain ⟨c, part, hvalue, -, hbracket⟩ := value.exists_text_eq_cons
  cases first with
  | true =>
    obtain ⟨rest, hskip, -, hrest⟩ := h.skipBlanks_cons value.startsPart_text
    refine ⟨rest, ?_, hrest⟩
    rw [readSeparator, hskip, hvalue]
    simp
  | false =>
    obtain ⟨behind, hcomma, -, hbehind⟩ := h.skipBlanks_cons (startsPart_cons rfl)
    obtain ⟨rest, hskip, -, hrest⟩ := hbehind.skipBlanks_cons value.startsPart_text
    refine ⟨rest, ?_, hrest⟩
    rw [readSeparator, hcomma]
    simp [hskip, hvalue, hbracket]

theorem readListEnd_eq {text : List Char} (h : Spaced (elementParts false []) text) :
    ∃ rest, readListEnd text = .ok rest ∧ Spaced [] rest := by
  obtain ⟨rest, hskip, -, hrest⟩ := h.skipBlanks_cons (startsPart_cons rfl)
  refine ⟨rest, ?_, hrest⟩
  rw [readListEnd, hskip]
  rfl

/-- What a list of values comes to: that of the members with these values. -/
def listed (values : List Literal) : Except Fault Settings :=
  ((ofValues values).foldlM Draft.take {}).map Draft.config

theorem listed_cons (quota : Literal) (others : List Literal) :
    listed (quota :: others) = quota.quota.bind fun value =>
      ((List.zipWith Member.ofField [.traced] others).foldlM Draft.take
        { quota := some value }).map Draft.config := by
  show (Draft.fill {} quota .quota >>= _).map Draft.config = _
  rw [Draft.fill]
  cases quota.quota <;> rfl

theorem listed_pair {quota traced : Literal} {value : UInt64} (h : quota.quota = .ok value) :
    listed [quota, traced] =
      traced.traced.map fun flag => { quota := value, traced := flag } := by
  rw [listed_cons, h]
  show (Draft.fill _ traced .traced >>= pure).map Draft.config = _
  rw [Draft.fill]
  cases traced.traced <;> rfl

/-- A list of at most two values is read in order, up to the first value that is refused. -/
theorem readList_cases {values : List Literal} (hlength : values.length ≤ 2) {text : List Char}
    (h : Spaced (elementParts true values) text) :
    (∃ config rest, listed values = .ok config ∧ readList text = .ok (config, rest) ∧
      Spaced [] rest) ∨
    ∃ failure, listed values = .error failure.fault ∧ readList text = .error failure := by
  rcases values with _ | ⟨quota, others⟩
  · obtain ⟨behind, hnone, hbehind⟩ := readSeparator_nil h
    obtain ⟨rest, hend, hrest⟩ := readListEnd_eq hbehind
    refine .inl ⟨{}, rest, rfl, ?_, hrest⟩
    simp [readList, hnone, hend, bind, Except.bind]
    rfl
  obtain ⟨afterQuota, hquota, hafterQuota⟩ := readSeparator_cons h
  have hreadQuota := readQuota_eq (skipBlanks_of_startsPart quota.startsPart_text afterQuota)
    (hafterQuota.endsNumber (endsValue_elementParts others))
  cases hvalue : quota.quota with
  | error fault =>
    refine .inr ⟨⟨fault, byteCount afterQuota⟩, ?_, ?_⟩
    · rw [listed_cons, hvalue]
      rfl
    · simp [readList, hquota, hreadQuota, hvalue, leaving, failAt, bind, Except.bind]
  | ok value =>
    rcases others with _ | ⟨traced, _ | ⟨other, others⟩⟩
    · obtain ⟨behind, hnone, hbehind⟩ := readSeparator_nil hafterQuota
      obtain ⟨rest, hend, hrest⟩ := readListEnd_eq hbehind
      refine .inl ⟨{ quota := value }, rest, ?_, ?_, hrest⟩
      · rw [listed_cons, hvalue]
        rfl
      · simp [readList, hquota, hreadQuota, hvalue, leaving, hnone, hend, bind, Except.bind]
        rfl
    · obtain ⟨afterTraced, htraced, hafterTraced⟩ := readSeparator_cons hafterQuota
      have hreadTraced := readBoolean_eq
        (skipBlanks_of_startsPart traced.startsPart_text afterTraced)
        (hafterTraced.endsNumber (endsValue_elementParts []))
      cases hflag : traced.traced with
      | error fault =>
        refine .inr ⟨⟨fault, byteCount afterTraced⟩, ?_, ?_⟩
        · rw [listed_pair hvalue, hflag]
          rfl
        · simp [readList, hquota, hreadQuota, hvalue, leaving, htraced, hreadTraced, hflag, failAt,
            bind, Except.bind]
      | ok flag =>
        obtain ⟨rest, hend, hrest⟩ := readListEnd_eq hafterTraced
        refine .inl ⟨{ quota := value, traced := flag }, rest, ?_, ?_, hrest⟩
        · rw [listed_pair hvalue, hflag]
          rfl
        · simp [readList, hquota, hreadQuota, hvalue, leaving, htraced, hreadTraced, hflag, hend,
            bind, Except.bind]
          rfl
    · simp only [List.length_cons] at hlength
      omega

/-- **A list** of at most two values is read as the object with these values. -/
theorem parse_list {values : List Literal} (hlength : values.length ≤ 2) {text : String}
    (h : Spaced (listParts values) text.toList) :
    (parse text).mapError Error.fault = listed values := by
  obtain ⟨rest, hskip, -, hrest⟩ := h.skipBlanks_cons (startsPart_cons rfl)
  rw [List.singleton_append] at hskip
  rw [parse_eq, readConfig_list hskip]
  rcases readList_cases hlength hrest with
    ⟨config, behind, hlisted, hread, hbehind⟩ | ⟨failure, hlisted, hread⟩
  · rw [hread, hlisted, Except.bind, finish_of_spaced hbehind]
    rfl
  · rw [hread, hlisted]
    rfl

/-! ## Both forms -/

theorem parse_eq_ok_iff {members : List Member} {text : String}
    (h : Spaced (objectParts members) text.toList) {settings : Settings} :
    parse text = .ok settings ↔ Fits members ∧ Carries members settings := by
  have hfault := parse_object_fault h
  constructor
  · intro hparse
    rcases parse_object h with ⟨last, htake, hlast⟩ | ⟨_, _, _, _, _, _, _, _, _, herror⟩
    · have hgathers := Draft.gathers_of_foldlM htake
      cases hparse.symm.trans hlast
      exact ⟨hgathers.fits, hgathers.carries⟩
    · rw [hparse] at herror
      cases herror
  · rintro ⟨hfits, hcarries⟩
    obtain ⟨last, htake⟩ := Draft.exists_foldlM_of_fits hfits
    rw [hcarries.unique (Draft.gathers_of_foldlM htake).carries]
    rw [htake] at hfault
    cases hparse : parse text with
    | error err =>
      rw [hparse] at hfault
      cases hfault
    | ok config =>
      rw [hparse] at hfault
      cases hfault
      rfl

/-- The first member that is refused tells what is wrong, and where. -/
theorem parse_eq_error {members : List Member} {text : String}
    (h : Spaced (objectParts members) text.toList) {err : Error}
    (hparse : parse text = .error err) :
    ∃ before m after failure, members = before ++ m :: after ∧ Fits before ∧
      Offends (IsGiven before) m (memberParts false after) text.toList failure ∧
      err = ⟨failure.fault, .ofLeft text.toList failure.left⟩ := by
  rcases parse_object h with
    ⟨last, _, hlast⟩ | ⟨before, m, after, next, failure, hsplit, hbefore, -, hoffends, herror⟩
  · rw [hparse] at hlast
    cases hlast
  · have hgathers := Draft.gathers_of_foldlM hbefore
    have hgiven : (next.has · = true) = IsGiven before :=
      funext fun field => propext (hgathers.has_iff field)
    rw [hgiven] at hoffends
    cases hparse.symm.trans herror
    exact ⟨before, m, after, failure, hsplit, hgathers.fits, hoffends, rfl⟩

/-- **What a configuration says** depends on its members only, not on their order, their form or the
blanks between them.

An object with any members whose keys need no escapes and whose values are booleans or whole numbers
is accepted exactly if every key names a setting, no key occurs twice, and the values suit their
settings; it then gives those values, and the defaults for the others.  Otherwise the error is that
of the first member that is not accepted after those before it, noticed in that member: an unknown
key, else one that has been given before, else a wrong value.  The members may be reordered.  A list
with the values of the first settings comes to the same settings as the object, or to the same
fault. -/
theorem parse_members {members : List Member} {text : String}
    (h : Spaced (objectParts members) text.toList) :
    (∀ settings, parse text = .ok settings ↔ Fits members ∧ Carries members settings) ∧
    ((∃ settings, parse text = .ok settings) ↔ Fits members) ∧
    (∀ err, parse text = .error err → ∃ before m after failure,
      members = before ++ m :: after ∧ Fits before ∧
      Offends (IsGiven before) m (memberParts false after) text.toList failure ∧
      err = ⟨failure.fault, .ofLeft text.toList failure.left⟩) ∧
    (∀ others other, members.Perm others → Spaced (objectParts others) other.toList →
      ∀ settings, parse text = .ok settings ↔ parse other = .ok settings) ∧
    ∀ values list, values.length ≤ 2 → members = ofValues values →
      Spaced (listParts values) list.toList →
      (parse list).mapError Error.fault = (parse text).mapError Error.fault := by
  refine ⟨fun _ => parse_eq_ok_iff h, ⟨?_, ?_⟩, fun _ => parse_eq_error h, ?_, ?_⟩
  · rintro ⟨settings, hparse⟩
    exact ((parse_eq_ok_iff h).1 hparse).1
  · intro hfits
    obtain ⟨last, htake⟩ := Draft.exists_foldlM_of_fits hfits
    exact ⟨last.config, (parse_eq_ok_iff h).2 ⟨hfits, (Draft.gathers_of_foldlM htake).carries⟩⟩
  · intro others other hperm hother settings
    rw [parse_eq_ok_iff h, parse_eq_ok_iff hother]
    exact ⟨fun ⟨hfits, hcarries⟩ => ⟨hfits.perm hperm, hcarries.perm hperm⟩,
      fun ⟨hfits, hcarries⟩ => ⟨hfits.perm hperm.symm, hcarries.perm hperm.symm⟩⟩
  · rintro values list hlength rfl hlist
    rw [parse_list hlength hlist, parse_object_fault h, listed]

/-- Both settings in an object and in a list. -/
theorem parse_members_of_both :
    let values : List Literal := [.integer false 5, .boolean false]
    let text := "\x7b\"quota_bytes\":5,\"trace_rpc\":false\x7d"
    Spaced (objectParts (ofValues values)) text.toList ∧
      parse text = .ok { quota := 5, traced := false } ∧
      Fits (ofValues values) ∧
      (parse "[5,false]").mapError Error.fault = (parse text).mapError Error.fault := by
  intro values text
  have htext : text.toList = (objectParts (ofValues values)).flatten := by decide +kernel
  have hobject : Spaced (objectParts (ofValues values)) text.toList := htext ▸ spaced_flatten _
  have hlist : Spaced (listParts values) "[5,false]".toList := spaced_flatten _
  have hparse : parse text = .ok { quota := 5, traced := false } := by decide +kernel
  have hread := parse_members hobject
  exact ⟨hobject, hparse, hread.2.1.1 ⟨_, hparse⟩,
    hread.2.2.2.2 values "[5,false]" le_rfl rfl hlist⟩

end PluginBridge.Settings
