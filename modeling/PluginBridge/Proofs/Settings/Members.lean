import PluginBridge.Proofs.Settings.Literal

/-!
# Members of an object

The object form is read one member at a time.  `Draft.take` says what a member comes to after the
settings that have been given so far; `Offends` lists the ways in which it can be refused, each with
its fault and the place where that is noticed.

* `readMember_cases`: a member is read as `Draft.take` says; and
* `readMembers_cases`: so all members are, up to the first that is refused.
-/

namespace PluginBridge.Settings

/-! ## Notation -/

/-- A member of an object.  Its key is written without escapes. -/
structure Member where
  key : String
  value : Literal
  isPlain : ∀ c ∈ key.toList, c ≠ '"' ∧ c ≠ '\\' ∧ 0x20 ≤ c.toNat

/-- What stands before a member or an element: a comma, unless it is the first one. -/
def separator (first : Bool) : List (List Char) :=
  if first then [] else [[',']]

/-- The parts of a member. -/
def Member.parts (m : Member) : List (List Char) :=
  ['"' :: (m.key.toList ++ ['"']), [':'], m.value.text]

/-- The parts of some members, and the brace that closes the object. -/
def memberParts : Bool → List Member → List (List Char)
  | _, [] => [['}']]
  | first, m :: rest => separator first ++ (m.parts ++ memberParts false rest)

/-- The next part can be no part of a number. -/
def EndsValue (parts : List (List Char)) : Prop :=
  ∃ c part tail, parts = (c :: part) :: tail ∧ EndsNumber [c]

theorem endsNumber_singleton {c : Char}
    (h : c.isDigit = false ∧ c ≠ '.' ∧ c ≠ 'e' ∧ c ≠ 'E') : EndsNumber [c] := by
  intro d tail heq
  cases heq
  exact h

theorem endsValue_memberParts (members : List Member) : EndsValue (memberParts false members) := by
  cases members with
  | nil => exact ⟨'}', [], [], rfl, endsNumber_singleton (by decide)⟩
  | cons m rest => exact ⟨',', [], _, rfl, endsNumber_singleton (by decide)⟩

theorem Spaced.endsNumber {parts : List (List Char)} {rest : List Char} (h : Spaced parts rest)
    (hparts : EndsValue parts) : EndsNumber rest := by
  obtain ⟨c, part, tail, rfl, hc⟩ := hparts
  intro d others heq
  subst heq
  rcases h.head_cases with hblank | rfl
  · simp only [isBlank, Bool.or_eq_true, decide_eq_true_eq] at hblank
    rcases hblank with ((rfl | rfl) | rfl) | rfl <;> decide
  · exact hc d [] rfl

/-! ## Keys -/

theorem Field.ofKey?_eq_some_iff {key : String} {field : Field} :
    Field.ofKey? key = some field ↔ key = field.key := by
  unfold Field.ofKey?
  split
  · cases field <;> simp_all [Field.key]
  · split <;> cases field <;> simp_all [Field.key]

theorem Field.ofKey?_eq_none_iff {key : String} :
    Field.ofKey? key = none ↔ ∀ field : Field, key ≠ field.key := by
  rw [Option.eq_none_iff_forall_ne_some]
  exact forall_congr' fun field => Field.ofKey?_eq_some_iff.not

theorem Field.key_injective {a b : Field} (h : a.key = b.key) : a = b := by
  cases a <;> cases b <;> simp_all [Field.key]

/-- A key without escapes is read as it stands. -/
theorem readText_of_plain {key : List Char} (h : ∀ c ∈ key, c ≠ '"' ∧ c ≠ '\\' ∧ 0x20 ≤ c.toNat)
    (rest : List Char) : readText (key ++ '"' :: rest) = .ok (key, rest) := by
  induction key with
  | nil => simp [readText]
  | cons c key ih =>
    obtain ⟨⟨hquote, hescape, hcontrol⟩, hkey⟩ := List.forall_mem_cons.1 h
    rw [List.cons_append, readText.eq_4 c _ (fun heq => hquote heq) (fun heq => hescape heq),
      if_neg (Nat.not_lt.2 hcontrol), ih hkey]
    rfl

/-! ## What a member comes to -/

/-- Writes a value into a setting. -/
def Draft.fill (draft : Draft) (value : Literal) : Field → Except Fault Draft
  | .quota => value.quota.map fun quota => { draft with quota := some quota }
  | .traced => value.traced.map fun traced => { draft with traced := some traced }

/-- The settings after a member, or its fault: an unknown key, else one that has been given before,
else a wrong value. -/
def Draft.take (draft : Draft) (m : Member) : Except Fault Draft :=
  match Field.ofKey? m.key with
  | none => .error (.unknownField m.key)
  | some field =>
    if draft.has field then .error (.duplicateField field) else draft.fill m.value field

/-- Only the setting itself is written, and only with a value that gives it. -/
theorem Draft.fill_cases {draft next : Draft} {value : Literal} {field : Field}
    (h : draft.fill value field = .ok next) :
    (field = .quota ∧ ∃ quota : UInt64,
      value = .integer false quota.toNat ∧ next = { draft with quota := some quota }) ∨
    field = .traced ∧ ∃ traced,
      value = .boolean traced ∧ next = { draft with traced := some traced } := by
  cases field with
  | quota =>
    rw [fill] at h
    cases hquota : value.quota <;> rw [hquota] at h <;> cases h
    exact .inl ⟨rfl, _, Literal.quota_eq_ok_iff.1 hquota, rfl⟩
  | traced =>
    rw [fill] at h
    cases htraced : value.traced <;> rw [htraced] at h <;> cases h
    exact .inr ⟨rfl, _, Literal.traced_eq_ok_iff.1 htraced, rfl⟩

theorem Draft.openFields_of_fill {draft next : Draft} {value : Literal} {field : Field}
    (hopen : ¬draft.has field) (h : draft.fill value field = .ok next) :
    next.openFields < draft.openFields := by
  rcases fill_cases h with ⟨rfl, quota, -, rfl⟩ | ⟨rfl, traced, -, rfl⟩
  · cases hset : draft.quota <;> simp_all [has, openFields]
  · cases hset : draft.traced <;> simp_all [has, openFields]

/-- A value is refused for a setting. -/
def Literal.Refused (value : Literal) (fault : Fault) : Field → Prop
  | .quota => value.quota = .error fault
  | .traced => value.traced = .error fault

/-- How a member of a text can be refused after some settings have been given.  A fault of its key
is noticed at the colon, and one of its value right behind that value. -/
inductive Offends (given : Field → Prop) (m : Member) (tail : List (List Char))
    (text : List Char) : Failure → Prop where
  | unknown {left : List Char} (hkey : ∀ field : Field, m.key ≠ field.key)
      (hleft : Spaced (m.value.text :: tail) left) (htext : ':' :: left <:+ text) :
      Offends given m tail text ⟨.unknownField m.key, byteCount (':' :: left)⟩
  | duplicate {field : Field} {left : List Char} (hkey : m.key = field.key) (hgiven : given field)
      (hleft : Spaced (m.value.text :: tail) left) (htext : ':' :: left <:+ text) :
      Offends given m tail text ⟨.duplicateField field, byteCount (':' :: left)⟩
  | wrongValue {field : Field} {fault : Fault} {left : List Char} (hkey : m.key = field.key)
      (hopen : ¬given field) (hvalue : m.value.Refused fault field) (hleft : Spaced tail left)
      (htext : m.value.text ++ left <:+ text) :
      Offends given m tail text ⟨fault, byteCount left⟩

theorem Offends.of_isSuffix {given : Field → Prop} {m : Member} {tail : List (List Char)}
    {part text : List Char} {failure : Failure} (h : Offends given m tail part failure)
    (hpart : part <:+ text) : Offends given m tail text failure := by
  cases h with
  | unknown hkey hleft htext => exact .unknown hkey hleft (htext.trans hpart)
  | duplicate hkey hgiven hleft htext => exact .duplicate hkey hgiven hleft (htext.trans hpart)
  | wrongValue hkey hopen hvalue hleft htext =>
    exact .wrongValue hkey hopen hvalue hleft (htext.trans hpart)

/-! ## Reading a member -/

theorem readField_eq (draft : Draft) (m : Member) {after left : List Char}
    (h : skipBlanks after = ':' :: left) :
    readField draft (m.key.toList ++ '"' :: after) =
      match Field.ofKey? m.key with
      | none => failAt (.unknownField m.key) (':' :: left)
      | some field =>
        if h : draft.has field then failAt (.duplicateField field) (':' :: left)
        else .ok (⟨field, h⟩, after) := by
  have hafter {α : Type} (fault : Fault) :
      (failAfterKey fault after : Except Failure α) = failAt fault (':' :: left) := by
    rw [failAfterKey, h]
    rfl
  rw [readField, readText_of_plain m.isPlain]
  show (match Field.ofKey? (String.ofList m.key.toList) with | none => _ | some field => _) = _
  rw [String.ofList_toList]
  cases Field.ofKey? m.key with
  | none => exact hafter _
  | some field =>
    show (if h : draft.has field then _ else _) = (if h : draft.has field then _ else _)
    split
    · exact hafter _
    · rfl

theorem readColon_eq {text left : List Char} (h : skipBlanks text = ':' :: left) :
    readColon text = .ok left := by
  rw [readColon, h]
  rfl

/-- The value of an open field is written into it, or refused. -/
theorem readMember_of_open {draft : Draft} {m : Member} {field : Field}
    (hkey : m.key = field.key) (hopen : ¬draft.has field) {tail : List (List Char)}
    (htail : EndsValue tail) {after : List Char}
    (h : Spaced ([':'] :: m.value.text :: tail) after)
    (hfield : readField draft (m.key.toList ++ '"' :: after) = .ok (⟨field, hopen⟩, after)) :
    (∃ next rest, draft.fill m.value field = .ok next.1 ∧
      readMember draft (m.key.toList ++ '"' :: after) = .ok (next, rest) ∧
      Spaced tail rest ∧ rest <:+ after) ∨
    ∃ failure, draft.fill m.value field = .error failure.fault ∧
      Offends (draft.has · = true) m tail after failure ∧
      readMember draft (m.key.toList ++ '"' :: after) = .error failure := by
  obtain ⟨left, hskip, hcolonText, hleft⟩ := h.skipBlanks_cons (startsPart_cons rfl)
  obtain ⟨rest, hvalue, hvalueText, hrest⟩ := hleft.skipBlanks_cons m.value.startsPart_text
  have hcolon : readColon after = .ok left := readColon_eq hskip
  have hends : EndsNumber rest := hrest.endsNumber htail
  have htext : m.value.text ++ rest <:+ after :=
    hvalueText.trans ((List.suffix_cons _ _).trans hcolonText)
  have hrestText : rest <:+ after := (List.suffix_append _ _).trans htext
  have hwrong {fault : Fault} (hrefused : m.value.Refused fault field) :
      Offends (draft.has · = true) m tail after ⟨fault, byteCount rest⟩ :=
    .wrongValue hkey hopen hrefused hrest htext
  cases field with
  | quota =>
    have hread := readQuota_eq hvalue hends
    cases hquota : m.value.quota with
    | error fault =>
      refine .inr ⟨_, ?_, hwrong hquota, ?_⟩
      · rw [Draft.fill, hquota]
        rfl
      · simp [readMember, hfield, bind, Except.bind, hcolon, hread, hquota, leaving, failAt]
    | ok quota =>
      have hfill : draft.fill m.value .quota = .ok { draft with quota := some quota } := by
        rw [Draft.fill, hquota]
        rfl
      refine .inl ⟨⟨_, Draft.openFields_of_fill hopen hfill⟩, rest, hfill, ?_, hrest, hrestText⟩
      simp [readMember, hfield, bind, Except.bind, hcolon, hread, hquota, leaving, pure,
        Except.pure]
  | traced =>
    have hread := readBoolean_eq hvalue hends
    cases htraced : m.value.traced with
    | error fault =>
      refine .inr ⟨_, ?_, hwrong htraced, ?_⟩
      · rw [Draft.fill, htraced]
        rfl
      · simp [readMember, hfield, bind, Except.bind, hcolon, hread, htraced, leaving, failAt]
    | ok traced =>
      have hfill : draft.fill m.value .traced = .ok { draft with traced := some traced } := by
        rw [Draft.fill, htraced]
        rfl
      refine .inl ⟨⟨_, Draft.openFields_of_fill hopen hfill⟩, rest, hfill, ?_, hrest, hrestText⟩
      simp [readMember, hfield, bind, Except.bind, hcolon, hread, htraced, leaving, pure,
        Except.pure]

/-- **A member** is read as it is taken, and what is left begins with the next part. -/
theorem readMember_cases (draft : Draft) (m : Member) {tail : List (List Char)}
    (htail : EndsValue tail) {after : List Char}
    (h : Spaced ([':'] :: m.value.text :: tail) after) :
    (∃ next rest, draft.take m = .ok next.1 ∧
      readMember draft (m.key.toList ++ '"' :: after) = .ok (next, rest) ∧
      Spaced tail rest ∧ rest <:+ after) ∨
    ∃ failure, draft.take m = .error failure.fault ∧
      Offends (draft.has · = true) m tail after failure ∧
      readMember draft (m.key.toList ++ '"' :: after) = .error failure := by
  obtain ⟨left, hcolon, htext, hleft⟩ := h.skipBlanks_cons (startsPart_cons rfl)
  have hfield := readField_eq draft m hcolon
  rw [Draft.take]
  cases hkey : Field.ofKey? m.key with
  | none =>
    rw [hkey] at hfield
    refine .inr ⟨_, rfl, .unknown (Field.ofKey?_eq_none_iff.1 hkey) hleft htext, ?_⟩
    rw [readMember, hfield]
    rfl
  | some field =>
    have hname := Field.ofKey?_eq_some_iff.1 hkey
    rw [hkey] at hfield
    by_cases hhas : draft.has field
    · simp only [dif_pos hhas] at hfield
      simp only [if_pos hhas]
      refine .inr ⟨_, rfl, .duplicate hname hhas hleft htext, ?_⟩
      rw [readMember, hfield]
      rfl
    · simp only [dif_neg hhas] at hfield
      simp only [if_neg hhas]
      exact readMember_of_open hname hhas htail h hfield

/-! ## Reading all members -/

theorem readMemberStart_nil {first : Bool} {text : List Char}
    (h : Spaced (memberParts first []) text) :
    ∃ rest, readMemberStart first text = .ok (false, rest) ∧ Spaced [] rest := by
  obtain ⟨rest, hskip, -, hrest⟩ := h.skipBlanks_cons (startsPart_cons rfl)
  refine ⟨rest, ?_, hrest⟩
  rw [readMemberStart, hskip]
  rfl

theorem readMemberStart_cons {first : Bool} {m : Member} {members : List Member}
    {text : List Char} (h : Spaced (memberParts first (m :: members)) text) :
    ∃ after, readMemberStart first text = .ok (true, m.key.toList ++ '"' :: after) ∧
      Spaced ([':'] :: m.value.text :: memberParts false members) after ∧ after <:+ text := by
  have hquote : StartsPart ('"' :: (m.key.toList ++ ['"'])) := startsPart_cons rfl
  cases first with
  | true =>
    obtain ⟨after, hskip, htext, hafter⟩ := h.skipBlanks_cons hquote
    refine ⟨after, ?_, hafter, (List.suffix_append _ _).trans htext⟩
    rw [readMemberStart, hskip]
    simp
  | false =>
    obtain ⟨rest, hskip, htext, hrest⟩ := h.skipBlanks_cons (startsPart_cons rfl)
    obtain ⟨after, hkey, hkeyText, hafter⟩ := hrest.skipBlanks_cons hquote
    refine ⟨after, ?_, hafter, (List.suffix_append _ _).trans
      (hkeyText.trans ((List.suffix_cons _ _).trans htext))⟩
    rw [readMemberStart, hskip]
    simp [hkey]

/-- **All members** are read in order, up to the first that is refused. -/
theorem readMembers_cases {first : Bool} {members : List Member} (draft : Draft)
    {text : List Char} (h : Spaced (memberParts first members) text) :
    (∃ last rest, members.foldlM Draft.take draft = .ok last ∧
      readMembers first draft text = .ok (last.config, rest) ∧ Spaced [] rest) ∨
    ∃ before m after next failure, members = before ++ m :: after ∧
      before.foldlM Draft.take draft = .ok next ∧ next.take m = .error failure.fault ∧
      Offends (next.has · = true) m (memberParts false after) text failure ∧
      readMembers first draft text = .error failure := by
  induction members generalizing first draft text with
  | nil =>
    obtain ⟨rest, hstart, hrest⟩ := readMemberStart_nil h
    refine .inl ⟨draft, rest, rfl, ?_, hrest⟩
    rw [readMembers, hstart]
  | cons m members ih =>
    obtain ⟨after, hstart, hafter, htext⟩ := readMemberStart_cons h
    rcases readMember_cases draft m (endsValue_memberParts members) hafter with
      ⟨next, rest, htake, hread, hrest, hrestText⟩ | ⟨failure, htake, hoffends, hread⟩
    · have hstep : readMembers first draft text = readMembers false next.1 rest := by
        rw [readMembers, hstart]
        simp only [hread]
      rw [List.foldlM_cons, htake, hstep]
      rcases ih next.1 hrest with
        hlast | ⟨before, other, behind, last, failure, rfl, hbefore, hother, hoffends, hread⟩
      · exact .inl hlast
      · refine .inr ⟨m :: before, other, behind, last, failure, rfl, ?_, hother,
          hoffends.of_isSuffix (hrestText.trans htext), hread⟩
        rw [List.foldlM_cons, htake]
        exact hbefore
    · refine .inr ⟨[], m, members, draft, failure, rfl, rfl, htake, hoffends.of_isSuffix htext, ?_⟩
      rw [readMembers, hstart]
      simp only [hread]

end PluginBridge.Settings
