import Mathlib.Data.List.Nodup
import PluginBridge.Proofs.Settings.Members

/-!
# The settings that members give

`Fits` says which members of an object are accepted and `Carries` which settings they give, neither
of them with regard to their order.  Members are taken one after another, and a draft that has taken
them all has gathered just that: `Draft.Gathers.foldlM`, `Draft.Gathers.exists_foldlM` and
`Draft.Gathers.carries`.
-/

namespace PluginBridge.Settings

/-! ## What is accepted, and what it says -/

/-- Does a value suit a setting?  A quota is an unsigned number of at most 64 bits. -/
def Literal.Suits (value : Literal) : Field → Prop
  | .quota => ∃ n ≤ maxWord, value = .integer false n
  | .traced => ∃ traced, value = .boolean traced

/-- Members that are accepted: every key names a setting, none of them twice, and every value suits
its setting. -/
structure Fits (members : List Member) : Prop where
  known : ∀ m ∈ members, ∃ field : Field, m.key = field.key
  once : (members.map Member.key).Nodup
  suits : ∀ m ∈ members, ∀ field : Field, m.key = field.key → m.value.Suits field

/-- A setting as the value that gives it. -/
def literal (settings : Settings) : Field → Literal
  | .quota => .integer false settings.quota.toNat
  | .traced => .boolean settings.traced

/-- Settings that have the values of the members, and the default where there is none. -/
structure Carries (members : List Member) (settings : Settings) : Prop where
  given : ∀ m ∈ members, ∀ field : Field, m.key = field.key → m.value = settings.literal field
  default : ∀ field : Field, (∀ m ∈ members, m.key ≠ field.key) →
    settings.literal field = ({} : Settings).literal field

/-- A setting is given by one of the members. -/
def IsGiven (members : List Member) (field : Field) : Prop :=
  ∃ m ∈ members, m.key = field.key

theorem Fits.perm {members others : List Member} (h : Fits members) (hperm : members.Perm others) :
    Fits others where
  known := fun m hm => h.known m (hperm.mem_iff.2 hm)
  once := (hperm.map Member.key).nodup_iff.1 h.once
  suits := fun m hm => h.suits m (hperm.mem_iff.2 hm)

theorem Carries.perm {members others : List Member} {settings : Settings}
    (h : Carries members settings) (hperm : members.Perm others) : Carries others settings where
  given := fun m hm => h.given m (hperm.mem_iff.2 hm)
  default := fun field hnone => h.default field fun m hm => hnone m (hperm.mem_iff.1 hm)

theorem ext_literal {a b : Settings} (h : ∀ field, a.literal field = b.literal field) : a = b := by
  obtain ⟨quota, traced⟩ := a
  have hquota := h .quota
  have htraced := h .traced
  simp only [literal, Literal.integer.injEq, Literal.boolean.injEq, true_and] at hquota htraced
  rw [UInt64.toNat_inj.1 hquota, htraced]

/-- Members give one configuration. -/
theorem Carries.unique {members : List Member} {a b : Settings} (ha : Carries members a)
    (hb : Carries members b) : a = b := by
  apply ext_literal
  intro field
  by_cases hgiven : ∃ m ∈ members, m.key = field.key
  · obtain ⟨m, hm, hkey⟩ := hgiven
    rw [← ha.given m hm field hkey, hb.given m hm field hkey]
  · have hnone : ∀ m ∈ members, m.key ≠ field.key := fun m hm hkey => hgiven ⟨m, hm, hkey⟩
    rw [ha.default field hnone, hb.default field hnone]

/-! ## Drafts -/

namespace Draft

/-- A setting that has been given, as the value that gave it. -/
def literal? (draft : Draft) : Field → Option Literal
  | .quota => draft.quota.map fun quota => .integer false quota.toNat
  | .traced => draft.traced.map .boolean

theorem has_eq (draft : Draft) (field : Field) :
    draft.has field = (draft.literal? field).isSome := by
  cases field <;> simp [has, literal?]

theorem literal_config (draft : Draft) (field : Field) :
    draft.config.literal field = (draft.literal? field).getD (({} : Settings).literal field) := by
  cases field with
  | quota => cases hquota : draft.quota <;> simp [config, literal, literal?, hquota]
  | traced => cases htraced : draft.traced <;> simp [config, literal, literal?, htraced]

theorem exists_fill {value : Literal} {field : Field} (h : value.Suits field) (draft : Draft) :
    ∃ next, draft.fill value field = .ok next := by
  cases field with
  | quota =>
    obtain ⟨n, hn, rfl⟩ := h
    have hword : (UInt64.ofNat n).toNat = n :=
      UInt64.toNat_ofNat_of_lt' (Nat.lt_of_le_of_lt hn (by decide))
    refine ⟨{ draft with quota := some (.ofNat n) }, ?_⟩
    rw [fill, Literal.quota_eq_ok_iff.2 (congrArg _ hword.symm)]
    rfl
  | traced =>
    obtain ⟨traced, rfl⟩ := h
    exact ⟨{ draft with traced := some traced }, rfl⟩

/-- One setting is filled with a value that suits it, and the other is left as it is. -/
theorem literal?_of_fill {draft next : Draft} {value : Literal} {field : Field}
    (h : draft.fill value field = .ok next) :
    value.Suits field ∧ next.literal? field = some value ∧
      ∀ other ≠ field, next.literal? other = draft.literal? other := by
  rcases fill_cases h with ⟨rfl, quota, rfl, rfl⟩ | ⟨rfl, traced, rfl, rfl⟩
  · refine ⟨⟨_, Nat.le_pred_of_lt quota.toNat_lt, rfl⟩, rfl, ?_⟩
    intro other hother
    cases other with
    | quota => exact absurd rfl hother
    | traced => rfl
  · refine ⟨⟨_, rfl⟩, rfl, ?_⟩
    intro other hother
    cases other with
    | quota => rfl
    | traced => exact absurd rfl hother

theorem take_of_key {m : Member} {field : Field} (hkey : m.key = field.key) (draft : Draft) :
    draft.take m =
      if draft.has field then .error (.duplicateField field) else draft.fill m.value field := by
  rw [take, Field.ofKey?_eq_some_iff.2 hkey]

theorem exists_field_of_take {draft next : Draft} {m : Member} (h : draft.take m = .ok next) :
    ∃ field : Field, m.key = field.key ∧ draft.literal? field = none ∧
      draft.fill m.value field = .ok next := by
  cases hkey : Field.ofKey? m.key with
  | none =>
    rw [take, hkey] at h
    cases h
  | some field =>
    have hname := Field.ofKey?_eq_some_iff.1 hkey
    rw [take_of_key hname] at h
    split at h
    · cases h
    · rename_i hhas
      rw [has_eq, Option.not_isSome_iff_eq_none] at hhas
      exact ⟨field, hname, hhas, h⟩

/-- A draft has gathered members that are accepted, and holds their values. -/
structure Gathers (draft : Draft) (members : List Member) : Prop where
  fits : Fits members
  literal?_iff : ∀ field value, draft.literal? field = some value ↔
    ∃ m ∈ members, m.key = field.key ∧ m.value = value

theorem gathers_nil : Gathers {} [] where
  fits := ⟨by simp, by simp, by simp⟩
  literal?_iff := fun field value => by cases field <;> simp [literal?]

theorem Gathers.has_iff {draft : Draft} {members : List Member} (h : draft.Gathers members)
    (field : Field) : draft.has field ↔ IsGiven members field := by
  rw [has_eq, Option.isSome_iff_exists]
  simp only [h.literal?_iff]
  exact ⟨fun ⟨_, m, hm, hkey, _⟩ => ⟨m, hm, hkey⟩, fun ⟨m, hm, hkey⟩ => ⟨_, m, hm, hkey, rfl⟩⟩

/-- One more member. -/
theorem Gathers.take {draft next : Draft} {members : List Member} {m : Member}
    (h : draft.Gathers members) (htake : draft.take m = .ok next) :
    next.Gathers (members ++ [m]) := by
  obtain ⟨field, hkey, hopen, hfill⟩ := exists_field_of_take htake
  obtain ⟨hsuits, hfilled, hothers⟩ := literal?_of_fill hfill
  have hnew : ∀ earlier ∈ members, earlier.key ≠ field.key := by
    intro earlier hearlier heq
    rw [(h.literal?_iff field earlier.value).2 ⟨earlier, hearlier, heq, rfl⟩] at hopen
    cases hopen
  refine ⟨⟨?_, ?_, ?_⟩, ?_⟩
  · intro other hother
    rcases List.mem_append.1 hother with hother | hother
    · exact h.fits.known other hother
    · cases List.mem_singleton.1 hother
      exact ⟨field, hkey⟩
  · rw [List.map_append, List.map_singleton, List.nodup_append]
    refine ⟨h.fits.once, List.nodup_singleton _, ?_⟩
    intro key hmem key' hmem' heq
    obtain ⟨earlier, hearlier, rfl⟩ := List.mem_map.1 hmem
    cases List.mem_singleton.1 hmem'
    exact hnew earlier hearlier (heq.trans hkey)
  · intro other hother otherField hname
    rcases List.mem_append.1 hother with hother | hother
    · exact h.fits.suits other hother otherField hname
    · cases List.mem_singleton.1 hother
      cases Field.key_injective (hkey.symm.trans hname)
      exact hsuits
  · intro other value
    by_cases hother : other = field
    · subst hother
      rw [hfilled]
      constructor
      · intro heq
        cases heq
        exact ⟨m, by simp, hkey, rfl⟩
      · rintro ⟨found, hfound, hname, rfl⟩
        rcases List.mem_append.1 hfound with hfound | hfound
        · exact absurd hname (hnew found hfound)
        · rw [List.mem_singleton.1 hfound]
    · rw [hothers other hother, h.literal?_iff]
      constructor
      · rintro ⟨found, hfound, hrest⟩
        exact ⟨found, List.mem_append_left _ hfound, hrest⟩
      · rintro ⟨found, hfound, hname, hvalue⟩
        rcases List.mem_append.1 hfound with hfound | hfound
        · exact ⟨found, hfound, hname, hvalue⟩
        · cases List.mem_singleton.1 hfound
          exact absurd (Field.key_injective (hname.symm.trans hkey)) hother

/-- **All members** that are taken are gathered. -/
theorem Gathers.foldlM {draft last : Draft} {before members : List Member}
    (h : draft.Gathers before) (htake : members.foldlM Draft.take draft = .ok last) :
    last.Gathers (before ++ members) := by
  induction members generalizing draft before with
  | nil =>
    cases htake
    rwa [List.append_nil]
  | cons m rest ih =>
    rw [List.foldlM_cons] at htake
    cases hm : draft.take m with
    | error fault =>
      rw [hm] at htake
      cases htake
    | ok next =>
      rw [hm] at htake
      rw [List.append_cons]
      exact ih (h.take hm) htake

/-- Members that are accepted are all taken. -/
theorem Gathers.exists_foldlM {draft : Draft} {before members : List Member}
    (h : draft.Gathers before) (hfits : Fits (before ++ members)) :
    ∃ last, members.foldlM Draft.take draft = .ok last := by
  induction members generalizing draft before with
  | nil => exact ⟨draft, rfl⟩
  | cons m rest ih =>
    have hm : m ∈ before ++ m :: rest := by simp
    obtain ⟨field, hkey⟩ := hfits.known m hm
    have hopen : ¬draft.has field := by
      rw [h.has_iff]
      rintro ⟨earlier, hearlier, heq⟩
      have honce := hfits.once
      rw [List.map_append, List.map_cons, List.nodup_append] at honce
      exact honce.2.2 _ (List.mem_map_of_mem hearlier) _ List.mem_cons_self (heq.trans hkey.symm)
    obtain ⟨next, hfill⟩ := draft.exists_fill (hfits.suits m hm field hkey)
    have htake : draft.take m = .ok next := by
      rw [take_of_key hkey, if_neg hopen, hfill]
    rw [List.append_cons] at hfits
    rw [List.foldlM_cons, htake]
    exact ih (h.take htake) hfits

theorem gathers_of_foldlM {members : List Member} {last : Draft}
    (h : members.foldlM Draft.take {} = .ok last) : last.Gathers members :=
  gathers_nil.foldlM h

theorem exists_foldlM_of_fits {members : List Member} (h : Fits members) :
    ∃ last, members.foldlM Draft.take {} = .ok last :=
  gathers_nil.exists_foldlM h

theorem Gathers.carries {draft : Draft} {members : List Member} (h : draft.Gathers members) :
    Carries members draft.config where
  given := by
    intro m hm field hkey
    rw [literal_config, (h.literal?_iff field m.value).2 ⟨m, hm, hkey, rfl⟩]
    rfl
  default := by
    intro field hnone
    have hopen : draft.literal? field = none := by
      rw [Option.eq_none_iff_forall_ne_some]
      intro value hvalue
      obtain ⟨m, hm, hkey, -⟩ := (h.literal?_iff field value).1 hvalue
      exact hnone m hm hkey
    rw [literal_config, hopen]
    rfl

end Draft

end PluginBridge.Settings
