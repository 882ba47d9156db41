import PluginBridge.Proofs.Number.Whole
import PluginBridge.Proofs.Settings.Spacing
import PluginBridge.Settings.Basic

/-!
# Words and whole numbers as values

A value of a setting is written as a word or as the digits of a whole number.  Digits are read one
at a time, up to the last one with which their number fits a word; `wholeNumeral` says what that
comes to for a number of any size.

* `readNumeral_toDigits`: the digits of a whole number are read as `wholeNumeral` says; and
* `readQuota_eq` and `readBoolean_eq`: so every value is read or refused as it deserves.
-/

namespace PluginBridge.Settings

/-! ## Digits -/

/-- The number of some digits behind the digits of another number. -/
def valueAfter (value : Nat) (digits : List Char) : Nat :=
  digits.foldl (fun value c => value * 10 + (c.toNat - '0'.toNat)) value

theorem le_valueAfter (value : Nat) (digits : List Char) : value ≤ valueAfter value digits := by
  induction digits generalizing value with
  | nil => exact le_rfl
  | cons c rest ih => exact le_trans (by omega) (ih (value * 10 + (c.toNat - '0'.toNat)))

theorem digitChar_sub {n : Nat} (h : n < 10) : n.digitChar.toNat - '0'.toNat = n :=
  Nat.toNat_digitChar_sub_48_of_lt_ten h

/-- Digits stand for the number that they are the digits of. -/
theorem valueAfter_toDigits (n : Nat) : valueAfter 0 (Nat.toDigits 10 n) = n := by
  induction n using Nat.strongRecOn with
  | ind n ih =>
    by_cases h : n < 10
    · rw [Nat.toDigits_of_lt_base h]
      exact (Nat.zero_add _).trans (digitChar_sub h)
    · have hlast : n % 10 < 10 := Nat.mod_lt n (by decide)
      rw [Nat.toDigits_of_base_le (by decide) (by omega), valueAfter, List.foldl_append]
      show valueAfter 0 (Nat.toDigits 10 (n / 10)) * 10 + _ = n
      rw [ih (n / 10) (by omega), digitChar_sub hlast]
      omega

/-- Only zero has a leading zero. -/
theorem exists_toDigits_eq_cons (n : Nat) :
    ∃ c digits, Nat.toDigits 10 n = c :: digits ∧ c.isDigit ∧ (c = '0' → n = 0) := by
  induction n using Nat.strongRecOn with
  | ind n ih =>
    by_cases h : n < 10
    · exact ⟨n.digitChar, [], Nat.toDigits_of_lt_base h, by simp [h], by simp⟩
    · obtain ⟨c, digits, heq, hdigit, hzero⟩ := ih (n / 10) (by omega)
      refine ⟨c, digits ++ [(n % 10).digitChar], ?_, hdigit, fun hc => ?_⟩
      · rw [Nat.toDigits_of_base_le (by decide) (by omega), heq, List.cons_append]
      · have := hzero hc
        omega

/-! ## Gathering digits -/

/-- No digit follows, or none with which the number would stay within the limit. -/
def StopsGathering (limit value : Nat) (rest : List Char) : Prop :=
  ∀ c tail, rest = c :: tail → c.isDigit → limit < value * 10 + (c.toNat - '0'.toNat)

theorem gather_of_stops {limit value : Nat} {rest : List Char}
    (h : StopsGathering limit value rest) : gather limit value rest = ⟨value, 0, rest⟩ := by
  cases rest with
  | nil => rfl
  | cons c tail =>
    rw [gather]
    split
    · exact if_pos (h c tail rfl ‹_›)
    · rfl

/-- Digits are gathered up to where they stop. -/
theorem gather_append {limit value : Nat} {digits rest : List Char}
    (hdigits : ∀ c ∈ digits, c.isDigit) (hle : valueAfter value digits ≤ limit)
    (hrest : StopsGathering limit (valueAfter value digits) rest) :
    gather limit value (digits ++ rest) = ⟨valueAfter value digits, digits.length, rest⟩ := by
  induction digits generalizing value with
  | nil => exact gather_of_stops hrest
  | cons c digits ih =>
    obtain ⟨hc, hdigits⟩ := List.forall_mem_cons.1 hdigits
    have hnext : ¬limit < value * 10 + (c.toNat - '0'.toNat) :=
      Nat.not_lt.2 ((le_valueAfter _ digits).trans hle)
    rw [List.cons_append, gather, if_pos hc]
    simp only [if_neg hnext, ih hdigits hle hrest]
    rfl

/-- How many of the last digits of a number a word has no room for. -/
def digitsOver (n : Nat) : Nat :=
  if n ≤ maxWord then 0 else digitsOver (n / 10) + 1
termination_by n
decreasing_by omega

/-- The number of the leading digits that a word has room for. -/
def wordPart (n : Nat) : Nat :=
  n / 10 ^ digitsOver n

theorem wordPart_of_le {n : Nat} (h : n ≤ maxWord) : wordPart n = n := by
  rw [wordPart, digitsOver, if_pos h, Nat.pow_zero, Nat.div_one]

theorem wordPart_of_not_le {n : Nat} (h : ¬n ≤ maxWord) : wordPart n = wordPart (n / 10) := by
  rw [wordPart, digitsOver, if_neg h, wordPart, Nat.div_div_eq_div_mul, Nat.pow_succ']

theorem wordPart_le (n : Nat) : wordPart n ≤ maxWord := by
  induction n using digitsOver.induct with
  | case1 n hfits => rwa [wordPart_of_le hfits]
  | case2 n hlarge ih => rwa [wordPart_of_not_le hlarge]

theorem wordPart_ne_zero {n : Nat} (h : n ≠ 0) : wordPart n ≠ 0 := by
  induction n using digitsOver.induct with
  | case1 n hfits => rwa [wordPart_of_le hfits]
  | case2 n hlarge ih =>
    have hmax : 10 ≤ maxWord := by decide
    rw [wordPart_of_not_le hlarge]
    exact ih (by omega)

/-- The digits of a number: those that fit, and the others, of which the first does not fit. -/
theorem exists_surplus_digits (n : Nat) :
    ∃ surplus, Nat.toDigits 10 n = Nat.toDigits 10 (wordPart n) ++ surplus ∧
      surplus.length = digitsOver n ∧ (∀ c ∈ surplus, c.isDigit) ∧
      ∀ c tail, surplus = c :: tail → maxWord < wordPart n * 10 + (c.toNat - '0'.toNat) := by
  induction n using digitsOver.induct with
  | case1 n hfits =>
    rw [wordPart_of_le hfits, digitsOver, if_pos hfits]
    exact ⟨[], by simp, rfl, by simp, by simp⟩
  | case2 n hlarge ih =>
    obtain ⟨surplus, hdigits, hlength, hall, hnext⟩ := ih
    have hten : 10 ≤ n := by
      have : 10 ≤ maxWord := by decide
      omega
    have hlast : n % 10 < 10 := Nat.mod_lt n (by decide)
    rw [wordPart_of_not_le hlarge, digitsOver, if_neg hlarge]
    refine ⟨surplus ++ [(n % 10).digitChar], ?_, by simp [hlength], ?_, ?_⟩
    · rw [Nat.toDigits_of_base_le (by decide) hten, hdigits, List.append_assoc]
    · intro c hc
      rcases List.mem_append.1 hc with hc | hc
      · exact hall c hc
      · rw [List.mem_singleton.1 hc, Nat.isDigit_digitChar]
        exact decide_eq_true hlast
    · intro c tail heq
      cases surplus with
      | nil =>
        -- The last digit is the first that does not fit.
        cases heq
        rw [wordPart, ← hlength, List.length_nil, Nat.pow_zero, Nat.div_one, digitChar_sub hlast]
        omega
      | cons d rest =>
        cases heq
        exact hnext _ rest rfl

/-! ## Whole numbers -/

/-- What is read for a whole number with or without a minus: an integer if it fits, and otherwise
the double that keeps the leading digits that fit and a power of ten for the others. -/
def wholeNumeral (negative : Bool) (n : Nat) : Except Fault Numeral :=
  if n ≤ maxWord then
    .ok (if ¬negative then .natural n
      else if n = 0 ∨ maxNegative < n then .float (Binary64.ofNat n).neg else .negative n)
  else
    let x := (Binary64.ofNat (wordPart n)).timesTenTo (digitsOver n)
    if digitsOver n ≤ maxPower ∧ x.isInfinite = false then
      .ok (.float (if negative then x.neg else x))
    else .error .numberOutOfRange

/-- Reading comes to a result, and a fault is noticed before what is left. -/
def leaving {α : Type} (rest : List Char) (result : Except Fault α) :
    Except Failure (α × List Char) :=
  match result with
  | .ok value => .ok (value, rest)
  | .error fault => failAt fault rest

/-- What follows a whole number can be no part of it. -/
def EndsNumber (rest : List Char) : Prop :=
  ∀ c tail, rest = c :: tail → c.isDigit = false ∧ c ≠ '.' ∧ c ≠ 'e' ∧ c ≠ 'E'

theorem EndsNumber.startsWithDigit {rest : List Char} (h : EndsNumber rest) :
    startsWithDigit rest = false := by
  cases rest with
  | nil => rfl
  | cons c tail => exact (h c tail rfl).1

theorem EndsNumber.takeWhile {rest digits : List Char} (h : EndsNumber rest)
    (hdigits : ∀ c ∈ digits, c.isDigit) :
    (digits ++ rest).takeWhile Char.isDigit = digits := by
  rw [List.takeWhile_append_of_pos hdigits]
  cases rest with
  | nil => simp
  | cons c tail => rw [List.takeWhile_cons_of_neg (by simp [(h c tail rfl).1]), List.append_nil]

theorem EndsNumber.dropWhile {rest digits : List Char} (h : EndsNumber rest)
    (hdigits : ∀ c ∈ digits, c.isDigit) :
    (digits ++ rest).dropWhile Char.isDigit = rest := by
  rw [List.dropWhile_append_of_pos hdigits]
  cases rest with
  | nil => rfl
  | cons c tail => exact List.dropWhile_cons_of_neg (by simp [(h c tail rfl).1])

theorem EndsNumber.readAfterWhole {rest : List Char} (h : EndsNumber rest) {n : Nat}
    (hn : n ≤ maxWord) (negative : Bool) :
    readAfterWhole negative n rest = leaving rest (wholeNumeral negative n) := by
  rw [Settings.readAfterWhole.eq_4 negative n rest
    (fun tail heq => (h _ tail heq).2.1 rfl) (fun tail heq => (h _ tail heq).2.2.1 rfl)
    (fun tail heq => (h _ tail heq).2.2.2 rfl), wholeNumeral, if_pos hn]
  split
  · rfl
  · split <;> rfl

theorem EndsNumber.readFloatEnd {rest : List Char} (h : EndsNumber rest) (negative : Bool)
    (significand : Nat) (exponent : Int) :
    readFloatEnd negative significand exponent rest =
      readFloat negative significand exponent rest :=
  Settings.readFloatEnd.eq_3 negative significand exponent rest
    (fun tail heq => (h _ tail heq).2.2.1 rfl) (fun tail heq => (h _ tail heq).2.2.2 rfl)

theorem readFloat_wordPart {n : Nat} (hn : maxWord < n) (negative : Bool) (rest : List Char) :
    readFloat negative (wordPart n) (digitsOver n) rest =
      leaving rest (wholeNumeral negative n) := by
  have hne : wordPart n ≠ 0 := wordPart_ne_zero (Nat.ne_zero_of_lt hn)
  rw [wholeNumeral, if_neg (Nat.not_le.2 hn)]
  show (if digitsOver n ≤ maxPower then _ else _) = _
  simp only [Binary64.isZero_ofNat hne]
  by_cases hpower : digitsOver n ≤ maxPower
  · cases ((Binary64.ofNat (wordPart n)).timesTenTo (digitsOver n)).isInfinite <;>
      simp [hpower, leaving]
  · simp [hpower, leaving]

/-- The digits that fit are gathered; the others and what follows them are left. -/
theorem EndsNumber.gather_toDigits {rest : List Char} (h : EndsNumber rest) (n : Nat) :
    ∃ count surplus, gather maxWord 0 (Nat.toDigits 10 n ++ rest) =
        ⟨wordPart n, count, surplus ++ rest⟩ ∧
      surplus.length = digitsOver n ∧ ∀ c ∈ surplus, c.isDigit := by
  obtain ⟨surplus, hdigits, hlength, hall, hnext⟩ := exists_surplus_digits n
  have hstops : StopsGathering maxWord (wordPart n) (surplus ++ rest) := by
    intro d tail htail hd
    cases surplus with
    | nil =>
      rw [(h d tail htail).1] at hd
      cases hd
    | cons e surplus =>
      cases htail
      exact hnext _ surplus rfl
  have hvalue := valueAfter_toDigits (wordPart n)
  refine ⟨(Nat.toDigits 10 (wordPart n)).length, surplus, ?_, hlength, hall⟩
  rw [hdigits, List.append_assoc, gather_append
    (fun d hd => Nat.isDigit_of_mem_toDigits (by decide) (by decide) hd)
    (by rw [hvalue]; exact wordPart_le n) (by rwa [hvalue]), hvalue]

/-- **The digits of a whole number** are read as what the number comes to. -/
theorem readNumeral_toDigits (negative : Bool) (n : Nat) {rest : List Char}
    (hrest : EndsNumber rest) :
    readNumeral negative (Nat.toDigits 10 n ++ rest) =
      leaving rest (wholeNumeral negative n) := by
  by_cases hn : n = 0
  · subst hn
    rw [Nat.toDigits_zero]
    show (if startsWithDigit rest then _ else _) = _
    rw [hrest.startsWithDigit]
    exact hrest.readAfterWhole (Nat.zero_le _) negative
  obtain ⟨c, digits, heq, hdigit, hzero⟩ := exists_toDigits_eq_cons n
  obtain ⟨count, surplus, hgather, hlength, hall⟩ := hrest.gather_toDigits n
  rw [heq, List.cons_append] at hgather ⊢
  rw [readNumeral.eq_3 negative _ (by simp) (fun _ h => hn (hzero (List.cons.inj h).1)),
    if_pos (show startsWithDigit (c :: (digits ++ rest)) = true from hdigit), hgather]
  cases surplus with
  | nil =>
    have hword : wordPart n = n := by
      rw [wordPart, ← hlength, List.length_nil, Nat.pow_zero, Nat.div_one]
    rw [hword, List.nil_append]
    simp only [hrest.startsWithDigit]
    exact hrest.readAfterWhole (hword ▸ wordPart_le n) negative
  | cons d surplus =>
    have hlarge : maxWord < n := by
      by_contra h
      rw [digitsOver, if_pos (Nat.not_lt.1 h)] at hlength
      cases hlength
    have hd : startsWithDigit (d :: surplus ++ rest) = true := hall d List.mem_cons_self
    simp only [hd, if_true, hrest.takeWhile hall, hrest.dropWhile hall, hlength]
    split
    · exact absurd rfl (hrest _ _ rfl).2.1
    · rw [hrest.readFloatEnd]
      exact readFloat_wordPart hlarge negative rest

/-! ## Values -/

/-- A value that is written as a word or as a whole number. -/
inductive Literal where
  | boolean (value : Bool)
  | integer (negative : Bool) (magnitude : Nat)
  deriving DecidableEq

namespace Literal

/-- How a value is written: a number with its decimal digits, none of them a needless zero. -/
def text : Literal → List Char
  | boolean true => ['t', 'r', 'u', 'e']
  | boolean false => ['f', 'a', 'l', 's', 'e']
  | integer true n => '-' :: Nat.toDigits 10 n
  | integer false n => Nat.toDigits 10 n

/-- A value as a quota, or the fault of it as one. -/
def quota : Literal → Except Fault UInt64
  | boolean value => .error (.wrongType (.boolean value) .quota)
  | integer negative n => (wholeNumeral negative n).bind fun
    | .natural value => .ok (UInt64.ofNat value)
    | .negative distance => .error (.wrongValue (-distance) .quota)
    | .float value => .error (.wrongType (.float value) .quota)

/-- A value as a boolean, or the fault of it as one. -/
def traced : Literal → Except Fault Bool
  | boolean value => .ok value
  | integer negative n => (wholeNumeral negative n).bind fun numeral =>
    .error (.wrongType numeral.found .boolean)

end Literal

theorem isBlank_of_isDigit {c : Char} (h : c.isDigit) : isBlank c = false := by
  by_contra hblank
  simp only [isBlank, Bool.not_eq_false, Bool.or_eq_true, decide_eq_true_eq] at hblank
  rcases hblank with ((rfl | rfl) | rfl) | rfl <;> exact absurd h (by decide)

theorem Literal.exists_text_eq_cons (value : Literal) :
    ∃ c rest, value.text = c :: rest ∧ isBlank c = false ∧ c ≠ ']' := by
  rcases value with (_ | _) | ⟨(_ | _), n⟩
  · exact ⟨'f', _, rfl, rfl, by decide⟩
  · exact ⟨'t', _, rfl, rfl, by decide⟩
  · obtain ⟨c, digits, heq, hdigit, -⟩ := exists_toDigits_eq_cons n
    refine ⟨c, digits, heq, isBlank_of_isDigit hdigit, ?_⟩
    rintro rfl
    cases hdigit
  · exact ⟨'-', _, rfl, rfl, by decide⟩

theorem Literal.startsPart_text (value : Literal) : StartsPart value.text := by
  obtain ⟨c, rest, heq, hblank, -⟩ := value.exists_text_eq_cons
  exact ⟨c, rest, heq, hblank⟩

/-- What begins with a digit is refused as a number. -/
theorem refuse_of_isDigit {α : Type} (expected : Expected) {c : Char} (rest : List Char)
    (h : c.isDigit) :
    (refuse expected (c :: rest) : Except Failure α) =
      (readNumeral false (c :: rest)).bind fun read =>
        failAt (.wrongType read.1.found expected) read.2 := by
  unfold refuse
  split <;> first | exact if_pos h | simp_all

/-- **A value is read as a quota**, or refused with its own fault. -/
theorem readQuota_eq {value : Literal} {text rest : List Char}
    (h : skipBlanks text = value.text ++ rest) (hrest : EndsNumber rest) :
    readQuota text = leaving rest value.quota := by
  rw [readQuota, h]
  rcases value with (_ | _) | ⟨(_ | _), n⟩
  · rfl
  · rfl
  · obtain ⟨c, digits, heq, hdigit, -⟩ := exists_toDigits_eq_cons n
    have hread := readNumeral_toDigits false n hrest
    rw [heq, List.cons_append] at hread
    rw [Literal.text, heq, List.cons_append]
    split
    · cases ‹_ = []›
    · rename_i hminus
      cases hminus
      cases hdigit
    · rw [if_pos (show startsWithDigit (c :: (digits ++ rest)) = true from hdigit), hread,
        Literal.quota]
      rcases wholeNumeral false n with fault | (value | distance | value) <;> rfl
  · show ((readNumeral true (Nat.toDigits 10 n ++ rest)).bind fun read => _) = _
    rw [readNumeral_toDigits true n hrest, Literal.quota]
    rcases wholeNumeral true n with fault | (value | distance | value) <;> rfl

/-- **A value is read as a boolean**, or refused with its own fault. -/
theorem readBoolean_eq {value : Literal} {text rest : List Char}
    (h : skipBlanks text = value.text ++ rest) (hrest : EndsNumber rest) :
    readBoolean text = leaving rest value.traced := by
  rw [readBoolean, h]
  rcases value with (_ | _) | ⟨(_ | _), n⟩
  · rfl
  · rfl
  · obtain ⟨c, digits, heq, hdigit, -⟩ := exists_toDigits_eq_cons n
    have hread := readNumeral_toDigits false n hrest
    rw [heq, List.cons_append] at hread
    rw [Literal.text, heq, List.cons_append]
    split
    · cases ‹_ = []›
    · rename_i hword
      cases hword
      cases hdigit
    · rename_i hword
      cases hword
      cases hdigit
    · rw [refuse_of_isDigit _ _ hdigit, hread, Literal.traced]
      cases wholeNumeral false n <;> rfl
  · show ((readNumeral true (Nat.toDigits 10 n ++ rest)).bind fun read => _) = _
    rw [readNumeral_toDigits true n hrest, Literal.traced]
    cases wholeNumeral true n <;> rfl

/-! ## Values that are accepted -/

/-- Only an unsigned number that fits a word is read as a natural one. -/
theorem wholeNumeral_eq_natural_iff {negative : Bool} {n value : Nat} :
    wholeNumeral negative n = .ok (.natural value) ↔
      n ≤ maxWord ∧ negative = false ∧ n = value := by
  by_cases hn : n ≤ maxWord
  · rw [wholeNumeral, if_pos hn]
    cases negative
    · simp [hn]
    · simp only [not_true_eq_false, if_false]
      split <;> simp
  · rw [wholeNumeral, if_neg hn]
    simp only [hn, false_and, iff_false]
    intro h
    split at h <;> cases h

theorem Literal.quota_eq_ok_iff {value : Literal} {quota : UInt64} :
    value.quota = .ok quota ↔ value = .integer false quota.toNat := by
  constructor
  · intro h
    rcases value with traced | ⟨negative, n⟩
    · cases h
    rw [Literal.quota] at h
    rcases hnumeral : wholeNumeral negative n with fault | (v | distance | x) <;>
      rw [hnumeral] at h <;> cases h
    obtain ⟨hn, rfl, rfl⟩ := wholeNumeral_eq_natural_iff.1 hnumeral
    rw [UInt64.toNat_ofNat_of_lt' (Nat.lt_of_le_of_lt hn (by decide))]
  · rintro rfl
    have hword : quota.toNat ≤ maxWord := Nat.le_pred_of_lt quota.toNat_lt
    rw [Literal.quota, wholeNumeral_eq_natural_iff.2 ⟨hword, rfl, rfl⟩]
    exact congrArg Except.ok UInt64.ofNat_toNat

theorem Literal.traced_eq_ok_iff {value : Literal} {traced : Bool} :
    value.traced = .ok traced ↔ value = .boolean traced := by
  rcases value with b | ⟨negative, n⟩
  · simp [Literal.traced]
  · cases hnumeral : wholeNumeral negative n <;> simp [Literal.traced, hnumeral, Except.bind]

end PluginBridge.Settings
