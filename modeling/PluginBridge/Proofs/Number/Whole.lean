import Mathlib.Algebra.Order.Field.Power
import Mathlib.Data.Nat.Log
import Mathlib.Data.Rat.Floor
import Mathlib.Tactic.Linarith
import PluginBridge.Number.Binary64

/-!
# Whole numbers as doubles

A natural number below 2^53 fits a significand, so nothing is lost when it is written as a double
and read as a word again: `toNat_toUInt64_ofNat`.
-/

namespace PluginBridge.Binary64

/-- A power with an exponent of either sign, as the library has it. -/
theorem powerOf_eq_zpow (base : Nat) (exponent : Int) :
    powerOf base exponent = (base : Rat) ^ exponent := by
  cases exponent with
  | ofNat n => simp [powerOf]
  | negSucc n => simp [powerOf, zpow_negSucc, Rat.mkRat_eq_div]

theorem toNat_floor_natCast (n : Nat) : (n : Rat).floor.toNat = n := by
  simp [Rat.floor]

/-- Rounding leaves a natural number as it is. -/
theorem roundToNat_natCast (tie : Tie) (n : Nat) : roundToNat tie n = n := by
  have hexcess : (n : Rat) - n ≠ mkRat 1 2 := by
    rw [sub_self]
    decide
  rw [roundToNat]
  simp only [toNat_floor_natCast, Tie.takesUpper, if_neg hexcess]
  simp

/-- The leading binary digit of a natural number. -/
theorem floorLog2_natCast {n : Nat} (h : n ≠ 0) : floorLog2 n = n.log2 := by
  have hle : powerOf 2 n.log2 ≤ (n : Rat) := by
    rw [powerOf_eq_zpow, zpow_natCast]
    exact_mod_cast Nat.log2_self_le h
  have hone : Nat.log2 1 = 0 := by decide
  simp [floorLog2, hone, hle]

/-- A number that fits a significand is the significand, with zeros behind it. -/
theorem ofNat_of_lt {n : Nat} (hne : n ≠ 0) (hlt : n < 2 ^ 53) :
    ofNat n = finite false (n * 2 ^ (52 - n.log2)) (-(52 - n.log2 : Nat)) := by
  have hlog : n.log2 ≤ 52 := Nat.lt_succ_iff.1 ((Nat.log2_lt hne).2 hlt)
  -- The exponent is that of the leading digit, less the 52 digits behind it.
  have hexponent : max minExponent (floorLog2 n - 52) = -((52 - n.log2 : Nat) : Int) := by
    rw [floorLog2_natCast hne, minExponent]
    omega
  -- What is rounded is whole already.
  have hscaled : (n : Rat) / powerOf 2 (-((52 - n.log2 : Nat) : Int)) =
      ((n * 2 ^ (52 - n.log2) : Nat) : Rat) := by
    rw [powerOf_eq_zpow, zpow_neg, zpow_natCast]
    push_cast
    rw [div_inv_eq_mul]
  have hbits : n * 2 ^ (52 - n.log2) < 2 ^ 53 := by
    calc n * 2 ^ (52 - n.log2) < 2 ^ (n.log2 + 1) * 2 ^ (52 - n.log2) :=
          Nat.mul_lt_mul_of_pos_right Nat.lt_log2_self (Nat.two_pow_pos _)
      _ = 2 ^ 53 := by rw [← Nat.pow_add]; congr 1; omega
  have hfits : ¬maxExponent < -((52 - n.log2 : Nat) : Int) := by
    rw [maxExponent]
    omega
  rw [ofNat, ofRat, if_neg (Nat.cast_ne_zero.2 hne)]
  simp only [hexponent, hscaled, roundToNat_natCast, Nat.pow_eq, if_neg hbits.ne, if_neg hfits]

/-- Rounding does not lose a number that is one or more. -/
theorem roundToNat_ne_zero {x : Rat} (tie : Tie) (h : 1 ≤ x) : roundToNat tie x ≠ 0 := by
  have hfloor : 1 ≤ x.floor := Rat.le_floor_iff.2 (by exact_mod_cast h)
  have hlow : x.floor.toNat ≠ 0 := by omega
  rw [roundToNat]
  split <;> omega

/-- A natural number that is not zero is no zero as a double, either. -/
theorem isZero_ofNat {n : Nat} (hne : n ≠ 0) : (ofNat n).isZero = false := by
  have hexponent : max minExponent (floorLog2 n - 52) = (n.log2 : Int) - 52 := by
    rw [floorLog2_natCast hne, minExponent]
    omega
  have hscaled : 1 ≤ (n : Rat) / powerOf 2 ((n.log2 : Int) - 52) := by
    rw [powerOf_eq_zpow, one_le_div (by positivity)]
    calc ((2 : Nat) : Rat) ^ ((n.log2 : Int) - 52) ≤ ((2 : Nat) : Rat) ^ (n.log2 : Int) :=
          zpow_le_zpow_right₀ (by norm_num) (by omega)
      _ = ((2 ^ n.log2 : Nat) : Rat) := by rw [zpow_natCast]; push_cast; rfl
      _ ≤ n := by exact_mod_cast Nat.log2_self_le hne
  rw [ofNat, ofRat, if_neg (Nat.cast_ne_zero.2 hne)]
  simp only [hexponent]
  have hrounded (significand : Nat) (exponent : Int) (h : significand ≠ 0) :
      (if maxExponent < exponent then infinite false
        else finite false significand exponent).isZero = false := by
    split
    · rfl
    · exact decide_eq_false h
  split
  · exact hrounded (Nat.pow 2 52) _ (by decide)
  · exact hrounded _ _ (roundToNat_ne_zero .toEven hscaled)

/-- **Small whole numbers are exact.**  Below 2^53 a number comes back from a double. -/
theorem toNat_toUInt64_ofNat {n : Nat} (h : n < 2 ^ 53) : (ofNat n).toUInt64.toNat = n := by
  by_cases hne : n = 0
  · subst hne
    simp [ofNat, ofRat, zero, toUInt64, Rat.floor]
  have hvalue : ((n * 2 ^ (52 - n.log2) : Nat) : Rat) * powerOf 2 (-((52 - n.log2 : Nat) : Int)) =
      n := by
    rw [powerOf_eq_zpow, zpow_neg, zpow_natCast]
    push_cast
    exact mul_inv_cancel_right₀ (by positivity) _
  have hword : n < UInt64.size := h.trans (by decide)
  rw [ofNat_of_lt hne h, toUInt64]
  simp only [hvalue, toNat_floor_natCast, dif_pos hword, UInt64.toNat_ofNatLT]

end PluginBridge.Binary64
