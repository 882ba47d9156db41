/-!
# Double-precision numbers

A double is not a number, an infinity, or a sign with a significand below 2^53 and a power of two.
Every operation here goes through exact rationals: `ofRat` is the one place where a value is
rounded, to the nearest double and half way to the even significand.
-/

namespace PluginBridge

/-- A double-precision binary number. -/
inductive Binary64 where
  | nan
  | infinite (negative : Bool)
  /-- The number `significand · 2^exponent` with a sign.  Zero has a sign, too. -/
  | finite (negative : Bool) (significand : Nat) (exponent : Int)
  deriving DecidableEq, Repr, Inhabited

namespace Binary64

/-! ## Exact arithmetic -/

/-- A power with an exponent of either sign. -/
def powerOf (base : Nat) : Int → Rat
  | .ofNat n => (Nat.pow base n : Rat)
  | .negSucc n => mkRat 1 (Nat.pow base (n + 1))

/-- The exponent of the greatest power of two that is not above a positive number. -/
def floorLog2 (x : Rat) : Int :=
  let estimate : Int := (x.num.natAbs.log2 : Int) - x.den.log2
  if powerOf 2 estimate ≤ x then estimate else estimate - 1

/-- Which way a value goes that lies half way between two candidates. -/
inductive Tie where
  | toEven
  | up
  deriving DecidableEq, Repr

/-- Is the upper of two neighbours to be taken?  `low` is the lower one and `excess` the part of the
distance to the upper one that lies below the value. -/
def Tie.takesUpper (tie : Tie) (low : Nat) (excess : Rat) : Bool :=
  if excess = mkRat 1 2 then tie = .up || low % 2 = 1 else mkRat 1 2 < excess

/-- The nearest integer of a number that is not negative. -/
def roundToNat (tie : Tie) (x : Rat) : Nat :=
  let low := x.floor.toNat
  if tie.takesUpper low (x - low) then low + 1 else low

/-! ## Rounding to a double -/

/-- The least exponent: that of the subnormal numbers. -/
def minExponent : Int := -1074

/-- The greatest exponent. -/
def maxExponent : Int := 971

/-- Zero, with its sign. -/
def zero (negative : Bool) : Binary64 := finite negative 0 minExponent

/-- The double nearest to a number that is not negative, with a sign.  The significand has 53 bits
unless the number is subnormal; one that rounds up to 54 bits moves to the next exponent. -/
def ofRat (negative : Bool) (x : Rat) : Binary64 :=
  if x = 0 then zero negative
  else
    let exponent := max minExponent (floorLog2 x - 52)
    let significand := roundToNat .toEven (x / powerOf 2 exponent)
    let (significand, exponent) :=
      if significand = Nat.pow 2 53 then (Nat.pow 2 52, exponent + 1) else (significand, exponent)
    if maxExponent < exponent then infinite negative else finite negative significand exponent

/-- The double nearest to a natural number. -/
def ofNat (n : Nat) : Binary64 := ofRat false n

/-- The double nearest to `mantissa · 10^exponent`. -/
def ofDecimal (negative : Bool) (mantissa : Nat) (exponent : Int) : Binary64 :=
  ofRat negative (mantissa * powerOf 10 exponent)

/-! ## Values -/

/-- The distance from zero, if it is finite. -/
def magnitude? : Binary64 → Option Rat
  | finite _ significand exponent => some (significand * powerOf 2 exponent)
  | _ => none

/-- Is it zero, of either sign? -/
def isZero : Binary64 → Bool
  | finite _ significand _ => significand = 0
  | _ => false

/-- Is it an infinity? -/
def isInfinite : Binary64 → Bool
  | infinite _ => true
  | _ => false

/-- The number with the other sign. -/
def neg : Binary64 → Binary64
  | nan => nan
  | infinite negative => infinite !negative
  | finite negative significand exponent => finite (!negative) significand exponent

/-- The value of a finite number. -/
def value? : Binary64 → Option Rat
  | finite negative significand exponent =>
    let magnitude : Rat := significand * powerOf 2 exponent
    some (if negative then -magnitude else magnitude)
  | _ => none

/-- The integer that a number is, if it is one.  Both zeros are. -/
def toInt? (x : Binary64) : Option Int :=
  x.value?.bind fun value => if value.den = 1 then some value.num else none

/-- Numeric order.  Nothing is below or above what is not a number. -/
def lt : Binary64 → Binary64 → Bool
  | nan, _ | _, nan => false
  | infinite true, infinite negative => !negative
  | infinite true, finite .. => true
  | infinite false, _ => false
  | finite .., infinite negative => !negative
  | a@(finite ..), b@(finite ..) =>
    match a.value?, b.value? with
    | some x, some y => x < y
    | _, _ => false

/-- The whole part as a 64-bit word.  What is below zero or no number gives zero, and what is too
large gives the greatest word. -/
def toUInt64 : Binary64 → UInt64
  | nan | infinite true => 0
  | infinite false => 0xffffffffffffffff
  | finite true _ _ => 0
  | finite false significand exponent =>
    let whole := ((significand : Rat) * powerOf 2 exponent).floor.toNat
    if h : whole < UInt64.size then UInt64.ofNatLT whole h else 0xffffffffffffffff

/-! ## Scaling by powers of ten -/

/-- The product of a finite number and the double nearest to `10^k`, rounded once. -/
def timesTenTo (x : Binary64) (k : Nat) : Binary64 :=
  match x, (ofDecimal false 1 k).magnitude? with
  | finite negative significand exponent, some scale =>
    ofRat negative (significand * powerOf 2 exponent * scale)
  | x, _ => x

/-- The quotient of a finite number by the double nearest to `10^k`, rounded once. -/
def overTenTo (x : Binary64) (k : Nat) : Binary64 :=
  match x, (ofDecimal false 1 k).magnitude? with
  | finite negative significand exponent, some scale =>
    ofRat negative (significand * powerOf 2 exponent / scale)
  | x, _ => x

end Binary64

end PluginBridge
