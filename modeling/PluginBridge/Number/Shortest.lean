import PluginBridge.Number.Binary64

/-!
# The fewest digits that read back

Reading a decimal gives the nearest double, so a double stands for an interval of reals: those that
are nearer to it than to its neighbours.  `Digits.shortest` finds the decimal with the fewest
digits in that interval, and of several the one nearest to the double itself.  It looks at grids of
1, 2, … digits; on each grid only the two neighbours of the value can be nearest.
-/

namespace PluginBridge

/-- The decimal `d₁.d₂d₃… · 10^exponent`. -/
structure Digits where
  digits : List Char
  exponent : Int
  deriving DecidableEq, Repr

namespace Digits

open Binary64

/-- The decimal digits of a natural number. -/
def ofNat (n : Nat) : List Char := Nat.toDigits 10 n

/-- The exponent of the greatest power of ten that is not above a positive number. -/
def floorLog10 (x : Rat) : Int :=
  if 1 ≤ x then ((ofNat x.floor.toNat).length : Int) - 1
  else -((ofNat ((x.den - 1) / x.num.natAbs)).length : Int)

/-- The reals that a double stands for. -/
structure Interval where
  low : Rat
  high : Rat
  /-- Do the ends belong to it? -/
  closed : Bool

/-- Does a number lie in the interval? -/
def Interval.holds (interval : Interval) (x : Rat) : Bool :=
  if interval.closed then interval.low ≤ x && x ≤ interval.high
  else interval.low < x && x < interval.high

/-- The interval of `significand · 2^exponent`.  It reaches half way to the neighbours; below a
power of two the neighbour is only half as far.  Ties round to even, so the ends belong to an even
significand. -/
def interval (significand : Nat) (exponent : Int) : Interval :=
  let unit := powerOf 2 exponent
  let x : Rat := significand * unit
  let below := if significand = Nat.pow 2 52 ∧ minExponent < exponent then unit / 4 else unit / 2
  { low := x - below, high := x + unit / 2, closed := significand % 2 = 0 }

/-- The point of the grid of `count` digits that lies in the interval, the nearer one of two. -/
def onGrid (tie : Tie) (within : Interval) (x : Rat) (exponent : Int) (count : Nat) :
    Option Digits :=
  let unit := powerOf 10 (exponent + 1 - count)
  let low := (x / unit).floor.toNat
  let point (n : Nat) : Digits :=
    -- one more digit than asked for is a power of ten
    if n = Nat.pow 10 count then ⟨['1'], exponent + 1⟩ else ⟨ofNat n, exponent⟩
  match within.holds (low * unit), within.holds ((low + 1 : Nat) * unit) with
  | true, true =>
    some (point (if tie.takesUpper low (x / unit - low) then low + 1 else low))
  | true, false => some (point low)
  | false, true => some (point (low + 1))
  | false, false => none

/-- The first of the grids with a point in the interval.  Seventeen digits tell any two doubles
apart. -/
def shortest (tie : Tie) (significand : Nat) (exponent : Int) : Digits :=
  let x : Rat := significand * powerOf 2 exponent
  let decimal := floorLog10 x
  ((List.range' 1 17).findSome? (onGrid tie (interval significand exponent) x decimal)).getD
    ⟨['0'], 0⟩

end Digits

end PluginBridge
