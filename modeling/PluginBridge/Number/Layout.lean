import PluginBridge.Number.Shortest

/-!
# How numbers are written

A number text shows the shortest digits, positionally or with a power of ten.  A `NumberLayout`
holds the choices; `plain` and `pointed` are the two that are used.
-/

namespace PluginBridge

/-- The choices of a number text. -/
structure NumberLayout where
  /-- Is a decimal exponent written out with zeros? -/
  positional : Int → Bool
  /-- Does a whole number end in `.0`? -/
  keepsFraction : Bool
  /-- The decimal taken when two are equally near. -/
  tie : Binary64.Tie

namespace NumberLayout

/-- Every number with all its zeros, whole ones without a point. -/
def plain : NumberLayout := ⟨fun _ => true, false, .up⟩

/-- Exponents from −5 to 15 positionally with at least one decimal, others with a power of ten. -/
def pointed : NumberLayout := ⟨fun exponent => -5 ≤ exponent && exponent ≤ 15, true, .toEven⟩

/-- Digits with a point after the place of `exponent`. -/
def writePositional (keepsFraction : Bool) (digits : List Char) (exponent : Int) : List Char :=
  if exponent < 0 then
    ['0', '.'] ++ List.replicate (-exponent - 1).toNat '0' ++ digits
  else
    let whole := digits.take (exponent.toNat + 1)
    let zeros := List.replicate (exponent.toNat + 1 - digits.length) '0'
    match digits.drop (exponent.toNat + 1) with
    | [] => whole ++ zeros ++ (if keepsFraction then ['.', '0'] else [])
    | fraction => whole ++ '.' :: fraction

/-- One digit before the point, and the power of ten with its sign. -/
def writeScientific (digits : List Char) (exponent : Int) : List Char :=
  let fraction := match digits.drop 1 with
    | [] => []
    | rest => '.' :: rest
  let sign := if exponent < 0 then '-' else '+'
  digits.take 1 ++ fraction ++ 'e' :: sign :: Digits.ofNat exponent.natAbs

/-- The text of a number. -/
def write (layout : NumberLayout) : Binary64 → String
  | .nan => "NaN"
  | .infinite negative => if negative then "-inf" else "inf"
  | .finite negative significand exponent =>
    let digits :=
      if significand = 0 then ⟨['0'], 0⟩ else Digits.shortest layout.tie significand exponent
    String.ofList <|
      (if negative then ['-'] else []) ++
      if layout.positional digits.exponent then
        writePositional layout.keepsFraction digits.digits digits.exponent
      else writeScientific digits.digits digits.exponent

end NumberLayout

end PluginBridge
