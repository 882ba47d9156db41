import PluginBridge.Settings.Fault

/-!
# Numbers in a configuration text

A whole number that fits a 64-bit word, or the negative of one that fits a signed word, stays an
integer; every other number is a double.

The digits of a double are gathered into one 64-bit word.  Once a digit would not fit, further
digits before the point only raise the exponent, and further digits after it are passed over.  The
double is the nearest to that word, multiplied or divided by a power of ten in one more step.
-/

namespace PluginBridge.Settings

/-- A number that was read. -/
inductive Numeral where
  | natural (value : Nat)
  /-- A negative whole number, by its distance from zero. -/
  | negative (distance : Nat)
  | float (value : Binary64)
  deriving DecidableEq, Repr

/-- A number as the value that was found. -/
def Numeral.found : Numeral → Found
  | natural value => .integer value
  | negative distance => .integer (-distance)
  | float value => .float value

/-- The greatest unsigned word. -/
def maxWord : Nat := Nat.pow 2 64 - 1

/-- The greatest distance from zero of a signed word. -/
def maxNegative : Nat := Nat.pow 2 63

/-- The greatest decimal exponent that is read. -/
def maxExponent : Nat := Nat.pow 2 31 - 1

/-- The greatest power of ten that is a double. -/
def maxPower : Nat := 308

/-- Digits that are gathered into one number. -/
structure Gathered where
  value : Nat
  /-- How many digits were taken. -/
  count : Nat
  rest : List Char

/-- Gathers digits after `value`, up to the first one with which it would pass `limit`. -/
def gather (limit value : Nat) : List Char → Gathered
  | [] => ⟨value, 0, []⟩
  | c :: rest =>
    if c.isDigit then
      let next := value * 10 + (c.toNat - '0'.toNat)
      if limit < next then ⟨value, 0, c :: rest⟩
      else
        let gathered := gather limit next rest
        { gathered with count := gathered.count + 1 }
    else ⟨value, 0, c :: rest⟩

/-- Does a text begin with a digit? -/
def startsWithDigit (text : List Char) : Bool :=
  text.head?.any Char.isDigit

/-- Divides by `10^k`, by the greatest power of ten at a time; zero stays zero. -/
def overPower (x : Binary64) (k : Nat) : Binary64 :=
  if k ≤ maxPower then x.overTenTo k
  else if x.isZero then x
  else overPower (x.overTenTo maxPower) (k - maxPower)
termination_by k
decreasing_by simp_all [maxPower]; omega

/-- The double `significand · 10^exponent`. -/
def readFloat (negative : Bool) (significand : Nat) (exponent : Int) (rest : List Char) :
    Except Failure (Numeral × List Char) :=
  let signed (x : Binary64) : Numeral := .float (if negative then x.neg else x)
  let x := Binary64.ofNat significand
  match exponent with
  | .ofNat k =>
    if k ≤ maxPower then
      let x := x.timesTenTo k
      if x.isInfinite then failAt .numberOutOfRange rest else .ok (signed x, rest)
    else if x.isZero then .ok (signed x, rest)
    else failAt .numberOutOfRange rest
  | .negSucc k => .ok (signed (overPower x (k + 1)), rest)

/-- Reads an exponent after its `e`.  One that is too large for a word makes the number zero, unless
it is positive and the number is not zero. -/
def readExponent (negative : Bool) (significand : Nat) (exponent : Int) (text : List Char) :
    Except Failure (Numeral × List Char) :=
  let (negativeExponent, text) := match text with
    | '+' :: rest => (false, rest)
    | '-' :: rest => (true, rest)
    | text => (false, text)
  if text = [] then failAt .endInValue []
  else if startsWithDigit text then
    let gathered := gather maxExponent 0 text
    if startsWithDigit gathered.rest then
      if significand ≠ 0 ∧ ¬negativeExponent then failAt .numberOutOfRange gathered.rest.tail
      else
        let zero := Binary64.zero negative
        .ok (.float zero, gathered.rest.dropWhile Char.isDigit)
    else
      let shift : Int := if negativeExponent then -gathered.value else gathered.value
      readFloat negative significand (exponent + shift) gathered.rest
  else failOn .invalidNumber text

/-- Reads what may follow the digits of a double: an exponent. -/
def readFloatEnd (negative : Bool) (significand : Nat) (exponent : Int) (text : List Char) :
    Except Failure (Numeral × List Char) :=
  match text with
  | 'e' :: rest | 'E' :: rest => readExponent negative significand exponent rest
  | rest => readFloat negative significand exponent rest

/-- Reads the digits after a point. -/
def readFraction (negative : Bool) (significand : Nat) (exponent : Int) (text : List Char) :
    Except Failure (Numeral × List Char) :=
  let gathered := gather maxWord significand text
  if gathered.count = 0 ∧ ¬startsWithDigit gathered.rest then
    failOn (if gathered.rest = [] then .endInValue else .invalidNumber) gathered.rest
  else
    readFloatEnd negative gathered.value (exponent - gathered.count)
      (gathered.rest.dropWhile Char.isDigit)

/-- Reads what follows the whole part of a number whose digits all fit. -/
def readAfterWhole (negative : Bool) (significand : Nat) (text : List Char) :
    Except Failure (Numeral × List Char) :=
  match text with
  | '.' :: rest => readFraction negative significand 0 rest
  | 'e' :: rest | 'E' :: rest => readExponent negative significand 0 rest
  | rest =>
    if ¬negative then .ok (.natural significand, rest)
    else if significand = 0 ∨ maxNegative < significand then
      .ok (.float (Binary64.ofNat significand).neg, rest)
    else .ok (.negative significand, rest)

/-- Reads a number after its sign.  A zero that begins a number is its whole part. -/
def readNumeral (negative : Bool) (text : List Char) : Except Failure (Numeral × List Char) :=
  match text with
  | [] => failAt .endInValue []
  | '0' :: rest =>
    if startsWithDigit rest then failOn .invalidNumber rest else readAfterWhole negative 0 rest
  | text =>
    if startsWithDigit text then
      let gathered := gather maxWord 0 text
      if startsWithDigit gathered.rest then
        let skipped := gathered.rest.takeWhile Char.isDigit
        let rest := gathered.rest.dropWhile Char.isDigit
        match rest with
        | '.' :: rest => readFraction negative gathered.value skipped.length rest
        | rest => readFloatEnd negative gathered.value skipped.length rest
      else readAfterWhole negative gathered.value gathered.rest
    else failOn .invalidNumber text

end PluginBridge.Settings
