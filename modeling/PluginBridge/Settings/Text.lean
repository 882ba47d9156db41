import PluginBridge.Settings.Fault

/-!
# Texts in a configuration text

A text stands between double quotes.  A backslash begins an escape: one character that names
another, or `u` and the four hexadecimal digits of a 16-bit unit.  A character beyond 16 bits takes
two such escapes, the halves of a surrogate pair.
-/

namespace PluginBridge.Settings

/-- The value of a hexadecimal digit. -/
def hexValue? (c : Char) : Option Nat :=
  if '0' ≤ c ∧ c ≤ '9' then some (c.toNat - '0'.toNat)
  else if 'a' ≤ c ∧ c ≤ 'f' then some (c.toNat - 'a'.toNat + 10)
  else if 'A' ≤ c ∧ c ≤ 'F' then some (c.toNat - 'A'.toNat + 10)
  else none

/-- Reads the four digits of a unit.  The next four bytes are taken for its digits, whatever
characters they belong to. -/
def readUnit (text : List Char) : Except Failure Nat :=
  if byteCount text < 4 then .error ⟨.endInText, 0⟩
  else
    let digits := (text.take 4).mapM hexValue?
    match digits with
    | some digits =>
      if digits.length = 4 then .ok (digits.foldl (fun unit digit => unit * 16 + digit) 0)
      else .error ⟨.invalidEscape, byteCount text - 4⟩
    | none => .error ⟨.invalidEscape, byteCount text - 4⟩

/-- Is a unit the first half of a surrogate pair? -/
def isHighSurrogate (unit : Nat) : Bool := 0xD800 ≤ unit && unit ≤ 0xDBFF

/-- Is a unit the second half of a surrogate pair? -/
def isLowSurrogate (unit : Nat) : Bool := 0xDC00 ≤ unit && unit ≤ 0xDFFF

/-- Takes one needed character. -/
def readNeeded (c : Char) : List Char → Except Failure (List Char)
  | [] => failAt .endInText []
  | d :: rest => if d = c then .ok rest else failOn .surrogateUnfinished (d :: rest)

/-- Reads a character after `\u`, and says how many characters of the text it takes. -/
def readUnicode (text : List Char) : Except Failure (Char × Nat) := do
  let unit ← readUnit text
  let rest := text.drop 4
  if isLowSurrogate unit then failAt .loneSurrogate rest
  else if isHighSurrogate unit then
    let rest ← readNeeded '\\' rest
    let rest ← readNeeded 'u' rest
    let second ← readUnit rest
    if isLowSurrogate second then
      return (Char.ofNat ((unit - 0xD800) * 0x400 + (second - 0xDC00) + 0x10000), 10)
    else failAt .loneSurrogate (rest.drop 4)
  else return (Char.ofNat unit, 4)

/-- Reads an escape after its backslash, and says how many characters of the text it takes. -/
def readEscape : List Char → Except Failure (Char × Nat)
  | [] => failAt .endInText []
  | '"' :: _ => .ok ('"', 1)
  | '\\' :: _ => .ok ('\\', 1)
  | '/' :: _ => .ok ('/', 1)
  | 'b' :: _ => .ok ('\x08', 1)
  | 'f' :: _ => .ok ('\x0c', 1)
  | 'n' :: _ => .ok ('\n', 1)
  | 'r' :: _ => .ok ('\r', 1)
  | 't' :: _ => .ok ('\t', 1)
  | 'u' :: rest => (readUnicode rest).map fun read => (read.1, read.2 + 1)
  | text => failOn .invalidEscape text

/-- Reads a text after its opening quote, up to and with the closing one. -/
def readText (text : List Char) : Except Failure (List Char × List Char) :=
  match text with
  | [] => failAt .endInText []
  | '"' :: rest => .ok ([], rest)
  | '\\' :: rest =>
    match readEscape rest with
    | .error failure => .error failure
    | .ok (c, taken) => (readText (rest.drop taken)).map fun read => (c :: read.1, read.2)
  | c :: rest =>
    if c.toNat < 0x20 then failOn .controlCharacter (c :: rest)
    else (readText rest).map fun read => (c :: read.1, read.2)
termination_by text.length

end PluginBridge.Settings
