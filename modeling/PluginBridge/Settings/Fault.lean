import PluginBridge.Number.Layout
import PluginBridge.Text.Quoted

/-!
# What is wrong with a configuration text

A configuration that cannot be read is refused with one fault and the place where it was noticed.
While a text is read, a place is the number of bytes that are still left of it; `Place.ofLeft`
turns that into a line and a column, which counts bytes.
-/

namespace PluginBridge.Settings

/-- The two settings. -/
inductive Field where
  | quota
  | traced
  deriving DecidableEq, Repr, Inhabited

/-- The key of a setting. -/
def Field.key : Field → String
  | quota => "quota_bytes"
  | traced => "trace_rpc"

/-- The setting of a key. -/
def Field.ofKey? (key : String) : Option Field :=
  if key = "quota_bytes" then some quota
  else if key = "trace_rpc" then some traced
  else none

/-- What a value turned out to be. -/
inductive Found where
  | null
  | boolean (value : Bool)
  | integer (value : Int)
  | float (value : Binary64)
  | text (value : String)
  | sequence
  | map
  deriving DecidableEq, Repr

/-- What was needed in its place. -/
inductive Expected where
  | config
  | boolean
  | quota
  deriving DecidableEq, Repr

/-- Why a text is refused. -/
inductive Fault where
  /-- The text ends where a value is needed, or within one. -/
  | endInValue
  | endInList
  | endInObject
  | endInText
  | trailingCharacters
  | trailingComma
  | valueExpected
  /-- A word begins like `true`, `false` or `null` and goes on differently. -/
  | wordExpected
  | colonExpected
  | listSeparatorExpected
  | objectSeparatorExpected
  | keyNotText
  | invalidNumber
  | numberOutOfRange
  | controlCharacter
  | invalidEscape
  /-- One half of a surrogate pair stands without the other. -/
  | loneSurrogate
  /-- Nothing that could be the other half of a surrogate pair follows. -/
  | surrogateUnfinished
  | wrongType (found : Found) (expected : Expected)
  /-- A whole number that is negative. -/
  | wrongValue (value : Int) (expected : Expected)
  | unknownField (key : String)
  | duplicateField (field : Field)
  deriving DecidableEq, Repr

/-- The wording of what was found. -/
def Found.describe : Found → String
  | null => "null"
  | boolean value => s!"boolean `{value}`"
  | integer value => s!"integer `{value}`"
  | float value => "floating point `" ++ NumberLayout.pointed.write value ++ "`"
  | text value => "string " ++ Text.quotedString value
  | sequence => "sequence"
  | map => "map"

/-- The wording of what was needed. -/
def Expected.describe : Expected → String
  | config => "struct BridgeConfig"
  | boolean => "a boolean"
  | quota => "u64"

/-- The wording of a fault, without its place. -/
def Fault.describe : Fault → String
  | endInValue => "EOF while parsing a value"
  | endInList => "EOF while parsing a list"
  | endInObject => "EOF while parsing an object"
  | endInText => "EOF while parsing a string"
  | trailingCharacters => "trailing characters"
  | trailingComma => "trailing comma"
  | valueExpected => "expected value"
  | wordExpected => "expected ident"
  | colonExpected => "expected `:`"
  | listSeparatorExpected => "expected `,` or `]`"
  | objectSeparatorExpected => "expected `,` or `\x7d`"
  | keyNotText => "key must be a string"
  | invalidNumber => "invalid number"
  | numberOutOfRange => "number out of range"
  | controlCharacter => "control character (\\u0000-\\u001F) found while parsing a string"
  | invalidEscape => "invalid escape"
  | loneSurrogate => "lone leading surrogate in hex escape"
  | surrogateUnfinished => "unexpected end of hex escape"
  | wrongType found expected =>
    "invalid type: " ++ found.describe ++ ", expected " ++ expected.describe
  | wrongValue value expected =>
    "invalid value: integer `" ++ toString value ++ "`, expected " ++ expected.describe
  | unknownField key =>
    "unknown field `" ++ key ++ "`, expected `quota_bytes` or `trace_rpc`"
  | duplicateField field => "duplicate field `" ++ field.key ++ "`"

/-! ## Places -/

/-- A place in a text: a line, counted from one, and the bytes before it on that line. -/
structure Place where
  line : Nat
  column : Nat
  deriving DecidableEq, Repr, Inhabited

/-- The number of bytes of a text. -/
def byteCount (text : List Char) : Nat :=
  text.foldr (fun c bytes => c.utf8Size + bytes) 0

/-- Moves a place over the first `bytes` bytes of a text; it may end inside a character. -/
def Place.advance (place : Place) : (bytes : Nat) → List Char → Place
  | 0, _ | _, [] => place
  | bytes + 1, c :: rest =>
    if c = '\n' then advance ⟨place.line + 1, 0⟩ bytes rest
    else
      let step := min c.utf8Size (bytes + 1)
      advance ⟨place.line, place.column + step⟩ (bytes + 1 - step) rest

/-- The place where `left` bytes of a text are left. -/
def Place.ofLeft (text : List Char) (left : Nat) : Place :=
  Place.advance ⟨1, 0⟩ (byteCount text - left) text

/-- A fault and the place where it was noticed. -/
structure Error where
  fault : Fault
  place : Place
  deriving DecidableEq, Repr

/-- The wording of an error. -/
def Error.message (err : Error) : String :=
  "Invalid bridge config: " ++ err.fault.describe ++
    s!" at line {err.place.line} column {err.place.column}"

/-! ## Reading -/

/-- A fault while reading, with the number of bytes that are left after it. -/
structure Failure where
  fault : Fault
  left : Nat
  deriving DecidableEq, Repr

/-- A fault noticed before `rest`. -/
def failAt {α : Type} (fault : Fault) (rest : List Char) : Except Failure α :=
  .error ⟨fault, byteCount rest⟩

/-- A fault noticed on the first byte of `rest`, which is counted as read if there is one. -/
def failOn {α : Type} (fault : Fault) (rest : List Char) : Except Failure α :=
  .error ⟨fault, byteCount rest - 1⟩

/-- A blank between the parts of a text. -/
def isBlank (c : Char) : Bool :=
  c = ' ' || c = '\n' || c = '\t' || c = '\r'

/-- The text after its leading blanks. -/
def skipBlanks (text : List Char) : List Char :=
  text.dropWhile isBlank

/-- Reads the rest of a word whose first letter has been read. -/
def readWord : (letters : List Char) → List Char → Except Failure (List Char)
  | [], rest => .ok rest
  | _ :: _, [] => failAt .endInValue []
  | letter :: letters, c :: rest =>
    if c = letter then readWord letters rest else failOn .wordExpected (c :: rest)

end PluginBridge.Settings
