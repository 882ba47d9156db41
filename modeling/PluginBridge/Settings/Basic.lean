import PluginBridge.Settings.Numeral
import PluginBridge.Settings.Text
import PluginBridge.Storage.Basic

/-!
# The configuration of a bridge

A bridge has two settings with defaults: the quota that is asked for, and whether requests are
shown on the console.  They are written as a JSON object whose members may come in any order, or as
a JSON list with the quota first.  `Settings.parse` reads either form and refuses anything else
at the first fault.
-/

namespace PluginBridge

/-- The settings of a bridge. -/
structure Settings where
  quota : UInt64 := defaultQuota
  traced : Bool := true
  deriving DecidableEq, Repr, Inhabited

namespace Settings

/-! ## Values -/

/-- Refuses a value that is not of the type that is needed.  A number, a word or a text is read
first, so that its own faults are noticed. -/
def refuse {α : Type} (expected : Expected) (text : List Char) : Except Failure α :=
  match text with
  | 'n' :: rest => do
    let rest ← readWord ['u', 'l', 'l'] rest
    failAt (.wrongType .null expected) rest
  | 't' :: rest => do
    let rest ← readWord ['r', 'u', 'e'] rest
    failAt (.wrongType (.boolean true) expected) rest
  | 'f' :: rest => do
    let rest ← readWord ['a', 'l', 's', 'e'] rest
    failAt (.wrongType (.boolean false) expected) rest
  | '-' :: rest => do
    let (numeral, rest) ← readNumeral true rest
    failAt (.wrongType numeral.found expected) rest
  | '"' :: rest => do
    let (value, rest) ← readText rest
    failAt (.wrongType (.text (String.ofList value)) expected) rest
  | '[' :: _ => failAt (.wrongType .sequence expected) text
  | '{' :: _ => failAt (.wrongType .map expected) text
  | text =>
    if startsWithDigit text then do
      let (numeral, rest) ← readNumeral false text
      failAt (.wrongType numeral.found expected) rest
    else failOn .valueExpected text

/-- Reads a boolean value. -/
def readBoolean (text : List Char) : Except Failure (Bool × List Char) :=
  match skipBlanks text with
  | [] => failOn .endInValue []
  | 't' :: rest => (readWord ['r', 'u', 'e'] rest).map fun rest => (true, rest)
  | 'f' :: rest => (readWord ['a', 'l', 's', 'e'] rest).map fun rest => (false, rest)
  | text => refuse .boolean text

/-- A quota is a whole number that is not negative. -/
def quotaOf (numeral : Numeral) (rest : List Char) : Except Failure (UInt64 × List Char) :=
  match numeral with
  | .natural value => .ok (UInt64.ofNat value, rest)
  | .negative distance => failAt (.wrongValue (-distance) .quota) rest
  | .float value => failAt (.wrongType (.float value) .quota) rest

/-- Reads a quota. -/
def readQuota (text : List Char) : Except Failure (UInt64 × List Char) :=
  match skipBlanks text with
  | [] => failOn .endInValue []
  | '-' :: rest => do
    let (numeral, rest) ← readNumeral true rest
    quotaOf numeral rest
  | text =>
    if startsWithDigit text then do
      let (numeral, rest) ← readNumeral false text
      quotaOf numeral rest
    else refuse .quota text

/-! ## The list form -/

/-- Comes before an element: is there one?  All but the first need a comma. -/
def readSeparator (first : Bool) (text : List Char) : Except Failure (Bool × List Char) :=
  match skipBlanks text with
  | [] => failOn .endInList []
  | ']' :: rest => .ok (false, ']' :: rest)
  | c :: rest =>
    if first then .ok (true, c :: rest)
    else if c = ',' then
      match skipBlanks rest with
      | [] => failOn .endInValue []
      | ']' :: rest => failOn .trailingComma (']' :: rest)
      | rest => .ok (true, rest)
    else failOn .listSeparatorExpected (c :: rest)

/-- Reads the end of the list. -/
def readListEnd (text : List Char) : Except Failure (List Char) :=
  match skipBlanks text with
  | [] => failOn .endInList []
  | ']' :: rest => .ok rest
  | ',' :: rest =>
    let rest := skipBlanks rest
    failOn (if rest.head? = some ']' then .trailingComma else .trailingCharacters) rest
  | text => failOn .trailingCharacters text

/-- Reads the list form after its bracket. -/
def readList (text : List Char) : Except Failure (Settings × List Char) := do
  let (hasQuota, text) ← readSeparator true text
  if hasQuota then
    let (quota, text) ← readQuota text
    let (hasTrace, text) ← readSeparator false text
    if hasTrace then
      let (traced, text) ← readBoolean text
      return ({ quota, traced }, ← readListEnd text)
    else return ({ quota }, ← readListEnd text)
  else return ({}, ← readListEnd text)

/-! ## The object form -/

/-- The settings that an object has given so far. -/
structure Draft where
  quota : Option UInt64 := none
  traced : Option Bool := none
  deriving DecidableEq, Repr

namespace Draft

/-- The settings that are still open. -/
def openFields (draft : Draft) : Nat :=
  (if draft.quota.isNone then 1 else 0) + (if draft.traced.isNone then 1 else 0)

/-- Has a setting been given? -/
def has (draft : Draft) : Field → Bool
  | .quota => draft.quota.isSome
  | .traced => draft.traced.isSome

/-- The configuration with the default for every open setting. -/
def config (draft : Draft) : Settings where
  quota := draft.quota.getD defaultQuota
  traced := draft.traced.getD true

end Draft

/-- Comes before a member: is there one?  The rest begins after the quote of its key. -/
def readMemberStart (first : Bool) (text : List Char) : Except Failure (Bool × List Char) :=
  match skipBlanks text with
  | [] => failOn .endInObject []
  | '}' :: rest => .ok (false, rest)
  | c :: rest =>
    if first then
      if c = '"' then .ok (true, rest) else failOn .keyNotText (c :: rest)
    else if c = ',' then
      match skipBlanks rest with
      | [] => failOn .endInValue []
      | '"' :: rest => .ok (true, rest)
      | '}' :: rest => failOn .trailingComma ('}' :: rest)
      | rest => failOn .keyNotText rest
    else failOn .objectSeparatorExpected (c :: rest)

/-- A fault in a key is noticed after the blanks that follow it, and after a brace that closes the
object there. -/
def failAfterKey {α : Type} (fault : Fault) (text : List Char) : Except Failure α :=
  match skipBlanks text with
  | '}' :: rest => failAt fault rest
  | rest => failAt fault rest

/-- Reads the field that a key names; a field that has been given before is refused. -/
def readField (draft : Draft) (text : List Char) :
    Except Failure ({ field : Field // ¬draft.has field } × List Char) := do
  let (key, rest) ← readText text
  match Field.ofKey? (String.ofList key) with
  | none => failAfterKey (.unknownField (String.ofList key)) rest
  | some field =>
    if h : draft.has field then failAfterKey (.duplicateField field) rest
    else return (⟨field, h⟩, rest)

/-- Reads the colon between a key and its value. -/
def readColon (text : List Char) : Except Failure (List Char) :=
  match skipBlanks text with
  | [] => failOn .endInObject []
  | ':' :: rest => .ok rest
  | text => failOn .colonExpected text

/-- Reads the value of an open field into the draft. -/
def readMember (draft : Draft) (text : List Char) :
    Except Failure ({ next : Draft // next.openFields < draft.openFields } × List Char) := do
  let (field, rest) ← readField draft text
  let rest ← readColon rest
  match field with
  | ⟨.quota, h⟩ =>
    let (value, rest) ← readQuota rest
    return (⟨{ draft with quota := some value }, by
      cases hq : draft.quota <;> simp_all [Draft.has, Draft.openFields]⟩, rest)
  | ⟨.traced, h⟩ =>
    let (value, rest) ← readBoolean rest
    return (⟨{ draft with traced := some value }, by
      cases ht : draft.traced <;> simp_all [Draft.has, Draft.openFields]⟩, rest)

/-- Reads the members of the object form and its closing brace.  Every member settles an open field,
so there are at most two. -/
def readMembers (first : Bool) (draft : Draft) (text : List Char) :
    Except Failure (Settings × List Char) :=
  match readMemberStart first text with
  | .error failure => .error failure
  | .ok (false, rest) => .ok (draft.config, rest)
  | .ok (true, rest) =>
    match readMember draft rest with
    | .error failure => .error failure
    | .ok (⟨next, _⟩, rest) => readMembers false next rest
termination_by draft.openFields

/-! ## The whole text -/

/-- Reads either form, with blanks around it. -/
def readConfig (text : List Char) : Except Failure Settings := do
  let (config, rest) ←
    match skipBlanks text with
    | [] => failOn .endInValue []
    | '[' :: rest => readList rest
    | '{' :: rest => readMembers true {} rest
    | text => refuse .config text
  match skipBlanks rest with
  | [] => return config
  | rest => failOn .trailingCharacters rest

end Settings

/-- Reads a configuration. -/
def Settings.parse (text : String) : Except Settings.Error Settings :=
  (Settings.readConfig text.toList).mapError fun failure =>
    ⟨failure.fault, .ofLeft text.toList failure.left⟩

end PluginBridge
