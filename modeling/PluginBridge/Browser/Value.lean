import PluginBridge.Number.Layout
import PluginBridge.Storage.Table

/-!
# Values of the page

Whatever the page hands over or throws is a value of one dynamic type.  `debugText` shows a value to
a reader, `reason` makes an error text of one, and `property?` looks a property up.
-/

namespace PluginBridge.Browser

/-- A value of the page's scripts. -/
inductive Value where
  | undefined
  | null
  | boolean (value : Bool)
  | number (value : Binary64)
  | string (text : String)
  | array (items : List Value)
  /-- A plain object, its properties in key order. -/
  | object (properties : List (String × Value))
  /-- A function that does nothing and returns `undefined`. -/
  | function
  /-- An error with an empty stack. -/
  | error (name message : String)
  /-- An object of the browser itself, by its class. -/
  | host (className : String)
  deriving Repr, Inhabited

namespace Value

/-- The plain object with some properties; of two with one key, the later counts. -/
def ofProperties (properties : List (String × Value)) : Value :=
  object (properties.foldl (fun sorted p => SortedList.insert p.1 p.2 sorted) [])

/-! ## Text -/

/-- The escape of a control character in a JSON text. -/
def controlEscape (c : Char) : List Char :=
  let digits := Nat.toDigits 16 c.toNat
  ['\\', 'u'] ++ List.replicate (4 - digits.length) '0' ++ digits

/-- One character of a JSON text. -/
def jsonEscaped (c : Char) : List Char :=
  if c = '"' ∨ c = '\\' then ['\\', c]
  else if c = '\x08' then ['\\', 'b']
  else if c = '\x0c' then ['\\', 'f']
  else if c = '\n' then ['\\', 'n']
  else if c = '\r' then ['\\', 'r']
  else if c = '\t' then ['\\', 't']
  else if c.toNat < 0x20 then controlEscape c
  else [c]

/-- A text between double quotes, as JSON writes it. -/
def jsonQuoted (text : String) : String :=
  String.ofList ('"' :: text.toList.flatMap jsonEscaped ++ ['"'])

/-- Is a whole number written out in a JSON text?  Those of a signed 64-bit word are. -/
def isJsonInteger (n : Int) : Bool := -Nat.pow 2 63 ≤ n && n < Nat.pow 2 63

/-- The JSON text of a number.  Whole numbers of moderate size are written as integers, zero without
its sign, and what is not finite as `null`. -/
def jsonNumber : Binary64 → String
  | .nan | .infinite _ => "null"
  | x =>
    match x.toInt?.filter isJsonInteger with
    | some n => toString n
    | none => NumberLayout.pointed.write x

mutual

/-- The JSON text of a value, if it has one: `undefined` and functions have none.  Errors and
objects of the browser have no properties of their own to show. -/
def json? : Value → Option String
  | undefined | function => none
  | null => some "null"
  | boolean value => some (toString value)
  | number value => some (jsonNumber value)
  | string text => some (jsonQuoted text)
  | array items => some ("[" ++ ",".intercalate (jsonItems items) ++ "]")
  | object properties => some ("\x7b" ++ ",".intercalate (jsonProperties properties) ++ "\x7d")
  | error _ _ | host _ => some "\x7b\x7d"

/-- The JSON texts of the items of an array; one without a text is `null`. -/
def jsonItems : List Value → List String
  | [] => []
  | item :: rest => (json? item).getD "null" :: jsonItems rest

/-- The JSON texts of properties; one without a text is left out. -/
def jsonProperties : List (String × Value) → List String
  | [] => []
  | (key, value) :: rest =>
    match json? value with
    | none => jsonProperties rest
    | some text => (jsonQuoted key ++ ":" ++ text) :: jsonProperties rest

end

mutual

/-- How a value is shown to a reader. -/
def debugText : Value → String
  | undefined => "undefined"
  | null => "null"
  | boolean value => toString value
  | number value => NumberLayout.plain.write value
  | string text => "\"" ++ text ++ "\""
  | array items => "[" ++ ", ".intercalate (debugItems items) ++ "]"
  | object properties => "Object(" ++ (json? (object properties)).getD "" ++ ")"
  | function => "Function"
  | error name message => name ++ ": " ++ message ++ "\n"
  | host className => className

/-- How the items of an array are shown. -/
def debugItems : List Value → List String
  | [] => []
  | item :: rest => debugText item :: debugItems rest

end

/-! ## Looking into values -/

/-- The text, if it is a string. -/
def asString? : Value → Option String
  | string text => some text
  | _ => none

/-- The number, if it is one. -/
def asNumber? : Value → Option Binary64
  | number value => some value
  | _ => none

/-- An error text: a string is its own, any other value is shown as for a reader. -/
def reason (value : Value) : String :=
  value.asString?.getD ("JsValue(" ++ value.debugText ++ ")")

/-- The error of a browser operation that is given something unsuitable. -/
def typeError (message : String) : Value := error "TypeError" message

/-- Looks a property up.  An absent property is `undefined`; what is no object has no properties
and the look-up itself fails. -/
def property? (key : String) : Value → Except Value Value
  | object properties => .ok ((properties.lookup key).getD undefined)
  | array _ | function | error _ _ | host _ => .ok undefined
  | _ => .error (typeError "Reflect.get called on non-object")

end Value

end PluginBridge.Browser
