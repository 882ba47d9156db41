import PluginBridge.Text.DefaultIgnorable
import PluginBridge.Text.GraphemeExtend
import PluginBridge.Text.Unprintable

/-!
# Quoted text

Messages about text show it between quotes, so that blanks, controls and combining marks can be
told apart.  A character stands for itself unless it is

* the quote that surrounds it, a backslash, NUL, tab, line feed or carriage return, which are
  written as a backslash and one character, or
* hidden: it joins the character before it, or nothing of it is seen, and is written `\u{hex}`.
-/

namespace PluginBridge.Text

/-- The halfwidth voiced and semi-voiced sound marks: they modify the letter before them, but are
letters with a width of their own. -/
def isHalfwidthSoundMark (c : Char) : Bool :=
  c = '\uff9e' || c = '\uff9f'

/-- Does a character join the one before it, so that it cannot stand alone? -/
def joinsPrevious (c : Char) : Bool :=
  covers graphemeExtendRanges c.toNat && !isHalfwidthSoundMark c

/-- A hidden character joins the one before it, has no visible form or is left out by a display. -/
def isHidden (c : Char) : Bool :=
  joinsPrevious c || covers unprintableRanges c.toNat || covers defaultIgnorableRanges c.toNat

/-- The written form of `c` between two `quote`s. -/
def escaped (quote c : Char) : List Char :=
  if c = '\x00' then ['\\', '0']
  else if c = '\t' then ['\\', 't']
  else if c = '\n' then ['\\', 'n']
  else if c = '\r' then ['\\', 'r']
  else if c = '\\' ∨ c = quote then ['\\', c]
  else if isHidden c then ['\\', 'u', '{'] ++ Nat.toDigits 16 c.toNat ++ ['}']
  else [c]

/-- The written form of a text, without its quotes. -/
def escapedText (quote : Char) (text : List Char) : List Char :=
  text.flatMap (escaped quote)

/-- A character between single quotes. -/
def quotedChar (c : Char) : String :=
  String.ofList ('\'' :: escaped '\'' c ++ ['\''])

/-- A text between double quotes. -/
def quotedString (s : String) : String :=
  String.ofList ('"' :: escapedText '"' s.toList ++ ['"'])

end PluginBridge.Text
