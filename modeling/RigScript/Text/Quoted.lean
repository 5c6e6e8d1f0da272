import RigScript.Text.Combining
import RigScript.Text.Unprintable

/-!
# Quoted text

Messages show a piece of text between double quotes, so that its extent and its invisible
characters can be read off. Quote, backslash, tab, carriage return, line feed and NUL have short
escapes. A character that would leave no mark of its own, or would attach to its neighbour, is
written as its code point in hexadecimal. Everything else stands for itself.

## Main definitions

* `RigScript.Text.isHidden`: the characters written by code point
* `RigScript.Text.quote`: a text between quotes
-/

namespace RigScript.Text

/-- Characters that cannot be read off a line of text on their own. -/
def isHidden (c : Char) : Bool :=
  inRanges combiningRanges c.toNat || inRanges unprintableRanges c.toNat

/-- The written form of one character between quotes. -/
def escapeChar (c : Char) : String :=
  if c = '\x00' then "\\0"
  else if c = '\t' then "\\t"
  else if c = '\r' then "\\r"
  else if c = '\n' then "\\n"
  else if c = '"' then "\\\""
  else if c = '\\' then "\\\\"
  else if isHidden c then "\\u\x7b" ++ String.ofList (Nat.toDigits 16 c.toNat) ++ "\x7d"
  else c.toString

/-- A text between double quotes, with its escapes. -/
def quote (s : String) : String :=
  "\"" ++ String.join (s.toList.map escapeChar) ++ "\""

end RigScript.Text
