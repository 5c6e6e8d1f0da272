import RigScript.Decimal.Layout

/-!
# Documents

Scenes, options and reports are exchanged as JSON documents. A document is a tree of values; the
fields of an object keep their order and may repeat. A number without fraction and exponent that
fits 64 bits is an integer and every other one a double. A text may also hold literals that are
well formed but denote nothing, such as half of a surrogate pair: they can be passed over but not
read.

## Main definitions

* `RigScript.Json`: documents
* `RigScript.Json.render`: a document on one line
* `RigScript.Json.pretty`: a document with one value per line
* `RigScript.Json.record?`: the fields of a record
-/

namespace RigScript

/-- A document. -/
inductive Json where
  | null
  | bool (b : Bool)
  | integer (i : Int)
  | float (x : Float)
  | string (s : String)
  | array (items : List Json)
  | object (fields : List (String × Json))
  /-- A value that is well formed but denotes nothing. -/
  | unreadable
deriving Repr

namespace Json

/-! ### Writing -/

/-- One character of a text in a document. -/
def escapeChar (c : Char) : String :=
  if c = '"' then "\\\""
  else if c = '\\' then "\\\\"
  else if c = '\x08' then "\\b"
  else if c = '\t' then "\\t"
  else if c = '\n' then "\\n"
  else if c = '\x0c' then "\\f"
  else if c = '\r' then "\\r"
  else if c.toNat < 0x20 then
    let digits := Nat.toDigits 16 c.toNat
    "\\u" ++ String.ofList (List.replicate (4 - digits.length) '0' ++ digits)
  else c.toString

/-- A text in a document. -/
def quoteText (s : String) : String :=
  "\"" ++ String.join (s.toList.map escapeChar) ++ "\""

/-- A number in a document; there is none for infinities and NaN. -/
def floatText (x : Float) : String :=
  if x.isFinite then Decimal.Layout.document.write x else "null"

mutual

/-- A document on one line, without blanks. -/
def render : Json → String
  | null => "null"
  | bool b => if b then "true" else "false"
  | integer i => toString i
  | float x => floatText x
  | string s => quoteText s
  | array items => "[" ++ ",".intercalate (renderItems items) ++ "]"
  | object fields => "\x7b" ++ ",".intercalate (renderFields fields) ++ "\x7d"
  | unreadable => "null"

/-- The items of an array. -/
def renderItems : List Json → List String
  | [] => []
  | j :: js => render j :: renderItems js

/-- The fields of an object. -/
def renderFields : List (String × Json) → List String
  | [] => []
  | f :: fs => renderField f :: renderFields fs

/-- One field of an object. -/
def renderField : String × Json → String
  | (key, j) => quoteText key ++ ":" ++ render j

end

/-- Lines between two brackets, each at the given indentation. -/
def bracket (opening closing : String) (indent : Nat) (lines : List String) : String :=
  let margin (n : Nat) : String := "\n" ++ String.ofList (List.replicate n ' ')
  if lines.isEmpty then opening ++ closing
  else
    opening ++ ",".intercalate (lines.map (margin (indent + 2) ++ ·)) ++ margin indent ++ closing

mutual

/-- A document with one value per line, indented by two columns per level. -/
def prettyAt (indent : Nat) : Json → String
  | array items => bracket "[" "]" indent (prettyItems (indent + 2) items)
  | object fields => bracket "\x7b" "\x7d" indent (prettyFields (indent + 2) fields)
  | null => "null"
  | bool b => render (bool b)
  | integer i => render (integer i)
  | float x => render (float x)
  | string s => render (string s)
  | unreadable => "null"

/-- The items of an array. -/
def prettyItems (indent : Nat) : List Json → List String
  | [] => []
  | j :: js => prettyAt indent j :: prettyItems indent js

/-- The fields of an object. -/
def prettyFields (indent : Nat) : List (String × Json) → List String
  | [] => []
  | f :: fs => prettyField indent f :: prettyFields indent fs

/-- One field of an object. -/
def prettyField (indent : Nat) : String × Json → String
  | (key, j) => quoteText key ++ ": " ++ prettyAt indent j

end

/-- A document with one value per line. -/
def pretty (j : Json) : String :=
  prettyAt 0 j

/-! ### Reading -/

/-- The text of a document that is one. -/
def toText? : Json → Option String
  | string s => some s
  | _ => none

/-- The truth value of a document that is one. -/
def toBool? : Json → Option Bool
  | bool b => some b
  | _ => none

/-- The items of an array. -/
def toItems? : Json → Option (List Json)
  | array items => some items
  | _ => none

/-- The double nearest to the number that a document is; there is none beyond the largest. -/
def toFloat? : Json → Option Float
  | integer i => (some (Float.ofInt i)).filter Float.isFinite
  | float x => (some x).filter Float.isFinite
  | _ => none

/-- The integer of 64 bits that a document is. -/
def toInt64? : Json → Option Int64
  | integer i =>
    if -9223372036854775808 ≤ i ∧ i ≤ 9223372036854775807 then some (Int64.ofInt i) else none
  | _ => none

/-- The fields of a record with the given names. A record is an object in which no name is
repeated and other keys are passed over, or an array of the fields from the first on. -/
def record? (names : List String) : Json → Option (String → Option Json)
  | object fields =>
    if names.all fun name => (fields.filter fun f => f.1 == name).length ≤ 1 then
      some fun name => fields.lookup name
    else none
  | array items =>
    if items.length ≤ names.length then some fun name => (names.zip items).lookup name else none
  | _ => none

/-- Reads a field that may be missing. -/
def orDefault {α : Type} (read : Json → Option α) (default : α) : Option Json → Option α
  | none => some default
  | some j => read j

end Json

end RigScript
