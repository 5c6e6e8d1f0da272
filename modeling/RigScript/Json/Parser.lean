import RigScript.Json
import RigScript.Token.Lexer

/-!
# Reading documents

The text of a document is read strictly: no comments, no trailing commas, no leading zeros, no
control characters in texts, and nothing but blanks around the document.

A number is read as its leading digits, as many as fit 64 bits, times a power of ten: the digits
are rounded to a double, and so is the result of the scaling.

## Main definitions

* `RigScript.Json.Numeral`: the parts of a number
* `RigScript.Json.parse?`: the document that a text holds
-/

namespace RigScript.Json

/-! ### Numbers -/

/-- The parts of a number in a document. -/
structure Numeral where
  /-- Whether it starts with a minus sign. -/
  negative : Bool
  /-- The digits before the point. -/
  whole : List Char
  /-- The digits after the point, or none without a point. -/
  fraction : List Char
  /-- The power of ten, when one is written. -/
  exponent : Option Int
deriving Repr

namespace Numeral

/-- The largest number of 64 bits. -/
def maxWord : Nat := 0xffffffffffffffff

/-- Takes digits into a number while it fits 64 bits, and counts the digits taken. -/
def takeDigits : (n taken : Nat) → List Char → Nat × Nat
  | n, taken, [] => (n, taken)
  | n, taken, d :: ds =>
    let n' := 10 * n + (d.toNat - '0'.toNat)
    if n' ≤ maxWord then takeDigits n' (taken + 1) ds else (n, taken)

/-- A double divided by a power of ten, in steps of at most `10 ^ 308`. -/
def scaleDown (x : Float) (n : Nat) : Float :=
  if n ≤ 308 then x / Float.ofScientific 1 false n
  else if x == 0.0 then x
  else scaleDown (x / 1e308) (n - 308)
termination_by n
decreasing_by omega

/-- A double times a power of ten; beyond the largest one it is infinite. -/
def scale (x : Float) (e : Int) : Float :=
  if e < 0 then scaleDown x (-e).toNat
  else if e ≤ 308 then x * Float.ofScientific 1 false e.toNat
  else if x == 0.0 then x
  else 1.0 / 0.0

/-- The double that a number denotes. -/
def toFloat (n : Numeral) : Float :=
  let (whole, used) := takeDigits 0 0 n.whole
  let (digits, places) := takeDigits whole 0 n.fraction
  let exponent : Int := n.exponent.getD 0 + (n.whole.length - used : Nat) - places
  let x := scale (Float.ofNat digits) exponent
  if n.negative then -x else x

/-- The document of a number: an integer when nothing but digits is written and it fits 64 bits.
A negative zero is a double. -/
def toJson (n : Numeral) : Json :=
  let magnitude := natOfDigits n.whole
  if n.fraction.isEmpty && n.exponent.isNone then
    if n.negative then
      if 0 < magnitude ∧ magnitude ≤ Binary.signBit then integer (-magnitude) else float n.toFloat
    else if magnitude ≤ maxWord then integer magnitude
    else float n.toFloat
  else float n.toFloat

/-- The exponent at the front of a text: its value and what follows. -/
def readExponent? : List Char → Option (Option Int × List Char)
  | c :: cs =>
    if c = 'e' || c = 'E' then
      let (negative, cs) := match cs with
        | '+' :: rest => (false, rest)
        | '-' :: rest => (true, rest)
        | rest => (false, rest)
      let digits := cs.takeWhile Char.isDigit
      if digits.isEmpty then none
      else
        let power : Int := natOfDigits digits
        some (some (if negative then -power else power), cs.dropWhile Char.isDigit)
    else some (none, c :: cs)
  | [] => some (none, [])

/-- The digits after a point at the front of a text, and what follows. -/
def readFraction? : List Char → Option (List Char × List Char)
  | '.' :: cs =>
    let digits := cs.takeWhile Char.isDigit
    if digits.isEmpty then none else some (digits, cs.dropWhile Char.isDigit)
  | cs => some ([], cs)

/-- The number at the front of a text, and what follows. -/
def read? (cs : List Char) : Option (Numeral × List Char) := do
  let (negative, cs) := match cs with
    | '-' :: rest => (true, rest)
    | rest => (false, rest)
  let whole := cs.takeWhile Char.isDigit
  if whole.isEmpty || (1 < whole.length && whole.head? == some '0') then none
  let (fraction, cs) ← readFraction? (cs.dropWhile Char.isDigit)
  let (exponent, cs) ← readExponent? cs
  return (⟨negative, whole, fraction, exponent⟩, cs)

end Numeral

/-! ### Texts -/

/-- A character of a text, or a unit of sixteen bits that an escape names. -/
inductive Piece where
  | char (c : Char)
  | unit (n : Nat)
deriving Repr

/-- The value of a hexadecimal digit. -/
def hexDigit? (c : Char) : Option Nat :=
  if c.isDigit then some (c.toNat - '0'.toNat)
  else if 'a' ≤ c ∧ c ≤ 'f' then some (c.toNat - 'a'.toNat + 10)
  else if 'A' ≤ c ∧ c ≤ 'F' then some (c.toNat - 'A'.toNat + 10)
  else none

/-- The character that a one-letter escape stands for. -/
def shortEscape? (c : Char) : Option Char :=
  if c = '"' then some '"'
  else if c = '\\' then some '\\'
  else if c = '/' then some '/'
  else if c = 'b' then some '\x08'
  else if c = 'f' then some '\x0c'
  else if c = 'n' then some '\n'
  else if c = 'r' then some '\r'
  else if c = 't' then some '\t'
  else none

/-- The pieces of a text up to its closing quote, and what follows. -/
def readPieces? : List Char → Option (List Piece × List Char)
  | [] => none
  | '"' :: cs => some ([], cs)
  | '\\' :: 'u' :: a :: b :: c :: d :: cs => do
    let unit := (((← hexDigit? a) * 16 + (← hexDigit? b)) * 16 + (← hexDigit? c)) * 16 +
      (← hexDigit? d)
    let (pieces, rest) ← readPieces? cs
    return (.unit unit :: pieces, rest)
  | '\\' :: e :: cs => do
    let c ← shortEscape? e
    let (pieces, rest) ← readPieces? cs
    return (.char c :: pieces, rest)
  | c :: cs =>
    if c = '\\' || c.toNat < 0x20 then none
    else do
      let (pieces, rest) ← readPieces? cs
      return (.char c :: pieces, rest)

/-- The characters that pieces stand for: two units may make up one character, and half of such a
pair stands for nothing. -/
def joinPieces? : List Piece → Option (List Char)
  | [] => some []
  | .char c :: ps => (joinPieces? ps).map (c :: ·)
  | .unit high :: .unit low :: ps =>
    if 0xd800 ≤ high ∧ high < 0xdc00 then
      if 0xdc00 ≤ low ∧ low < 0xe000 then
        (joinPieces? ps).map
          (Char.ofNat (0x10000 + (high - 0xd800) * 0x400 + (low - 0xdc00)) :: ·)
      else none
    else if 0xdc00 ≤ high ∧ high < 0xe000 then none
    else (joinPieces? (.unit low :: ps)).map (Char.ofNat high :: ·)
  | .unit n :: ps =>
    if 0xd800 ≤ n ∧ n < 0xe000 then none else (joinPieces? ps).map (Char.ofNat n :: ·)

/-- The text at the front of `cs`, after its opening quote, and what follows. The text itself is
missing when it holds half of a pair. -/
def readText? (cs : List Char) : Option (Option String × List Char) := do
  let (pieces, rest) ← readPieces? cs
  return ((joinPieces? pieces).map String.ofList, rest)

/-! ### Values -/

/-- Skips the blanks between the parts of a document. -/
def skipBlanks (cs : List Char) : List Char :=
  cs.dropWhile fun c => c == ' ' || c == '\n' || c == '\t' || c == '\r'

/-- The document of an object: none of its keys may be unreadable. -/
def ofFields (fields : List (Option String × Json)) : Json :=
  match fields.mapM fun f => f.1.map fun key => (key, f.2) with
  | some fs => object fs
  | none => unreadable

/-- A word of the format at the front of a text. -/
def readWord? (word : List Char) (j : Json) (cs : List Char) : Option (Json × List Char) :=
  if word.isPrefixOf cs then some (j, cs.drop word.length) else none

mutual

/-- The document at the front of a text, and what follows. Each step takes a character, so the
length of the text bounds the steps. -/
def readValue? : (fuel : Nat) → List Char → Option (Json × List Char)
  | 0, _ => none
  | fuel + 1, cs =>
    match skipBlanks cs with
    | [] => none
    | c :: rest =>
      if c = 'n' then readWord? ['n', 'u', 'l', 'l'] null (c :: rest)
      else if c = 't' then readWord? ['t', 'r', 'u', 'e'] (bool true) (c :: rest)
      else if c = 'f' then readWord? ['f', 'a', 'l', 's', 'e'] (bool false) (c :: rest)
      else if c = '"' then do
        let (text, rest) ← readText? rest
        return (text.elim unreadable string, rest)
      else if c = '[' then
        match skipBlanks rest with
        | ']' :: rest => some (array [], rest)
        | rest => do
          let (items, rest) ← readItems? fuel rest
          return (array items, rest)
      else if c = '\x7b' then
        match skipBlanks rest with
        | '\x7d' :: rest => some (object [], rest)
        | rest => do
          let (fields, rest) ← readFields? fuel rest
          return (ofFields fields, rest)
      else do
        let (n, rest) ← Numeral.read? (c :: rest)
        return (n.toJson, rest)

/-- The items of an array up to its closing bracket, and what follows. -/
def readItems? : (fuel : Nat) → List Char → Option (List Json × List Char)
  | 0, _ => none
  | fuel + 1, cs => do
    let (j, rest) ← readValue? fuel cs
    match skipBlanks rest with
    | ',' :: rest =>
      let (js, rest) ← readItems? fuel rest
      return (j :: js, rest)
    | ']' :: rest => return ([j], rest)
    | _ => none

/-- The fields of an object up to its closing brace, and what follows. -/
def readFields? : (fuel : Nat) → List Char → Option (List (Option String × Json) × List Char)
  | 0, _ => none
  | fuel + 1, cs =>
    match skipBlanks cs with
    | '"' :: rest => do
      let (key, rest) ← readText? rest
      match skipBlanks rest with
      | ':' :: rest =>
        let (j, rest) ← readValue? fuel rest
        match skipBlanks rest with
        | ',' :: rest =>
          let (fields, rest) ← readFields? fuel rest
          return ((key, j) :: fields, rest)
        | '\x7d' :: rest => return ([(key, j)], rest)
        | _ => none
      | _ => none
    | _ => none

end

/-- The document that a text holds. -/
def parse? (text : String) : Option Json := do
  let cs := text.toList
  let (j, rest) ← readValue? (2 * cs.length + 1) cs
  if (skipBlanks rest).isEmpty then return j else none

end RigScript.Json
