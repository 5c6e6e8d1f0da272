import RigScript.Text.Blank
import RigScript.Token

/-!
# Syntax errors

A script that does not follow the grammar is refused at one place: the byte where matching
stopped. The error says what went wrong there and carries the rest of the script.

## Main definitions

* `RigScript.SyntaxFault`: what went wrong
* `RigScript.Stop`: a fault and the byte where it was found
* `RigScript.SyntaxError`: the same with the rest of the script
* `RigScript.dropBytes`: a text without its first bytes
* `RigScript.isBoundary`: where a text can be cut
-/

namespace RigScript

/-- Brackets, calls and signs may be nested this deep in an expression. -/
def maxNesting : Nat := 128

/-- What is wrong with a script at the place where matching stopped. -/
inductive SyntaxFault where
  /-- No token starts with this character. -/
  | unexpectedCharacter (c : Char)
  /-- A word starts with a digit and is not a number. -/
  | invalidWord (text : String)
  /-- One token was required and another stands there. -/
  | expected (wanted found : Token.Kind)
  /-- A sentence has to start with the path it assigns to. -/
  | expectedTarget (found : Token.Kind)
  /-- No operand starts with this token. -/
  | unexpectedToken (found : Token.Kind)
  /-- An expression is nested deeper than `maxNesting`. -/
  | nestedTooDeep
  /-- A fault described by its finder. -/
  | described (text : String)
deriving DecidableEq, Repr

/-- The wording of a fault. -/
def SyntaxFault.message : SyntaxFault → String
  | unexpectedCharacter c => "unexpected character '" ++ c.toString ++ "'"
  | invalidWord text => "invalid token \"" ++ text ++ "\""
  | expected wanted found => "expected " ++ wanted.label ++ ", found " ++ found.label
  | expectedTarget found => "expected assignment target, found " ++ found.label
  | unexpectedToken found => "unexpected token " ++ found.label
  | nestedTooDeep => "expression nested deeper than " ++ toString maxNesting ++ " levels"
  | described text => text

/-- A fault and the byte offset where it was found. -/
structure Stop where
  /-- The offset of the byte where matching stopped. -/
  offset : Nat
  /-- What is wrong there. -/
  fault : SyntaxFault
deriving DecidableEq, Repr

/-- A script that could not be matched against the grammar. -/
structure SyntaxError where
  /-- The offset of the byte where matching stopped. -/
  offset : Nat
  /-- What is wrong there. -/
  fault : SyntaxFault
  /-- The script from that byte on. -/
  remainder : String
deriving DecidableEq, Repr

/-- A text without its first `n` bytes, in the UTF-8 encoding. -/
def dropBytes : (n : Nat) → List Char → List Char
  | 0, cs => cs
  | _ + 1, [] => []
  | n + 1, c :: cs => dropBytes (n + 1 - c.utf8Size) cs

/-- Whether a character of a text starts at byte `n`, in the UTF-8 encoding, or the text ends
there. -/
def isBoundary : (n : Nat) → List Char → Bool
  | 0, _ => true
  | _ + 1, [] => false
  | n + 1, c :: cs => c.utf8Size ≤ n + 1 && isBoundary (n + 1 - c.utf8Size) cs

/-- The error of a script whose matching stopped. It points at the end of the script rather than
past it, and it carries nothing if a character would be cut. -/
def Stop.toError (src : String) (s : Stop) : SyntaxError :=
  let offset := min s.offset src.utf8ByteSize
  ⟨offset, s.fault,
    if isBoundary offset src.toList then String.ofList (dropBytes offset src.toList) else ""⟩

/-- The wording of an error: where, what, and what was left unread. -/
def SyntaxError.message (e : SyntaxError) : String :=
  "syntax error at byte " ++ toString e.offset ++ ": " ++ e.fault.message ++ " (unparsed: " ++
    Text.quote (Text.trimEnd e.remainder) ++ ")"

end RigScript
