import RigScript.Decimal.Layout
import RigScript.Text.Quoted

/-!
# Tokens of a script

A script is a sequence of tokens: paths to attributes, numbers, words that name functions, and
marks, the keywords and punctuation whose spelling is fixed. Each token remembers the bytes of the
script that it covers, and the last token of a script covers none.

## Main definitions

* `RigScript.Mark`: the tokens with a fixed spelling
* `RigScript.Token.Kind`: what a token stands for
* `RigScript.Token`: a kind with the bytes it covers
* `RigScript.Token.Kind.label`: how a message refers to a token
-/

namespace RigScript

/-- The keywords and punctuation marks. -/
inductive Mark where
  | ifWord
  | elseWord
  | openParen
  | closeParen
  | openBrace
  | closeBrace
  | comma
  | semicolon
  | assign
  | plus
  | minus
  | star
  | slash
  | percent
  | equal
  | unequal
deriving DecidableEq, Repr

namespace Mark

/-- The characters of a mark in a script. -/
def spelling : Mark → List Char
  | ifWord => ['i', 'f']
  | elseWord => ['e', 'l', 's', 'e']
  | openParen => ['(']
  | closeParen => [')']
  | openBrace => ['\x7b']
  | closeBrace => ['\x7d']
  | comma => [',']
  | semicolon => [';']
  | assign => ['=']
  | plus => ['+']
  | minus => ['-']
  | star => ['*']
  | slash => ['/']
  | percent => ['%']
  | equal => ['=', '=']
  | unequal => ['!', '=']

/-- The name of a mark in messages. -/
def label : Mark → String
  | ifWord => "If"
  | elseWord => "Else"
  | openParen => "LParen"
  | closeParen => "RParen"
  | openBrace => "LBrace"
  | closeBrace => "RBrace"
  | comma => "Comma"
  | semicolon => "Semicolon"
  | assign => "Assign"
  | plus => "Plus"
  | minus => "Minus"
  | star => "Star"
  | slash => "Slash"
  | percent => "Percent"
  | equal => "EqEq"
  | unequal => "Ne"

end Mark

/-- What a token stands for. -/
inductive Token.Kind where
  /-- A path `node.attribute`, where the node may be left out. -/
  | path (text : String)
  /-- A number and its value. -/
  | number (value : Float)
  /-- The name of a function. -/
  | word (name : String)
  /-- A keyword or a punctuation mark. -/
  | mark (m : Mark)
  /-- The end of the script. -/
  | finish
deriving DecidableEq, Repr

/-- How a message refers to a token of this kind. -/
def Token.Kind.label : Token.Kind → String
  | path text => "Variable(" ++ Text.quote text ++ ")"
  | number value => "Number(" ++ Decimal.Layout.literal.write value ++ ")"
  | word name => "Ident(" ++ Text.quote name ++ ")"
  | mark m => m.label
  | finish => "Eof"

/-- A token and the bytes of the script that it covers. -/
structure Token where
  /-- What the token stands for. -/
  kind : Token.Kind
  /-- The offset of its first byte. -/
  start : Nat
  /-- The offset just after its last byte. -/
  stop : Nat
deriving DecidableEq, Repr

end RigScript
