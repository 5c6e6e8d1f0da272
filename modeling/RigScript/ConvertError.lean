import RigScript.Expr
import RigScript.Graph.Error
import RigScript.Options
import RigScript.SyntaxError

/-!
# Errors of a conversion

The reasons for which a script is not converted, and their wording.

## Main definitions

* `RigScript.ConvertError`: the reasons
* `RigScript.ConvertError.message`: their wording
* `RigScript.ConvertError.sourceMessage?`: the wording of the error inside
* `RigScript.ConvertError.root`: the reason inside a failed construct
-/

namespace RigScript

/-- What a script asks for that no node can do. -/
inductive Unsupported where
  /-- A choice between two blocks. -/
  | condition
  /-- A comparison as a value. -/
  | comparison (op : BinaryOp)
  /-- A remainder by a divisor that is not positive enough. -/
  | divisor (x : Float)
  /-- A reason given in words. -/
  | described (text : String)
deriving DecidableEq, Repr

/-- The wording of an unsupported request. -/
def Unsupported.message : Unsupported → String
  | condition => "if/else conditions cannot be expressed as primitive nodes"
  | comparison op => "comparison '" ++ op.symbol ++ "' outside a condition"
  | divisor x => "modulo by " ++ Decimal.Layout.plain.write x ++ ": the divisor must be positive"
  | described text => text

/-- A part of a script with the wrong shape. -/
inductive ShapeFault where
  /-- A call with the wrong number of arguments. -/
  | arity (function : String) (expected found : Nat)
  /-- A path relative to the construct without an attribute. -/
  | noAttribute (path : String)
  /-- A path without a node or without an attribute. -/
  | malformedPath (path : String)
  /-- A reason given in words. -/
  | described (text : String)
deriving DecidableEq, Repr

/-- The wording of a wrong shape. -/
def ShapeFault.message : ShapeFault → String
  | arity function expected found =>
    function ++ "() takes " ++ toString expected ++ " argument(s), got " ++ toString found
  | noAttribute path => "self-relative path " ++ Text.quote path ++ " names no attribute"
  | malformedPath path => "malformed variable path " ++ Text.quote path
  | described text => text

/-- Why a document is refused. -/
inductive DocumentFault where
  /-- It cannot be read as what it should be. -/
  | unreadable
  /-- It holds options that break a rule. -/
  | options (fault : OptionsFault)
  /-- A reason given in words. -/
  | described (text : String)
deriving DecidableEq, Repr

/-- The wording of a refused document. -/
def DocumentFault.message : DocumentFault → String
  | unreadable => "the document cannot be read"
  | options fault => fault.message
  | described text => text

/-- Why a script is not converted. -/
inductive ConvertError where
  | parse (e : SyntaxError)
  | unsupported (u : Unsupported)
  | shape (fault : ShapeFault)
  | attributeType (plug : Plug) (kind : AttrKind) (expected : String)
  | unknownFunction (name : String)
  | nonConstant (op : BinaryOp)
  | graph (e : GraphError)
  | document (fault : DocumentFault)
  /-- The conversion of a construct failed for the given reason. -/
  | conversion (construct : String) (source : ConvertError)
  /-- A reason given in words. -/
  | described (text : String)
deriving DecidableEq, Repr

namespace ConvertError

/-- The wording of an error. -/
def message : ConvertError → String
  | parse e => "syntax error: " ++ e.message
  | unsupported u => "unsupported construct: " ++ u.message
  | shape fault => "structural invariant violated: " ++ fault.message
  | attributeType plug kind expected =>
    "attribute type error: \"" ++ plug.text ++ "\" is " ++ kind.label ++ ", expected " ++ expected
  | unknownFunction name => "unknown function \"" ++ name ++ "\""
  | nonConstant op =>
    "non-constant operand: right-hand side of '" ++ op.symbol ++ "' must be a numeric literal"
  | graph e => "graph error: " ++ e.message
  | document fault => "serialization error: " ++ fault.message
  | conversion construct source =>
    "failed converting expression \"" ++ construct ++ "\": " ++ source.message
  | described text => text

/-- The wording of the error that this one wraps, if it wraps one. -/
def sourceMessage? : ConvertError → Option String
  | parse e => some e.message
  | graph e => some e.message
  | conversion _ source => some source.message
  | _ => none

/-- The innermost reason, inside all failed constructs. -/
def root : ConvertError → ConvertError
  | conversion _ source => source.root
  | e => e

end ConvertError

end RigScript
