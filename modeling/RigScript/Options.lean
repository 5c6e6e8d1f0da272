/-!
# Options of a conversion

What counts as a script construct, where its script and its inputs are found, how the remainder
operator is approximated, and what becomes of the nodes of a construct that fails.

## Main definitions

* `RigScript.Rollback`: the fate of the nodes of a failed construct
* `RigScript.Options`: the options and their defaults
* `RigScript.Options.validate`: the rules they have to follow
-/

namespace RigScript

/-- What becomes of the nodes created for a construct whose conversion fails. -/
inductive Rollback where
  /-- They stay. -/
  | keepNodes
  /-- They are deleted; constructs converted earlier stay converted. -/
  | failedConstruct
deriving DecidableEq, Repr

/-- Options of a conversion. -/
structure Options where
  /-- The type name of script constructs. -/
  constructKind : String := "expression"
  /-- The attribute of a construct whose incoming connections make it live, and whose elements a
  script calls `.I[...]`. -/
  input : String := "input"
  /-- The attribute of a construct whose elements a script calls `.O[...]`. -/
  output : String := "output"
  /-- The attribute of a construct that holds its script. -/
  scriptAttribute : String := "expression"
  /-- How far below the divisor the ramp of a remainder ends. -/
  moduloEpsilon : Float := 1e-10
  /-- What becomes of the nodes of a failed construct. -/
  rollback : Rollback := .failedConstruct
deriving DecidableEq, Repr

/-- A rule that options fail to follow. -/
inductive OptionsFault where
  | emptyConstructKind
  | emptyPlugName
  | emptyScriptAttribute
  | badEpsilon
deriving DecidableEq, Repr

/-- The wording of a broken rule. -/
def OptionsFault.message : OptionsFault → String
  | emptyConstructKind => "construct_kind must not be empty"
  | emptyPlugName => "port names must not be empty"
  | emptyScriptAttribute => "script_attribute must not be empty"
  | badEpsilon => "modulo_epsilon must be positive and finite"

/-- The first rule that the options break, if any. -/
def Options.validate (o : Options) : Except OptionsFault Unit := do
  if o.constructKind.isEmpty then throw .emptyConstructKind
  if o.input.isEmpty || o.output.isEmpty then throw .emptyPlugName
  if o.scriptAttribute.isEmpty then throw .emptyScriptAttribute
  if !(o.moduloEpsilon.isFinite && o.moduloEpsilon > 0.0) then throw .badEpsilon

end RigScript
