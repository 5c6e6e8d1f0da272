import RigScript.ConvertError

/-!
# The plugs that paths stand for

A path `node.attribute` stands for that plug. A path that starts with a point belongs to the
construct whose script is being compiled: `.O[...]` and `.I[...]` are elements of its output and
input attributes, and any other one is an attribute of its own.

## Main definitions

* `RigScript.Context`: the construct and the options of a compilation
* `RigScript.Context.resolve`: the plug of a path
-/

namespace RigScript

/-- What the compilation of a script depends on. -/
structure Context where
  /-- The construct that the script belongs to. -/
  identity : String
  /-- The options of the conversion. -/
  options : Options

/-- The plug that a path stands for. -/
def Context.resolve (c : Context) (path : String) : Except ShapeFault Plug :=
  match path.toList with
  | ['.'] => .error (.noAttribute path)
  | '.' :: 'O' :: '[' :: index => .ok ⟨c.identity, c.options.output ++ "[" ++ String.ofList index⟩
  | '.' :: 'I' :: '[' :: index => .ok ⟨c.identity, c.options.input ++ "[" ++ String.ofList index⟩
  | '.' :: attr => .ok ⟨c.identity, String.ofList attr⟩
  | _ =>
    match Plug.parse? path with
    | some p => .ok p
    | none => .error (.malformedPath path)

end RigScript
