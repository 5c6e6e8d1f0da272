import RigScript.Graph.Basic

/-!
# The values of plugs

A connected plug has the value of its source. A plug that is the output of a computing node has
the value of the node's formula at its inputs. Any other plug has its stored value, read as a
number. A plug that is reached again while its own value is being computed depends on itself and
has no value.

The rule for one plug is a `Recipe`, which names the plugs that it needs. Only finitely many plugs
have recipes with needs, and the plugs under way are all different, so evaluation ends.

## Main definitions

* `RigScript.Recipe`: how the value of a plug comes about
* `RigScript.Graph.recipe`: the recipe of a plug
* `RigScript.Graph.evaluate`: the value of a plug
-/

namespace RigScript

/-- How the value of a plug comes about. -/
inductive Recipe where
  /-- It is stored. -/
  | stored (x : Float)
  /-- It is the value of another plug. -/
  | follow (source : Plug)
  /-- It is computed from one plug. -/
  | compute₁ (f : Float → Float) (a : Plug)
  /-- It is computed from two plugs. -/
  | compute₂ (f : Float → Float → Float) (a b : Plug)
  /-- It is computed from three plugs. -/
  | compute₃ (f : Float → Float → Float → Float) (a b c : Plug)

/-- The plugs that a recipe needs, in the order in which they are evaluated. -/
def Recipe.needs : Recipe → List Plug
  | stored _ => []
  | follow source => [source]
  | compute₁ _ a => [a]
  | compute₂ _ a b => [a, b]
  | compute₃ _ a b c => [a, b, c]

/-! ### Formulas -/

/-- The greater of two numbers, or the one that is a number. -/
def maxNumber (a b : Float) : Float :=
  if a.isNaN then b else if b.isNaN then a else if a < b then b else a

/-- The smaller of two numbers, or the one that is a number. -/
def minNumber (a b : Float) : Float :=
  if a.isNaN then b else if b.isNaN then a else if b < a then b else a

/-- A value held between two bounds, of which the upper one prevails. -/
def clampNumber (x low high : Float) : Float :=
  minNumber (maxNumber x low) high

/-- The first vector component of the quaternion of three rotations in radians. -/
def quaternionX (x y z : Float) : Float :=
  let (x, y, z) := (x / 2.0, y / 2.0, z / 2.0)
  x.sin * y.cos * z.cos - x.cos * y.sin * z.sin

/-- The scalar component of the quaternion of three rotations in radians. -/
def quaternionW (x y z : Float) : Float :=
  let (x, y, z) := (x / 2.0, y / 2.0, z / 2.0)
  x.cos * y.cos * z.cos + x.sin * y.sin * z.sin

namespace Node

/-- Whether the operation stored on a node selects the second formula of its kind: as an integer
it is two. -/
def selectsSecond (n : Node) (operation : String) : Bool :=
  match n.attributes[operation]?.bind Value.toFloat? with
  | some x => 2.0 ≤ x && x < 3.0
  | none => false

/-- The formula of an output of a computing node, over the inputs of that node. -/
def formula? (n : Node) (p : Plug) : Option Recipe :=
  let input (attr : String) : Plug := ⟨p.node, attr⟩
  match n.kind with
  | .primitive .multiplyDivide =>
    if p.attr = MultiplyDivide.output then
      some (.compute₂ (if n.selectsSecond MultiplyDivide.operation then (· / ·) else (· * ·))
        (input MultiplyDivide.input1) (input MultiplyDivide.input2))
    else none
  | .primitive .plusMinusAverage =>
    if p.attr = PlusMinusAverage.output then
      some (.compute₂ (if n.selectsSecond PlusMinusAverage.operation then (· - ·) else (· + ·))
        (input PlusMinusAverage.input1) (input PlusMinusAverage.input2))
    else none
  | .primitive .clamp =>
    if p.attr = Clamp.output then
      some (.compute₃ clampNumber (input Clamp.input) (input Clamp.min) (input Clamp.max))
    else none
  | .primitive .rampCurve =>
    if p.attr = RampCurve.output then some (.compute₁ n.curve.sample (input RampCurve.input))
    else none
  | .primitive .multDoubleLinear =>
    if p.attr = MultDoubleLinear.output then
      some (.compute₂ (· * ·) (input MultDoubleLinear.input1) (input MultDoubleLinear.input2))
    else none
  | .primitive .eulerToQuat =>
    if p.attr = EulerToQuat.quatX then
      some (.compute₃ quaternionX (input EulerToQuat.rotateX) (input EulerToQuat.rotateY)
        (input EulerToQuat.rotateZ))
    else if p.attr = EulerToQuat.quatW then
      some (.compute₃ quaternionW (input EulerToQuat.rotateX) (input EulerToQuat.rotateY)
        (input EulerToQuat.rotateZ))
    else none
  | .other _ => none

end Node

/-- The outputs of a kind of node. -/
def NodeKind.outputs : NodeKind → List String
  | primitive .multiplyDivide => [MultiplyDivide.output]
  | primitive .plusMinusAverage => [PlusMinusAverage.output]
  | primitive .clamp => [Clamp.output]
  | primitive .rampCurve => [RampCurve.output]
  | primitive .multDoubleLinear => [MultDoubleLinear.output]
  | primitive .eulerToQuat => [EulerToQuat.quatX, EulerToQuat.quatW]
  | other _ => []

namespace Node

/-- Only the outputs of a kind have formulas. -/
theorem mem_outputs_of_formula? {n : Node} {p : Plug} {r : Recipe} (h : n.formula? p = some r) :
    p.attr ∈ n.kind.outputs := by
  unfold formula? at h
  split at h
  case h_6 k hk =>
    rw [hk]
    split at h
    · next ha => simp [NodeKind.outputs, ha]
    · split at h
      · next ha => simp [NodeKind.outputs, ha]
      · cases h
  case h_7 => cases h
  all_goals
    next k hk =>
      rw [hk]
      split at h
      · next ha => simp [NodeKind.outputs, ha]
      · cases h

end Node

namespace Graph

/-- The recipe of a plug: a connection comes first, then the formula of its node, then what is
stored. -/
def recipe (g : Graph) (p : Plug) : Except GraphError Recipe :=
  match g.connections[p]? with
  | some source => .ok (.follow source)
  | none => do
    let n ← g.node p.node
    match n.formula? p with
    | some r => return r
    | none =>
      match n.attributes[p.attr]? with
      | none => throw (.unknownAttribute p)
      | some v =>
        match v.toFloat? with
        | some x => return .stored x
        | none => throw (.evaluation p (.notNumeric v.kind))

/-! ### Termination -/

/-- The plugs whose recipes need other plugs: those with a connection, and the outputs of the
nodes. -/
def dependentPlugs (g : Graph) : List Plug :=
  g.connections.keys ++
    g.nodes.toList.flatMap fun e => e.2.kind.outputs.map fun attr => ⟨e.1, attr⟩

/-- A plug whose recipe needs other plugs is among the dependent ones. -/
theorem mem_dependentPlugs {g : Graph} {p : Plug} {r : Recipe} (h : g.recipe p = .ok r)
    (hr : r.needs ≠ []) : p ∈ g.dependentPlugs := by
  unfold recipe at h
  simp only [dependentPlugs, List.mem_append]
  split at h
  case h_1 source hs =>
    left
    exact Std.ExtTreeMap.mem_keys.2
      (Std.ExtTreeMap.mem_iff_isSome_getElem?.2 (by simp [hs]))
  case h_2 =>
    right
    simp only [node, bind, Except.bind] at h
    split at h
    · cases h
    · next n hn =>
      split at hn
      · next m hm =>
        cases hn
        split at h
        · next r' hf =>
          cases h
          exact List.mem_flatMap.2 ⟨(p.node, n),
            Std.ExtTreeMap.mem_toList_iff_getElem?_eq_some.2 hm,
            List.mem_map.2 ⟨p.attr, Node.mem_outputs_of_formula? hf, rfl⟩⟩
        · split at h
          · cases h
          · split at h
            · cases h
              exact absurd rfl hr
            · cases h
      · cases hn

/-- How many dependent plugs are not under way. -/
def remaining (g : Graph) (path : List Plug) : Nat :=
  (g.dependentPlugs.filter fun p => p ∉ path).length

/-- Taking a dependent plug under way leaves fewer. -/
theorem remaining_cons_lt {g : Graph} {path : List Plug} {p : Plug} (hp : p ∉ path)
    (hd : p ∈ g.dependentPlugs) : g.remaining (p :: path) < g.remaining path := by
  unfold remaining
  have hsub : (g.dependentPlugs.filter fun q => q ∉ p :: path) =
      (g.dependentPlugs.filter fun q => q ∉ path).filter fun q => q ≠ p := by
    rw [List.filter_filter]
    congr 1
    funext q
    simp [List.mem_cons, not_or]
  rw [hsub, List.length_filter_lt_length_iff_exists]
  exact ⟨p, List.mem_filter.2 ⟨hd, by simpa using hp⟩, by simp⟩

/-! ### Evaluation -/

/-- The value of a plug while the plugs of `path` are under way. Passing the path down is the same
as keeping one set of plugs under way, into which a plug is put before its evaluation and out of
which it is taken afterwards. It is taken out whether it was given a value or not, and a plug that
is met again fails before it is put in, so the set is restored on every exit, and every need of a
recipe is evaluated with just the plugs above it under way. -/
def evaluateFrom (g : Graph) (path : List Plug) (p : Plug) : Except GraphError Float :=
  if _hp : p ∈ path then .error (.evaluation p .cycle)
  else
    match _hr : g.recipe p with
    | .error e => .error e
    | .ok (.stored x) => .ok x
    | .ok (.follow source) => g.evaluateFrom (p :: path) source
    | .ok (.compute₁ f a) => do
      let x ← g.evaluateFrom (p :: path) a
      return f x
    | .ok (.compute₂ f a b) => do
      let x ← g.evaluateFrom (p :: path) a
      let y ← g.evaluateFrom (p :: path) b
      return f x y
    | .ok (.compute₃ f a b c) => do
      let x ← g.evaluateFrom (p :: path) a
      let y ← g.evaluateFrom (p :: path) b
      let z ← g.evaluateFrom (p :: path) c
      return f x y z
termination_by g.remaining path
decreasing_by
  all_goals exact remaining_cons_lt _hp (mem_dependentPlugs _hr (by simp [Recipe.needs]))

/-- The value of a plug. -/
def evaluate (g : Graph) (p : Plug) : Except GraphError Float :=
  g.evaluateFrom [] p

end Graph

end RigScript
