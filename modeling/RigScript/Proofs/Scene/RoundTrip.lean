import RigScript.Proofs.Graph.Requests
import RigScript.Proofs.Plug
import RigScript.Scene

/-!
# Scenes and their documents

Numbers, texts, plugs, kinds and values are each read from documents and written to them in a way of
their own. For each there is a condition that says which values documents describe, and a value that
meets it is read back from the document that it is written as. Arrays, optional fields and records
hand these conditions on, and so a scene that was read survives being written.

Not every scene is one that a document describes: a number may be infinite, the name of a node in a
connection may have a point, and a kind may go by the type name of a kind that computes.

## Main definitions

* `RigScript.Json.Format`: a way of reading and writing values
* `RigScript.Scene.Describable`: the scenes that documents describe

## Main results

* `RigScript.Json.Format.items`: an array is a format if its items are
* `RigScript.NodeKind.ofHostType_hostType_iff`: the kinds that their type names stand for
* `RigScript.Scene.format`: documents describe the describable scenes
* `RigScript.Scene.document_round_trip`: **a scene that was read survives being written**
-/

namespace RigScript

namespace Json

/-- A **format** for the values that meet a condition: what is read from a document meets it, and
what meets it is read back from the document that it is written as. -/
structure Format {α : Type} (read : Json → Option α) (write : α → Json) (P : α → Prop) : Prop where
  /-- What a document describes meets the condition. -/
  sound : ∀ {j a}, read j = some a → P a
  /-- What meets the condition is described by the document that it is written as. -/
  complete : ∀ {a}, P a → read (write a) = some a

/-! ### Numbers and texts -/

theorem format_text : Format toText? string fun _ => True :=
  ⟨fun _ => trivial, fun _ => rfl⟩

theorem format_float : Format toFloat? float fun x => x.isFinite = true where
  sound {j x} h := by
    simp only [toFloat?] at h
    split at h
    · exact (Option.filter_eq_some_iff.1 h).2
    · exact (Option.filter_eq_some_iff.1 h).2
    · cases h
  complete h := Option.filter_eq_some_iff.2 ⟨rfl, h⟩

theorem format_int64 : Format toInt64? (fun i => integer i.toInt) fun _ => True where
  sound _ := trivial
  complete {i} _ := by
    have hlower := i.le_toInt
    have hupper := i.toInt_lt
    rw [toInt64?, if_pos (by omega), Int64.ofInt_toInt]

/-! ### Arrays and optional fields -/

variable {α : Type} {read : Json → Option α} {write : α → Json} {P : α → Prop}

/-- What is read from a list item by item comes from the items. -/
theorem exists_of_mem_mapM {β : Type} {f : β → Option α} {xs : List β} {ys : List α}
    (h : xs.mapM f = some ys) {y : α} (hy : y ∈ ys) : ∃ x ∈ xs, f x = some y := by
  induction xs generalizing ys with
  | nil =>
      cases h
      cases hy
  | cons x xs ih =>
      simp only [List.mapM_cons, Option.bind_eq_bind, Option.bind_eq_some_iff] at h
      obtain ⟨z, hz, zs, hzs, h⟩ := h
      cases h
      obtain rfl | hy := List.mem_cons.1 hy
      · exact ⟨x, List.mem_cons_self, hz⟩
      · obtain ⟨x', hx', heq⟩ := ih hzs hy
        exact ⟨x', List.mem_cons_of_mem x hx', heq⟩

/-- A list is read back item by item if all its items are. -/
theorem mapM_map_eq_some {β : Type} {f : β → Option α} {g : α → β} {ys : List α}
    (h : ∀ y ∈ ys, f (g y) = some y) : (ys.map g).mapM f = some ys := by
  induction ys with
  | nil => rfl
  | cons y ys ih =>
      rw [List.map_cons, List.mapM_cons, h y List.mem_cons_self,
        ih fun z hz => h z (List.mem_cons_of_mem y hz)]
      rfl

/-- **An array is a format if its items are.** -/
theorem Format.items (h : Format read write P) :
    Format (itemsOfJson? read) (fun xs => array (xs.map write)) fun xs => ∀ x ∈ xs, P x where
  sound hread x hx := by
    obtain ⟨items, -, hitems⟩ := Option.bind_eq_some_iff.1 hread
    obtain ⟨j, -, hj⟩ := exists_of_mem_mapM hitems hx
    exact h.sound hj
  complete hxs := mapM_map_eq_some fun x hx => h.complete (hxs x hx)

/-- An optional field meets the condition of its format if its default does. -/
theorem Format.sound_orDefault (h : Format read write P) {a b : α} {field : Option Json}
    (hdefault : P a) (hread : orDefault read a field = some b) : P b := by
  cases field with
  | none => exact Option.some.inj hread ▸ hdefault
  | some j => exact h.sound hread

end Json

/-! ### Values -/

/-- Whether all numbers in a value are finite. -/
def Value.isFinite : Value → Bool
  | double x => x.isFinite
  | doubleLinear x => x.isFinite
  | double3 x y z => x.isFinite && y.isFinite && z.isFinite
  | _ => true

theorem Value.format : Json.Format Value.ofJson? Value.toJson fun v => v.isFinite = true where
  sound {j v} h := by
    simp only [Value.ofJson?] at h
    split at h
    · split_ifs at h
      · obtain ⟨x, hx, rfl⟩ := Option.map_eq_some_iff.1 h
        exact Json.format_float.sound hx
      · obtain ⟨x, hx, rfl⟩ := Option.map_eq_some_iff.1 h
        exact Json.format_float.sound hx
      · obtain ⟨i, -, rfl⟩ := Option.map_eq_some_iff.1 h
        rfl
      · obtain ⟨b, -, rfl⟩ := Option.map_eq_some_iff.1 h
        rfl
      · obtain ⟨s, -, rfl⟩ := Option.map_eq_some_iff.1 h
        rfl
      · split at h
        · simp only [Option.bind_eq_bind, Option.bind_eq_some_iff] at h
          obtain ⟨x, hx, y, hy, z, hz, h⟩ := h
          cases h
          simp [Value.isFinite, Json.format_float.sound hx, Json.format_float.sound hy,
            Json.format_float.sound hz]
        · cases h
    · cases h
  complete {v} h := by
    cases v with
    | double x => exact congrArg (Option.map Value.double) (Json.format_float.complete h)
    | doubleLinear x =>
        exact congrArg (Option.map Value.doubleLinear) (Json.format_float.complete h)
    | int i => exact congrArg (Option.map Value.int) (Json.format_int64.complete trivial)
    | bool b => rfl
    | string s => rfl
    | double3 x y z =>
        simp only [Value.isFinite, Bool.and_eq_true] at h
        simp [Value.toJson, Value.ofJson?, Json.format_float.complete h.1.1,
          Json.format_float.complete h.1.2, Json.format_float.complete h.2]

/-! ### Attributes -/

/-- A map is made up of its entries. -/
theorem ofList_toList {α : Type} (m : Std.ExtTreeMap String α) :
    Std.ExtTreeMap.ofList m.toList = m := by
  refine Std.ExtTreeMap.ext_getElem? fun name => ?_
  cases hm : m[name]? with
  | some v =>
      exact Std.ExtTreeMap.getElem?_ofList_of_mem Std.ReflCmp.compare_self
        Std.ExtTreeMap.distinct_keys_toList (Std.ExtTreeMap.mem_toList_iff_getElem?_eq_some.2 hm)
  | none =>
      refine Option.eq_none_iff_forall_ne_some.2 fun v hv => ?_
      have := Std.ExtTreeMap.mem_toList_iff_getElem?_eq_some.1 (mem_of_getElem?_ofList hv)
      rw [hm] at this
      cases this

/-- The document of the attributes of a node. -/
theorem format_attributes :
    Json.Format attributesOfJson? (fun m => .object (m.toList.map fun e => (e.1, e.2.toJson)))
      fun m => ∀ (attr : String) (v : Value), m[attr]? = some v → v.isFinite = true where
  sound {j m} h attr v hv := by
    cases j with
    | object fields =>
        obtain ⟨entries, hentries, h⟩ := Option.bind_eq_some_iff.1 h
        cases h
        obtain ⟨f, -, hf⟩ := Json.exists_of_mem_mapM hentries (mem_of_getElem?_ofList hv)
        obtain ⟨w, hw, heq⟩ := Option.map_eq_some_iff.1 hf
        cases heq
        exact Value.format.sound hw
    | _ => cases h
  complete {m} h := by
    have hentries : (m.toList.map fun e => (e.1, e.2.toJson)).mapM
        (fun f => (Value.ofJson? f.2).map fun v => (f.1, v)) = some m.toList := by
      refine Json.mapM_map_eq_some fun e he => ?_
      have := h e.1 e.2 (Std.ExtTreeMap.mem_toList_iff_getElem?_eq_some.1 he)
      exact congrArg (Option.map (e.1, ·)) (Value.format.complete this)
    simp only [attributesOfJson?, hentries]
    exact congrArg some (ofList_toList m)

/-! ### Plugs and kinds -/

theorem Plug.format : Json.Format Plug.ofJson? Plug.toJson Plug.Writable where
  sound h := by
    obtain ⟨path, -, hp⟩ := Option.bind_eq_some_iff.1 h
    exact (Plug.parse?_eq_some_iff.1 hp).1
  complete h := h.parse?_text

theorem format_connection :
    Json.Format connectionOfJson? (fun c => .array [c.1.toJson, c.2.toJson])
      fun c => c.1.Writable ∧ c.2.Writable where
  sound {j c} h := by
    simp only [connectionOfJson?] at h
    split at h
    · simp only [Option.bind_eq_bind, Option.bind_eq_some_iff] at h
      obtain ⟨p, hp, q, hq, h⟩ := h
      cases h
      exact ⟨Plug.format.sound hp, Plug.format.sound hq⟩
    · cases h
  complete h := by
    simp [connectionOfJson?, Plug.format.complete h.1, Plug.format.complete h.2]

namespace NodeKind

/-- Reading a type name gives a kind of that name. -/
theorem hostType_ofHostType (t : String) : (ofHostType t).hostType = t := by
  simp only [ofHostType]
  split
  · next p hp =>
    have hname := List.find?_some hp
    exact beq_iff_eq.1 hname
  · rfl

/-- A kind is **plain** when it does not go by the type name of a kind that computes without being
that kind. -/
def Plain (kind : NodeKind) : Prop :=
  ∀ p : Primitive, kind ≠ other p.hostType

/-- **The kinds that their type names stand for** are the plain ones. -/
theorem ofHostType_hostType_iff {kind : NodeKind} :
    ofHostType kind.hostType = kind ↔ kind.Plain := by
  cases kind with
  | primitive p =>
      constructor
      · exact fun _ q => nofun
      · intro _
        cases p <;> decide
  | other t =>
      constructor
      · rintro h p heq
        cases heq
        cases p <;> exact absurd h (by decide)
      · intro h
        have hnone : Primitive.all.find? (fun p => p.hostType == t) = none := by
          refine List.find?_eq_none.2 fun p _ hp => h p ?_
          rw [beq_iff_eq.1 hp]
        simp only [ofHostType, hostType, hnone]

end NodeKind

/-! ### Nodes and scenes -/

/-- A description of a node that documents give. -/
structure NodeDef.Describable (n : NodeDef) : Prop where
  /-- The kind is the one that its type name stands for. -/
  kind : n.kind.Plain
  /-- The numbers are finite. -/
  attributes : ∀ (attr : String) (v : Value), n.attributes[attr]? = some v → v.isFinite = true

/-- A scene that documents describe. -/
structure Scene.Describable (s : Scene) : Prop where
  /-- The nodes have descriptions. -/
  nodes : ∀ n ∈ s.nodes, n.Describable
  /-- The connections have written forms. -/
  connections : ∀ c ∈ s.connections, c.1.Writable ∧ c.2.Writable

theorem NodeDef.format : Json.Format NodeDef.ofJson? NodeDef.toJson NodeDef.Describable where
  sound {j n} h := by
    simp only [NodeDef.ofJson?, Option.bind_eq_bind, Option.bind_eq_some_iff] at h
    obtain ⟨field, -, -, -, name, -, -, -, hostType, -, attributes, hattributes, locked, -, h⟩ := h
    cases h
    refine ⟨?_, format_attributes.sound_orDefault (by simp) hattributes⟩
    exact NodeKind.ofHostType_hostType_iff.1 (by rw [NodeKind.hostType_ofHostType])
  complete {n} h := by
    have hkind := NodeKind.ofHostType_hostType_iff.2 h.kind
    have hattributes := format_attributes.complete h.attributes
    have hlocked : textsOfJson? (.array (n.locked.map .string)) = some n.locked :=
      Json.format_text.items.complete fun _ _ => trivial
    simp [NodeDef.ofJson?, NodeDef.toJson, Json.record?, List.lookup_cons, Json.orDefault,
      Json.toText?, hkind, hattributes, hlocked]

theorem Scene.format : Json.Format Scene.ofJson? Scene.toJson Scene.Describable where
  sound {j s} h := by
    simp only [Scene.ofJson?, Option.bind_eq_bind, Option.bind_eq_some_iff] at h
    obtain ⟨field, -, nodes, hnodes, connections, hconnections, selection, -, h⟩ := h
    cases h
    exact ⟨NodeDef.format.items.sound_orDefault (by simp) hnodes,
      format_connection.items.sound_orDefault (by simp) hconnections⟩
  complete {s} h := by
    have hnodes := NodeDef.format.items.complete h.nodes
    have hconnections := format_connection.items.complete h.connections
    have hselection : textsOfJson? (.array (s.selection.map .string)) = some s.selection :=
      Json.format_text.items.complete fun _ _ => trivial
    simp [Scene.ofJson?, Scene.toJson, Json.record?, List.lookup_cons, Json.orDefault, hnodes,
      hconnections, hselection]

/-- **A scene that was read survives being written**: the document that it is written as describes
the same scene, whatever the document looked like that it was read from. The scenes that can be read
are those with finite numbers, plugs that have a written form, and kinds that their type names stand
for. -/
theorem Scene.document_round_trip (s : Scene) :
    (∀ j, Scene.ofJson? j = some s → Scene.ofJson? s.toJson = some s) ∧
      ((∃ j, Scene.ofJson? j = some s) ↔ s.Describable) := by
  refine ⟨fun j h => Scene.format.complete (Scene.format.sound h), ?_, ?_⟩
  · rintro ⟨j, h⟩
    exact Scene.format.sound h
  · exact fun h => ⟨s.toJson, Scene.format.complete h⟩

/-- A document with a node given as an array, a node whose name has a point and a bracket, a name
that is repeated among its attributes, a field that is passed over, plugs with several points, and
no selection. -/
def irregularDocument : Json :=
  .object
    [("connections", .array [.array [.string "ramp1.output", .string "a.b[0].c[1].d"]]),
      ("comment", .unreadable),
      ("nodes", .array
        [.array [.string "ramp1", .string "animCurveUU"],
          .object
            [("type", .string "animCurve"), ("name", .string "b.c[0]"),
              ("attributes", .object
                [("size", .object [("int", .integer (-4))]),
                  ("size", .object [("double", .integer 3)])])]])]

/-- The document is read, with defaults for what is missing, and what was read survives. -/
theorem Scene.document_round_trip_irregular :
    ∃ s, Scene.ofJson? irregularDocument = some s ∧ Scene.ofJson? s.toJson = some s ∧
      s.nodes.map NodeDef.name = ["ramp1", "b.c[0]"] ∧
      s.nodes.map NodeDef.kind = [.primitive .rampCurve, .other "animCurve"] ∧
      s.connections = [(⟨"ramp1", "output"⟩, ⟨"a", "b[0].c[1].d"⟩)] ∧ s.selection = [] := by
  obtain ⟨s, hs⟩ : ∃ s, Scene.ofJson? irregularDocument = some s := ⟨_, rfl⟩
  refine ⟨s, hs, (Scene.document_round_trip s).1 _ hs, ?_⟩
  cases hs
  decide

end RigScript
