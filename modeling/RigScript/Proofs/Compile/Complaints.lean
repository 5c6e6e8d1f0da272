import RigScript.Proofs.Compile.Compilable
import RigScript.Proofs.Graph.Journal
import RigScript.Proofs.Plug
import RigScript.Proofs.Program.Parsing
import RigScript.Proofs.Token.Scanning

/-!
# What a compilation complains about

Whatever the host answers, a construction fails for one of a few reasons: the host refused, an
operation has no node, a target holds no number, or a path or a call has the wrong shape. The paths
and the calls are those of the expressions that are built, so the last reason can be read off them.
Operands are lowered only for calls whose number of arguments was checked, and so the shapes that
are told apart when a function is applied are all there are.

Paths that come out of a script always have the right shape. The lexer reads a path only where a
point is followed by a letter or an underscore, and no point stands before that one. Wrong shapes in
scripts are therefore wrong numbers of arguments.

## Main definitions

* `RigScript.Expr.calls`, `RigScript.Program.calls`: the calls of a script
* `RigScript.Complaint`: the reasons for which a construction fails
* `RigScript.Build.EndsWithin`: where a construction may end, whichever course it takes
* `RigScript.Context.Names`: the plug that a path names

## Main results

* `RigScript.Build.endsWithin_program`: a construction fails for one of the reasons
* `RigScript.Context.resolve_of_spells`: what spells a path resolves
* `RigScript.Program.Derives.path_mem`: the paths of a program are among its tokens
* `RigScript.compileScript_shape_faults`: **the shapes of scripts are those that are built**
-/

namespace RigScript

/-! ### Calls and paths -/

mutual

/-- The calls of an expression, each with the number of its arguments. -/
def Expr.calls : Expr → List (String × Nat)
  | .number _ => []
  | .path _ => []
  | .unary _ e => e.calls
  | .binary _ left right => left.calls ++ right.calls
  | .call name args => (name, args.length) :: Expr.callsAll args
  | .brackets e => e.calls

/-- The calls of several expressions. -/
def Expr.callsAll : List Expr → List (String × Nat)
  | [] => []
  | e :: es => e.calls ++ Expr.callsAll es

end

/-- The calls of a program. -/
def Program.calls (p : Program) : List (String × Nat) :=
  p.exprs.flatMap Expr.calls

/-- The paths of a sentence. -/
def Sentence.paths (s : Sentence) : List String :=
  s.target :: s.value.paths

/-- The paths of a segment. -/
def Segment.paths : Segment → List String
  | .sentence s => s.paths
  | .condition test thenBlock elseBlock =>
    test.paths ++ (thenBlock.flatMap Sentence.paths ++ elseBlock.flatMap Sentence.paths)

/-- The paths of a program. -/
def Program.paths (p : Program) : List String :=
  p.segments.flatMap Segment.paths

/-! ### Complaints -/

/-- **What a construction complains about**, given the paths and the calls of what is built. -/
inductive Complaint (c : Context) (paths : List String) (calls : List (String × Nat)) :
    ConvertError → Prop
  /-- The host refused a request. -/
  | refused (e : GraphError) : Complaint c paths calls (.graph e)
  /-- No node does what is asked for. -/
  | unsupported (u : Unsupported) : Complaint c paths calls (.unsupported u)
  /-- An operand has to be a number. -/
  | nonConstant (op : BinaryOp) : Complaint c paths calls (.nonConstant op)
  /-- A target holds no number. -/
  | attributeType (plug : Plug) (kind : AttrKind) (expected : String) :
      Complaint c paths calls (.attributeType plug kind expected)
  /-- A call names no function. -/
  | unknownFunction {name : String} {count : Nat} : (name, count) ∈ calls →
      Builtin.ofName? name = none → Complaint c paths calls (.unknownFunction name)
  /-- A call has the wrong number of arguments. -/
  | arity {name : String} {count : Nat} {f : Builtin} : (name, count) ∈ calls →
      Builtin.ofName? name = some f → count ≠ f.arity →
      Complaint c paths calls (.shape (.arity name f.arity count))
  /-- A path stands for no plug. -/
  | unresolved {path : String} {fault : ShapeFault} : path ∈ paths →
      c.resolve path = .error fault → Complaint c paths calls (.shape fault)

/-- Whether an outcome is a result with a property or a failure of a kind. -/
def Within {α : Type} (post : α → Prop) (fault : ConvertError → Prop) :
    Except ConvertError α → Prop
  | .ok a => post a
  | .error e => fault e

namespace Build

section EndsWithin

variable {α β : Type} {post : α → Prop} {fault : ConvertError → Prop}

/-- A construction **ends within** given bounds, whichever course it takes: a property holds of its
result, or it fails for a reason of a kind. -/
def EndsWithin (b : Build α) (post : α → Prop) (fault : ConvertError → Prop) : Prop :=
  ∀ ⦃names events out⦄, (b.run.run names).Course events out → Within post fault out.1

namespace EndsWithin

theorem pure {a : α} (h : post a) : EndsWithin (pure a) post fault := by
  intro names events out hcourse
  obtain ⟨rfl, rfl⟩ := Dialogue.course_done.1 hcourse
  exact h

theorem throw {e : ConvertError} (h : fault e) : EndsWithin (throw e : Build α) post fault := by
  intro names events out hcourse
  obtain ⟨rfl, rfl⟩ := Dialogue.course_done.1 hcourse
  exact h

theorem ask {r : Request} (hrefused : ∀ e, fault (.graph e)) :
    EndsWithin (ask r) (fun _ => True) fault := by
  intro names events out hcourse
  obtain ⟨reply, rest, rfl, hdone⟩ := Dialogue.course_ask.1 hcourse
  cases reply with
  | ok reply =>
      obtain ⟨rfl, rfl⟩ := Dialogue.course_done.1 hdone
      exact trivial
  | error e =>
      obtain ⟨rfl, rfl⟩ := Dialogue.course_done.1 hdone
      exact hrefused e

/-- The second construction begins with a result of the first, of which the property holds. -/
theorem bind {mid : α → Prop} {post : β → Prop} {b : Build α} {f : α → Build β}
    (hb : EndsWithin b mid fault) (hf : ∀ a, mid a → EndsWithin (f a) post fault) :
    EndsWithin (b >>= f) post fault := by
  intro names events out hcourse
  simp only [ExceptT.run_bind, StateT.run_bind, Dialogue.bind_eq, Dialogue.course_bind] at hcourse
  obtain ⟨before, after, ⟨outcome, names'⟩, rfl, hfirst, hrest⟩ := hcourse
  cases outcome with
  | error e =>
      obtain ⟨rfl, rfl⟩ := Dialogue.course_done.1 hrest
      exact hb hfirst
  | ok a => exact hf a (hb hfirst) hrest

/-- The second construction begins with any result of the first. -/
theorem andThen {post : β → Prop} {b : Build α} {f : α → Build β}
    (hb : EndsWithin b (fun _ => True) fault) (hf : ∀ a, EndsWithin (f a) post fault) :
    EndsWithin (b >>= f) post fault :=
  hb.bind fun a _ => hf a

theorem create (kind : NodeKind) (hrefused : ∀ e, fault (.graph e)) :
    EndsWithin (create kind) (fun _ => True) fault := by
  refine .andThen (.ask hrefused) fun name names events out hcourse => ?_
  obtain ⟨rfl, rfl⟩ := Dialogue.course_done.1 hcourse
  exact trivial

end EndsWithin

theorem endsWithin_fitAll (node : String) (fs : List Fitting) (hrefused : ∀ e, fault (.graph e)) :
    EndsWithin (fitAll node fs) (fun _ => True) fault := by
  induction fs with
  | nil => exact .pure trivial
  | cons f fs ih =>
      refine .andThen ?_ fun _ => ih
      cases f <;> exact .ask hrefused

/-- A blueprint is carried out unless the host refuses. -/
theorem endsWithin_build (b : Blueprint) (hrefused : ∀ e, fault (.graph e)) :
    EndsWithin b.build (fun _ => True) fault :=
  .andThen (.create _ hrefused) fun node =>
    .andThen (endsWithin_fitAll node b.fittings hrefused) fun _ => .pure trivial

end EndsWithin

section Complaints

variable {c : Context} {paths : List String} {calls : List (String × Nat)}

theorem endsWithin_ask (r : Request) :
    EndsWithin (ask r) (fun _ => True) (Complaint c paths calls) :=
  .ask .refused

theorem endsWithin_combine (op : BinaryOp) (a b : Operand) :
    EndsWithin (combine c op a b) (fun _ => True) (Complaint c paths calls) := by
  rw [combine_eq]
  cases op with
  | equal => exact .throw (.unsupported _)
  | unequal => exact .throw (.unsupported _)
  | modulo =>
      cases b with
      | plug p => exact .throw (.nonConstant _)
      | constant divisor =>
          rw [BinaryOp.blueprint]
          split
          · exact .throw (.unsupported _)
          · exact endsWithin_build _ .refused
  | _ => exact endsWithin_build _ .refused

theorem endsWithin_negate (a : Operand) :
    EndsWithin (negate a) (fun _ => True) (Complaint c paths calls) := by
  cases a with
  | constant x => exact .pure trivial
  | plug p =>
      rw [negate, multiplyDivide_eq]
      exact endsWithin_build _ .refused

/-- **A function is applied to as many operands as it has arguments**, so that no other shape is
left. -/
theorem endsWithin_apply (name : String) {f : Builtin} {operands : List Operand}
    (h : operands.length = f.arity) :
    EndsWithin (apply name f operands) (fun _ => True) (Complaint c paths calls) := by
  unfold apply
  split
  · exact boundedAbove_eq _ _ ▸ endsWithin_build _ .refused
  · exact boundedBelow_eq _ _ ▸ endsWithin_build _ .refused
  · exact sine_eq _ ▸ .andThen (endsWithin_build _ .refused) fun twice =>
      endsWithin_build _ .refused
  · next hmin hmax hsin =>
    -- The number of operands leaves none but the shapes above.
    exfalso
    cases f with
    | min =>
        obtain ⟨value, bound, rfl⟩ := List.length_eq_two.1 h
        exact hmin value bound rfl rfl
    | max =>
        obtain ⟨value, bound, rfl⟩ := List.length_eq_two.1 h
        exact hmax value bound rfl rfl
    | sin =>
        obtain ⟨angle, rfl⟩ := List.length_eq_one_iff.1 h
        exact hsin angle rfl rfl

theorem endsWithin_checkCall {name : String} {count : Nat} (h : (name, count) ∈ calls) :
    EndsWithin (checkCall name count) (fun f => count = f.arity) (Complaint c paths calls) := by
  unfold checkCall
  split
  · next hnone => exact .throw (.unknownFunction h hnone)
  · next f hf =>
    split
    · next hcount => exact .pure hcount
    · next hcount => exact .throw (.arity h hf hcount)

theorem endsWithin_resolve {path : String} (h : path ∈ paths) :
    EndsWithin (resolve c path) (fun _ => True) (Complaint c paths calls) := by
  unfold resolve
  split
  · exact .pure trivial
  · next fault hfault => exact .throw (.unresolved h hfault)

mutual

theorem endsWithin_lower (e : Expr) (hpaths : e.paths ⊆ paths) (hcalls : e.calls ⊆ calls) :
    EndsWithin (lower c e) (fun _ => True) (Complaint c paths calls) := by
  match e with
  | .number x => exact .pure trivial
  | .path text =>
      exact .andThen (endsWithin_resolve (hpaths (by simp [Expr.paths]))) fun _ => .pure trivial
  | .brackets e => exact endsWithin_lower e hpaths hcalls
  | .unary .plus e => exact endsWithin_lower e hpaths hcalls
  | .unary .minus e =>
      exact .andThen (endsWithin_lower e hpaths hcalls) fun a => endsWithin_negate a
  | .binary op left right =>
      rw [Expr.paths, List.append_subset] at hpaths
      rw [Expr.calls, List.append_subset] at hcalls
      have hboth : EndsWithin (do
          let a ← lower c left
          let b ← lower c right
          combine c op a b) (fun _ => True) (Complaint c paths calls) :=
        .andThen (endsWithin_lower left hpaths.1 hcalls.1) fun a =>
          .andThen (endsWithin_lower right hpaths.2 hcalls.2) fun b => endsWithin_combine op a b
      cases op with
      | equal => exact .throw (.unsupported _)
      | unequal => exact .throw (.unsupported _)
      | _ => exact hboth
  | .call name args =>
      rw [Expr.calls, List.cons_subset] at hcalls
      refine .bind (endsWithin_checkCall hcalls.1) fun f hf => ?_
      refine .bind (endsWithin_lowerAll args hpaths hcalls.2) fun operands hoperands => ?_
      exact endsWithin_apply name (hoperands.trans hf)

/-- As many operands come out as there are expressions. -/
theorem endsWithin_lowerAll (es : List Expr) (hpaths : Expr.pathsAll es ⊆ paths)
    (hcalls : Expr.callsAll es ⊆ calls) :
    EndsWithin (lowerAll c es) (fun operands => operands.length = es.length)
      (Complaint c paths calls) := by
  match es with
  | [] => exact .pure rfl
  | e :: es =>
      rw [Expr.pathsAll, List.append_subset] at hpaths
      rw [Expr.callsAll, List.append_subset] at hcalls
      refine .andThen (endsWithin_lower e hpaths.1 hcalls.1) fun a => ?_
      refine .bind (endsWithin_lowerAll es hpaths.2 hcalls.2) fun as has => ?_
      exact .pure (congrArg Nat.succ has)

end

theorem endsWithin_sentence (s : Sentence) (hpaths : s.paths ⊆ paths)
    (hcalls : s.value.calls ⊆ calls) :
    EndsWithin (sentence c s) (fun _ => True) (Complaint c paths calls) := by
  rw [Sentence.paths, List.cons_subset] at hpaths
  refine .andThen ?_ fun dest => ?_
  · refine .andThen (endsWithin_resolve hpaths.1) fun plug =>
      .andThen (endsWithin_ask _) fun v => ?_
    split
    · exact .pure trivial
    · exact .throw (.attributeType _ _ _)
  · refine .andThen (endsWithin_lower s.value hpaths.2 hcalls) fun source =>
      .andThen (endsWithin_ask _) fun locked => ?_
    have hassign : EndsWithin (assign dest source) (fun _ => True) (Complaint c paths calls) := by
      cases source with
      | constant x => exact .andThen (endsWithin_ask _) fun _ => endsWithin_ask _
      | plug p => exact endsWithin_ask _
    cases locked with
    | true => exact .andThen (endsWithin_ask _) fun _ => hassign
    | false => exact hassign

theorem endsWithin_sentences (ss : List Sentence) (hpaths : ∀ s ∈ ss, s.paths ⊆ paths)
    (hcalls : ∀ s ∈ ss, s.value.calls ⊆ calls) :
    EndsWithin (sentences c ss) (fun _ => True) (Complaint c paths calls) := by
  induction ss with
  | nil => exact .pure trivial
  | cons s ss ih =>
      rw [List.forall_mem_cons] at hpaths hcalls
      exact .andThen (endsWithin_sentence s hpaths.1 hcalls.1) fun _ => ih hpaths.2 hcalls.2

/-- **A construction fails for one of the reasons.** -/
theorem endsWithin_program (p : Program) :
    EndsWithin (program c p) (fun _ => True) (Complaint c p.paths p.calls) := by
  unfold program
  split
  · exact .throw (.unsupported _)
  · next ss hss =>
    obtain rfl := Program.eq_of_sentences? hss
    refine endsWithin_sentences ss (fun s hs path hpath => ?_) fun s hs call hcall => ?_
    · exact List.mem_flatMap.2 ⟨.sentence s, List.mem_map_of_mem hs, hpath⟩
    · refine List.mem_flatMap.2 ⟨s.value, ?_, hcall⟩
      exact List.mem_flatMap.2 ⟨.sentence s, List.mem_map_of_mem hs, List.mem_singleton_self _⟩

end Complaints

end Build

/-! ### Paths that come out of scripts -/

/-- **The plug that a path names.** If nothing stands before the first point of the path, it is a
plug of the construct. Otherwise its node is what stands before that point, and its attribute what
follows. -/
inductive Context.Names (c : Context) : String → Plug → Prop
  | own {attr : String} {p : Plug} : attr ≠ "" → p.node = c.identity → p.attr ≠ "" →
      Names c ("." ++ attr) p
  | other {node attr : String} : node ≠ "" → '.' ∉ node.toList → attr ≠ "" →
      Names c (node ++ "." ++ attr) ⟨node, attr⟩

/-- A path of the construct itself resolves to one of its plugs. -/
theorem Context.exists_resolve_own (c : Context) (x : Char) (attr : List Char) :
    ∃ p, c.resolve (String.ofList ('.' :: x :: attr)) = .ok p ∧ p.node = c.identity ∧
      p.attr ≠ "" := by
  simp only [resolve, String.toList_ofList]
  split
  · next heq => cases heq
  · exact ⟨_, rfl, rfl, by simp⟩
  · exact ⟨_, rfl, rfl, by simp⟩
  · next heq =>
    cases heq
    exact ⟨_, rfl, rfl, by simp⟩
  · next hother => exact absurd rfl (hother (x :: attr))

/-- A path with a node before its first point resolves to the plug that it is cut into. -/
theorem Context.resolve_other (c : Context) {node attr : List Char} (hnode : node ≠ [])
    (hpoint : '.' ∉ node) (hattr : attr ≠ []) :
    c.resolve (String.ofList (node ++ '.' :: attr)) =
      .ok ⟨String.ofList node, String.ofList attr⟩ := by
  have hparse := Plug.parse?_of_point hnode hpoint hattr
  obtain ⟨y, node, rfl⟩ := List.exists_cons_of_ne_nil hnode
  have hne : ∀ rest, y :: (node ++ '.' :: attr) ≠ '.' :: rest := by
    intro rest heq
    exact hpoint ((List.cons.inj heq).1 ▸ List.mem_cons_self)
  rw [List.cons_append] at hparse ⊢
  simp only [resolve, String.toList_ofList]
  split
  · next heq => exact absurd heq (hne _)
  · next heq => exact absurd heq (hne _)
  · next heq => exact absurd heq (hne _)
  · next heq => exact absurd heq (hne _)
  · rw [hparse]

/-- **What spells a path resolves** to the plug that it names. -/
theorem Context.resolve_of_spells (c : Context) {text : List Char} {path : String}
    (h : Token.Spells text (.path path)) : ∃ p, c.resolve path = .ok p ∧ c.Names path p := by
  cases h with
  | @path node attr x hnode hx hattr =>
      have hpoint : '.' ∉ node := fun hmem => absurd (hnode '.' hmem) (by decide)
      have hpath : String.ofList (node ++ '.' :: x :: attr) =
          String.ofList node ++ "." ++ String.ofList (x :: attr) := by
        rw [← String.toList_inj]
        simp
      by_cases hempty : node = []
      · subst hempty
        obtain ⟨p, hp, hidentity, hattr⟩ := c.exists_resolve_own x attr
        refine ⟨p, hp, ?_⟩
        rw [hpath]
        exact .own (by simp) hidentity hattr
      · refine ⟨_, c.resolve_other hempty hpoint (List.cons_ne_nil x attr), ?_⟩
        rw [hpath]
        exact .other (by simpa using hempty) (by simpa using hpoint) (by simp)

/-- A path among the tokens of a text resolves to the plug that it names. -/
theorem Context.resolve_of_lex (c : Context) {src path : String} {tokens : List Token} {t : Token}
    (h : Token.lex src = .ok tokens) (ht : t ∈ tokens) (hkind : t.kind = .path path) :
    ∃ p, c.resolve path = .ok p ∧ c.Names path p := by
  obtain ⟨body, rfl, hlaid⟩ := Token.laid_of_lexFrom h
  obtain hbody | hfinish := List.mem_append.1 ht
  · obtain ⟨text, after, hspells, -, -⟩ := hlaid.exists_slice t hbody
    exact c.resolve_of_spells (hkind ▸ hspells)
  · rw [List.mem_singleton.1 hfinish] at hkind
    cases hkind

/-! ### Paths of programs -/

/-- The arguments of a call are spelled by what spells each of them. -/
theorem Token.Kind.mem_argumentList {words : List (List Token.Kind)} {w : List Token.Kind}
    {k : Token.Kind} (hw : w ∈ words) (hk : k ∈ w) : k ∈ Token.Kind.argumentList words := by
  refine List.mem_append_left _ ?_
  induction words with
  | nil => cases hw
  | cons u words ih =>
      cases words with
      | nil =>
          obtain rfl := List.mem_singleton.1 hw
          simpa using hk
      | cons v words =>
          rw [List.intercalate_cons_cons]
          obtain rfl | hw := List.mem_cons.1 hw
          · simp [hk]
          · simp [ih hw]

theorem Expr.mem_pathsAll {es : List Expr} {path : String} :
    path ∈ Expr.pathsAll es ↔ ∃ e ∈ es, path ∈ e.paths := by
  induction es with
  | nil => simp [Expr.pathsAll]
  | cons e es ih => simp [Expr.pathsAll, ih]

/-- The paths of an expression are among the tokens that spell it. -/
theorem Expr.Derives.path_mem {s : Stratum} {e : Expr} {w : List Token.Kind} (h : Derives s e w)
    {path : String} (hpath : path ∈ e.paths) : .path path ∈ w := by
  induction h with
  | number v => cases hpath
  | path text =>
      obtain rfl := List.mem_singleton.1 hpath
      exact List.mem_singleton_self _
  | call f args nonempty each ih =>
      rw [Expr.paths, Expr.mem_pathsAll] at hpath
      obtain ⟨e, he, hpath⟩ := hpath
      obtain ⟨a, ha, rfl⟩ := List.mem_map.1 he
      refine List.mem_cons_of_mem _ (List.mem_cons_of_mem _ ?_)
      exact Token.Kind.mem_argumentList (List.mem_map_of_mem ha) (ih a ha hpath)
  | brackets inner ih =>
      exact List.mem_cons_of_mem _ (List.mem_append_left _ (ih hpath))
  | unary op operand ih => exact List.mem_cons_of_mem _ (ih hpath)
  | binary op left right ihl ihr =>
      obtain hl | hr := List.mem_append.1 hpath
      · exact List.mem_append_left _ (ihl hl)
      · exact List.mem_append_right _ (List.mem_cons_of_mem _ (ihr hr))
  | operand s tighter ih => exact ih hpath

theorem Sentence.Derives.path_mem {s : Sentence} {w : List Token.Kind} (h : s.Derives w)
    {path : String} (hpath : path ∈ s.paths) : .path path ∈ w := by
  obtain ⟨v, hv, rfl⟩ := h
  obtain rfl | hvalue := List.mem_cons.1 hpath
  · exact List.mem_cons_self
  · exact List.mem_cons_of_mem _ (List.mem_cons_of_mem _ (hv.path_mem hvalue))

theorem Sentence.DerivesBlock.path_mem {ss : List Sentence} {w : List Token.Kind}
    (h : Sentence.DerivesBlock ss w) {path : String} (hpath : path ∈ ss.flatMap Sentence.paths) :
    .path path ∈ w := by
  obtain ⟨v, hv, rfl⟩ := h
  refine List.mem_cons_of_mem _ (List.mem_append_left _ ?_)
  induction hv with
  | nil => cases hpath
  | last hs => exact hs.path_mem (by simpa using hpath)
  | cons hs _ ih =>
      obtain hfirst | hrest := List.mem_append.1 hpath
      · exact List.mem_append_left _ (hs.path_mem hfirst)
      · exact List.mem_append_right _ (List.mem_cons_of_mem _ (ih hrest))

theorem Segment.Derives.path_mem {s : Segment} {w : List Token.Kind} (h : s.Derives w)
    {path : String} (hpath : path ∈ s.paths) : .path path ∈ w := by
  cases h with
  | sentence hs => exact List.mem_append_left _ (hs.path_mem hpath)
  | condition ht hv hw =>
      refine List.mem_cons_of_mem _ ?_
      obtain htest | hblocks := List.mem_append.1 hpath
      · exact List.mem_append_left _ (ht.path_mem htest)
      · refine List.mem_append_right _ ?_
        obtain hthen | helse := List.mem_append.1 hblocks
        · exact List.mem_append_left _ (hv.path_mem hthen)
        · exact List.mem_append_right _ (List.mem_cons_of_mem _ (hw.path_mem helse))

/-- **The paths of a program are among its tokens.** -/
theorem Program.Derives.path_mem {p : Program} {w : List Token.Kind} (h : p.Derives w)
    {path : String} (hpath : path ∈ p.paths) : .path path ∈ w := by
  obtain ⟨segments⟩ := p
  change Segment.DerivesAll segments w at h
  change path ∈ segments.flatMap Segment.paths at hpath
  induction h with
  | nil => cases hpath
  | cons hs _ ih =>
      obtain hfirst | hrest := List.mem_append.1 hpath
      · exact List.mem_append_left _ (hs.path_mem hfirst)
      · exact List.mem_append_right _ (ih hrest)

/-- The paths of a program that was read resolve. -/
theorem Context.exists_resolve_of_parse (c : Context) {src path : String} {p : Program}
    (h : Program.parse src = .ok p) (hpath : path ∈ p.paths) :
    ∃ plug, c.resolve path = .ok plug := by
  obtain ⟨tokens, w, hlex, hkinds, hderives, -⟩ := (Program.parse_iff_derives src p).1 h
  have hmem : .path path ∈ tokens.map Token.kind :=
    hkinds ▸ List.mem_append_left _ (hderives.path_mem hpath)
  obtain ⟨t, ht, hkind⟩ := List.mem_map.1 hmem
  obtain ⟨plug, hplug, -⟩ := c.resolve_of_lex hlex ht hkind
  exact ⟨plug, hplug⟩

/-! ### Scripts -/

/-- **A script that is not built** is none, or there is something in it to complain about. -/
theorem Builds.complaint {c : Context} {script : String} {events : List Event} {e : ConvertError}
    (h : Builds c script events (.error e)) :
    (∃ err, e = .parse err) ∨
      ∃ p, Program.parse (script ++ "\n") = .ok p ∧ Complaint c p.paths p.calls e := by
  cases h with
  | unread hparse => exact .inl ⟨_, rfl⟩
  | read hparse hcourse => exact .inr ⟨_, hparse, Build.endsWithin_program _ hcourse⟩

/-- The functions and the numbers of their arguments. -/
theorem Builtin.ofName?_cases {name : String} {f : Builtin} (h : ofName? name = some f) :
    (name = "min" ∨ name = "max") ∧ f.arity = 2 ∨ name = "sin" ∧ f.arity = 1 := by
  unfold ofName? at h
  split at h
  · next hname =>
    cases h
    exact .inl ⟨.inl hname, rfl⟩
  · split at h
    · next hname =>
      cases h
      exact .inl ⟨.inr hname, rfl⟩
    · split at h
      · next hname =>
        cases h
        exact .inr ⟨hname, rfl⟩
      · cases h

/-- **The shapes of scripts are those that are built.** With any host and in any state, a
compilation reports a wrong shape only for a call of a function with a wrong number of arguments,
which the script contains. Every path among the tokens of a text resolves to the plug that it
names. -/
theorem compileScript_shape_faults (c : Context) (script : String) {σ : Type} (host : Host σ)
    (s : σ) :
    (∀ fault, ((compileScript c script).run.run host s).1 = .error (.shape fault) →
      ∃ p name count, Program.parse (script ++ "\n") = .ok p ∧ (name, count) ∈ p.calls ∧
        ((name = "min" ∨ name = "max") ∧ count ≠ 2 ∧ fault = .arity name 2 count ∨
          name = "sin" ∧ count ≠ 1 ∧ fault = .arity name 1 count)) ∧
    ∀ src tokens t path, Token.lex src = .ok tokens → t ∈ tokens → t.kind = .path path →
      ∃ plug, c.resolve path = .ok plug ∧ c.Names path plug := by
  refine ⟨fun fault hfault => ?_, fun src tokens t path => c.resolve_of_lex⟩
  have hcourse := Dialogue.course_trace host (compileScript c script).run s
  rw [hfault] at hcourse
  generalize (compileScript c script).run.trace host s = events at hcourse
  obtain ⟨created, hnodes, hlength⟩ := course_compileScript.1 hcourse
  cases created with
  | ok created => cases hlength
  | error e =>
      cases hlength
      cases compilation_of_course hnodes with
      | failed hbuilds hclean =>
          obtain ⟨err, herr⟩ | ⟨p, hparse, hcomplaint⟩ := hbuilds.complaint
          · cases herr
          · cases hcomplaint with
            | @arity name count f hcall hf hcount =>
                refine ⟨p, name, count, hparse, hcall, ?_⟩
                obtain ⟨hname, harity⟩ | ⟨hname, harity⟩ := Builtin.ofName?_cases hf
                · exact .inl ⟨hname, harity ▸ hcount, by rw [harity]⟩
                · exact .inr ⟨hname, harity ▸ hcount, by rw [harity]⟩
            | unresolved hpath hfault =>
                -- The paths of a script resolve, so this complaint is never made.
                obtain ⟨plug, hplug⟩ := c.exists_resolve_of_parse hparse hpath
                cases hplug.symm.trans hfault

/-- A graph with one node, of which array elements can be assigned to. -/
def Graph.loneTransform : Graph :=
  Graph.empty.afterRequests [.createNode (.other "transform")]

/-- A bound without a second argument is found inside a call that has as many as it should, and a
path with stray points and brackets resolves. -/
theorem compileScript_shape_faults_loneTransform :
    ((compileScript ⟨"e", {}⟩ "transform1.w[0] = sin(min(.O[0]..b]));").run.run Graph.host
      Graph.loneTransform).1 = .error (.shape (.arity "min" 2 1)) ∧
      (∃ p, Program.parse "transform1.w[0] = sin(min(.O[0]..b]));\n" = .ok p ∧
        ("min", 1) ∈ p.calls) ∧
      ∃ plug, Context.resolve ⟨"e", {}⟩ ".O[0]..b]" = .ok plug ∧
        Context.Names ⟨"e", {}⟩ ".O[0]..b]" plug := by
  have hfault : ((compileScript ⟨"e", {}⟩ "transform1.w[0] = sin(min(.O[0]..b]));").run.run
      Graph.host Graph.loneTransform).1 = .error (.shape (.arity "min" 2 1)) := by
    decide +kernel
  obtain ⟨hshape, hresolve⟩ := compileScript_shape_faults ⟨"e", {}⟩
    "transform1.w[0] = sin(min(.O[0]..b]));" Graph.host Graph.loneTransform
  obtain ⟨p, name, count, hparse, hcall, ⟨-, -, harity⟩ | ⟨-, -, harity⟩⟩ := hshape _ hfault
  · cases harity
    refine ⟨hfault, ⟨p, hparse, hcall⟩, ?_⟩
    exact hresolve ".O[0]..b]" [⟨.path ".O[0]..b]", 0, 9⟩, ⟨.finish, 9, 9⟩] _ _ (by decide +kernel)
      List.mem_cons_self rfl
  · cases harity

end RigScript
