import RigScript.Proofs.Compile.Meaning
import RigScript.Proofs.Host.Transcript

/-!
# What is asked of a host while a script is compiled

A host may answer as it likes and refuse what it likes. Whatever it does, the requests that a
compilation makes follow a discipline, sentence by sentence. A sentence first reads its target; it
creates nodes and furnishes only nodes created for the script; and on its target it lifts a lock
that was reported, and writes or connects what the target was found fit to hold. Nodes are deleted
only after a failure, and only those that were created.

## Main definitions

* `RigScript.Build.Obeys`: a construction makes only requests within a rule
* `RigScript.Sentence.Permits`: what may be requested while a sentence is compiled
* `RigScript.Passages`: events that follow the discipline, sentence by sentence

## Main results

* `RigScript.Build.obeys_lower`: lowering only creates nodes and furnishes them
* `RigScript.Build.obeys_sentence`: a sentence makes only requests that it permits
* `RigScript.compileScript_disciplined`: **the write discipline of a compilation, with any host**
-/

namespace RigScript

/-! ### Constructions that obey a rule -/

namespace Build

variable {α β : Type} {rule rule' : List Event → Request → Prop} {earlier : List String}
  {past : List Event} {Q Q' : List Event → α → Prop} {b : Build α}

/-- Held after the events `past`, and with the nodes `earlier` created before them, the construction
**obeys** a rule. The nodes that it remembers are those created by events, also when it fails; when
it succeeds, `Q` holds of the events and the result. -/
def Obeys (rule : List Event → Request → Prop) (earlier : List String) (b : Build α)
    (past : List Event) (Q : List Event → α → Prop) : Prop :=
  (b.run.run (earlier ++ createdIn past)).Obeys rule
    (fun now out => out.2 = earlier ++ createdIn now ∧ ∀ a, out.1 = .ok a → Q now a) past

namespace Obeys

theorem pure {a : α} (h : Q past a) : (pure a : Build α).Obeys rule earlier past Q := by
  refine ⟨rfl, fun a' ha => ?_⟩
  obtain rfl := Except.ok.inj ha
  exact h

theorem throw {e : ConvertError} : (throw e : Build α).Obeys rule earlier past Q :=
  ⟨rfl, fun _ ha => nomatch ha⟩

/-- Two constructions obey a rule one after the other. The second one starts from a continuation of
the events at the start. -/
theorem bind {f : α → Build β} {R : List Event → β → Prop}
    (hb : b.Obeys rule earlier past Q)
    (hf : ∀ now a, past <+: now → Q now a → (f a).Obeys rule earlier now R) :
    (b >>= f).Obeys rule earlier past R := by
  simp only [Obeys, ExceptT.run_bind, StateT.run_bind, Dialogue.bind_eq, Dialogue.obeys_bind]
  refine Dialogue.Obeys.mono hb (fun _ _ _ h => h) fun now out hnow hout => ?_
  obtain ⟨outcome, names⟩ := out
  obtain ⟨rfl, hQ⟩ := hout
  cases outcome with
  | error e => exact ⟨rfl, fun _ ha => nomatch ha⟩
  | ok a => exact hf now a hnow (hQ a rfl)

theorem mono (h : b.Obeys rule earlier past Q) (hrule : ∀ now r, rule now r → rule' now r)
    (hQ : ∀ now a, past <+: now → Q now a → Q' now a) :
    b.Obeys rule' earlier past Q' :=
  Dialogue.Obeys.mono h (fun now r _ => hrule now r)
    fun now _ hnow hout => ⟨hout.1, fun a ha => hQ now a hnow (hout.2 a ha)⟩

/-- A request that creates no node. -/
theorem ask {r : Request} {Q : List Event → r.Reply → Prop} (hr : rule past r)
    (hnone : ∀ reply, (⟨r, reply⟩ : Event).created? = none)
    (hQ : ∀ reply, Q (past ++ [⟨r, .ok reply⟩]) reply) :
    (ask r).Obeys rule earlier past Q := by
  refine ⟨hr, fun reply => ?_⟩
  have hcreated : createdIn (past ++ [⟨r, reply⟩]) = createdIn past := by
    simp [createdIn, hnone]
  cases reply with
  | error e => exact ⟨by rw [hcreated], by simp⟩
  | ok a =>
      refine ⟨by rw [hcreated], fun a' ha => ?_⟩
      obtain rfl := Except.ok.inj ha
      exact hQ a

/-- A new node, which is remembered. -/
theorem create {kind : NodeKind} {Q : List Event → String → Prop}
    (hr : rule past (.createNode kind))
    (hQ : ∀ name, Q (past ++ [⟨.createNode kind, .ok name⟩]) name) :
    (create kind).Obeys rule earlier past Q := by
  refine ⟨hr, fun reply => ?_⟩
  cases reply with
  | error e =>
      refine ⟨?_, fun _ ha => nomatch ha⟩
      simp [createdIn, Event.created?]
  | ok name =>
      refine ⟨?_, fun a' ha => ?_⟩
      · simp [createdIn, Event.created?]
      · obtain rfl := Except.ok.inj ha
        exact hQ name

end Obeys

end Build

/-! ### What a sentence permits -/

/-- The node is **made** for the script: it was created earlier or by the events so far. -/
def Made (earlier : List String) (past : List Event) (name : String) : Prop :=
  name ∈ earlier ++ createdIn past

theorem Made.later {earlier : List String} {past now : List Event} {name : String}
    (h : Made earlier past name) (hnow : past <+: now) : Made earlier now name := by
  obtain hold | hnew := List.mem_append.1 h
  · exact List.mem_append_left _ hold
  · exact List.mem_append_right _ (createdIn_subset hnow hnew)

/-- A request **furnishes** one of some nodes: it writes to the node, connects to a plug of it that
has no connection yet, or shapes its curve. -/
def Request.Furnishes (nodes : String → Prop) : Request → Prop
  | .setAttribute p _ => nodes p.node
  | .connect _ dest force => force = false ∧ nodes dest.node
  | .createKeyframe curve _ => nodes curve
  | .setExtrapolation curve _ _ => nodes curve
  | _ => False

/-- The events start with reading the plug, and it was answered a value that a sentence may assign
to. -/
def ReadAsScalar (p : Plug) (past : List Event) : Prop :=
  ∃ v : Value, v.kind.isScalar = true ∧ past.head? = some ⟨.getAttribute p, .ok v⟩

theorem ReadAsScalar.later {p : Plug} {past now : List Event} (h : ReadAsScalar p past)
    (hnow : past <+: now) : ReadAsScalar p now := by
  obtain ⟨v, hv, hhead⟩ := h
  obtain ⟨rest, rfl⟩ := hnow
  exact ⟨v, hv, by rw [List.head?_append, hhead, Option.some_or]⟩

/-- The plug was found to be unlocked, or a lock on it was lifted. -/
def KnownUnlocked (p : Plug) (past : List Event) : Prop :=
  ⟨.isLocked p, .ok false⟩ ∈ past ∨ ⟨.setLocked p false, .ok ()⟩ ∈ past

/-- It was known before, or the last event tells. -/
theorem KnownUnlocked.of_concat {p : Plug} {past : List Event} {e : Event}
    (h : KnownUnlocked p (past ++ [e])) :
    KnownUnlocked p past ∨ e = ⟨.isLocked p, .ok false⟩ ∨ e = ⟨.setLocked p false, .ok ()⟩ := by
  simp only [KnownUnlocked, List.mem_append, List.mem_singleton] at h ⊢
  tauto

/-- **What may be requested while a sentence is compiled**, after the events `past` of the sentence
and with the nodes `earlier` created before it. Whatever is not listed here may not be requested. -/
inductive Sentence.Permits (s : Sentence) (target : Plug) (earlier : List String)
    (past : List Event) : Request → Prop
  /-- Nodes may be created. -/
  | create (kind : NodeKind) : s.Permits target earlier past (.createNode kind)
  /-- Nodes created for the script may be furnished. -/
  | furnish {r : Request} : r.Furnishes (Made earlier past) → s.Permits target earlier past r
  /-- The target may be read. -/
  | read : s.Permits target earlier past (.getAttribute target)
  /-- It may be asked whether the target is locked. -/
  | askLock : s.Permits target earlier past (.isLocked target)
  /-- The target may be unlocked right after it was reported locked. -/
  | unlock : past.getLast? = some ⟨.isLocked target, .ok true⟩ →
      s.Permits target earlier past (.setLocked target false)
  /-- A target that may hold a number may be disconnected. -/
  | disconnect : ReadAsScalar target past → s.Permits target earlier past (.disconnect target)
  /-- The number that the sentence assigns may be written to the target right after it was
  disconnected. -/
  | write {x : Float} : ReadAsScalar target past → s.value.literal? = some x →
      past.getLast? = some ⟨.disconnect target, .ok ()⟩ →
      s.Permits target earlier past (.setAttribute target (.double x))
  /-- A target that may hold a number may be connected, in place of an earlier connection. -/
  | wire (source : Plug) : ReadAsScalar target past →
      s.Permits target earlier past (.connect source target true)

/-- Requests about the scene as a whole. -/
def Request.isScenic : Request → Bool
  | .listConstructs _ => true
  | .listIncoming _ => true
  | .clearSelection => true
  | _ => false

/-- No sentence permits a request about the scene as a whole. -/
theorem Sentence.Permits.isScenic_eq_false {s : Sentence} {target : Plug} {earlier : List String}
    {past : List Event} {r : Request} (h : s.Permits target earlier past r) :
    r.isScenic = false := by
  cases h with
  | furnish h =>
      cases r with
      | listConstructs hostType => exact h.elim
      | listIncoming p => exact h.elim
      | clearSelection => exact h.elim
      | _ => rfl
  | _ => rfl

/-! ### Lowering -/

namespace Build

variable {c : Context} {s : Sentence} {target : Plug} {earlier : List String} {past : List Event}
  {a b : Operand}

/-- A new node is made for the script. -/
theorem obeys_create (kind : NodeKind) :
    (create kind).Obeys (s.Permits target earlier) earlier past fun now name =>
      Made earlier now name :=
  .create (.create kind) fun name => by simp [Made, createdIn, Event.created?]

/-- A request that furnishes a node made for the script. -/
theorem obeys_furnish {r : Request} (h : r.Furnishes (Made earlier past)) :
    (ask r).Obeys (s.Permits target earlier) earlier past fun _ _ => True := by
  refine .ask (.furnish h) (fun reply => ?_) fun _ => trivial
  cases r with
  | createNode kind => exact h.elim
  | _ => rfl

theorem obeys_supply {dest : Plug} (h : Made earlier past dest.node) :
    (supply a dest).Obeys (s.Permits target earlier) earlier past fun _ _ => True := by
  cases a with
  | constant x => exact obeys_furnish h
  | plug p => exact obeys_furnish ⟨rfl, h⟩

theorem obeys_multiplyDivide {divide : Bool} :
    (multiplyDivide a b divide).Obeys (s.Permits target earlier) earlier past fun _ o =>
      o.constant? = none := by
  refine .bind (obeys_create _) fun now node _ hnode => ?_
  have hwire : ∀ now, Made earlier now node → (do
      supply a ⟨node, MultiplyDivide.input1⟩
      supply b ⟨node, MultiplyDivide.input2⟩
      return .plug ⟨node, MultiplyDivide.output⟩ : Build Operand).Obeys
        (s.Permits target earlier) earlier now fun _ o => o.constant? = none := by
    intro now hnode
    refine .bind (obeys_supply hnode) fun now₁ _ h₁ _ => ?_
    refine .bind (obeys_supply (hnode.later h₁)) fun _ _ _ _ => ?_
    exact .pure rfl
  cases divide with
  | false => exact hwire now hnode
  | true => exact .bind (obeys_furnish hnode) fun now₁ _ h₁ _ => hwire now₁ (hnode.later h₁)

theorem obeys_plusMinus {subtract : Bool} :
    (plusMinus a b subtract).Obeys (s.Permits target earlier) earlier past fun _ o =>
      o.constant? = none := by
  refine .bind (obeys_create _) fun now node _ hnode => ?_
  refine .bind (obeys_furnish hnode) fun now₁ _ h₁ _ => ?_
  have hnode₁ := hnode.later h₁
  refine .bind (obeys_supply hnode₁) fun now₂ _ h₂ _ => ?_
  refine .bind (obeys_supply (hnode₁.later h₂)) fun _ _ _ _ => ?_
  exact .pure rfl

theorem obeys_modulo {epsilon : Float} :
    (modulo epsilon a b).Obeys (s.Permits target earlier) earlier past fun _ o =>
      o.constant? = none := by
  cases b with
  | plug p => exact .throw
  | constant divisor =>
      simp only [modulo]
      split
      · refine .bind (Q := fun _ _ => False) .throw fun _ _ _ hfalse => hfalse.elim
      · refine .bind (obeys_create _) fun now curve _ hcurve => ?_
        refine .bind (obeys_furnish hcurve) fun now₁ _ h₁ _ => ?_
        have hcurve₁ := hcurve.later h₁
        refine .bind (obeys_furnish hcurve₁) fun now₂ _ h₂ _ => ?_
        have hcurve₂ := hcurve₁.later h₂
        refine .bind (obeys_furnish hcurve₂) fun now₃ _ h₃ _ => ?_
        refine .bind (obeys_supply (hcurve₂.later h₃)) fun _ _ _ _ => ?_
        exact .pure rfl

/-- A clamp of which one bound is fixed. -/
theorem obeys_bounded {fixed free : String} {x : Float} :
    (do
      let node ← create (.primitive .clamp)
      supply a ⟨node, Clamp.input⟩
      ask (.setAttribute ⟨node, fixed⟩ (.double x))
      supply b ⟨node, free⟩
      return .plug ⟨node, Clamp.output⟩ : Build Operand).Obeys (s.Permits target earlier) earlier
        past fun _ o => o.constant? = none := by
  refine .bind (obeys_create _) fun now node _ hnode => ?_
  refine .bind (obeys_supply hnode) fun now₁ _ h₁ _ => ?_
  have hnode₁ := hnode.later h₁
  refine .bind (obeys_furnish hnode₁) fun now₂ _ h₂ _ => ?_
  refine .bind (obeys_supply (hnode₁.later h₂)) fun _ _ _ _ => ?_
  exact .pure rfl

theorem obeys_sine :
    (sine a).Obeys (s.Permits target earlier) earlier past fun _ o => o.constant? = none := by
  refine .bind (obeys_create _) fun now doubler _ hdoubler => ?_
  refine .bind (obeys_supply hdoubler) fun now₁ _ h₁ _ => ?_
  refine .bind (obeys_furnish (hdoubler.later h₁)) fun now₂ _ _ _ => ?_
  refine .bind (obeys_create _) fun now₃ quat _ hquat => ?_
  refine .bind (obeys_furnish ⟨rfl, hquat⟩) fun _ _ _ _ => ?_
  exact .pure rfl

theorem obeys_negate :
    (negate a).Obeys (s.Permits target earlier) earlier past fun _ o =>
      o.constant? = a.constant?.map fun x => -x := by
  cases a with
  | constant x => exact .pure rfl
  | plug p => exact obeys_multiplyDivide

theorem obeys_combine {op : BinaryOp} :
    (combine c op a b).Obeys (s.Permits target earlier) earlier past fun _ o =>
      o.constant? = none := by
  cases op with
  | add => exact obeys_plusMinus
  | subtract => exact obeys_plusMinus
  | multiply => exact obeys_multiplyDivide
  | divide => exact obeys_multiplyDivide
  | modulo => exact obeys_modulo
  | equal => exact .throw
  | unequal => exact .throw

theorem obeys_apply {name : String} {f : Builtin} {operands : List Operand} :
    (apply name f operands).Obeys (s.Permits target earlier) earlier past fun _ o =>
      o.constant? = none := by
  unfold apply
  split
  · exact obeys_bounded
  · exact obeys_bounded
  · exact obeys_sine
  · exact .throw

theorem obeys_checkCall {name : String} {found : Nat} :
    (checkCall name found).Obeys (s.Permits target earlier) earlier past fun _ _ => True := by
  unfold checkCall
  split
  · exact .throw
  · split
    · exact .pure trivial
    · exact .throw

theorem obeys_resolve {path : String} :
    (resolve c path).Obeys (s.Permits target earlier) earlier past fun _ p =>
      c.resolve path = .ok p := by
  unfold resolve
  split
  · next p hp => exact .pure hp
  · exact .throw

mutual

/-- **Lowering only creates nodes and furnishes them**, and it gives a number exactly for an
expression that folds to that number. -/
theorem obeys_lower {past : List Event} (e : Expr) :
    (lower c e).Obeys (s.Permits target earlier) earlier past fun _ a =>
      a.constant? = e.literal? := by
  match e with
  | .number x => exact .pure rfl
  | .path text => exact .bind obeys_resolve fun _ _ _ _ => .pure rfl
  | .brackets e => exact obeys_lower e
  | .unary .plus e => exact obeys_lower e
  | .unary .minus e =>
      refine .bind (obeys_lower e) fun now a _ ha => ?_
      refine .mono obeys_negate (fun _ _ h => h) fun _ o _ ho => ?_
      rw [ho, ha, Expr.literal?]
  | .binary op left right =>
      have hboth : (do
          let a ← lower c left
          let b ← lower c right
          combine c op a b : Build Operand).Obeys (s.Permits target earlier) earlier past
            fun _ o => o.constant? = none :=
        .bind (obeys_lower left) fun _ _ _ _ => .bind (obeys_lower right) fun _ _ _ _ =>
          obeys_combine
      cases op with
      | equal => exact .throw
      | unequal => exact .throw
      | _ => exact hboth
  | .call name args =>
      refine .bind obeys_checkCall fun _ f _ _ => ?_
      exact .bind (obeys_lowerAll args) fun _ operands _ _ => obeys_apply

/-- The same for several expressions. -/
theorem obeys_lowerAll {past : List Event} (es : List Expr) :
    (lowerAll c es).Obeys (s.Permits target earlier) earlier past fun _ _ => True := by
  match es with
  | [] => exact .pure trivial
  | e :: es =>
      refine .bind (obeys_lower e) fun _ _ _ _ => ?_
      refine .bind (obeys_lowerAll es) fun _ _ _ _ => ?_
      exact .pure trivial

end

/-! ### Sentences -/

/-- The target is read before anything else. -/
theorem obeys_destination (h : c.resolve s.target = .ok target) :
    (destination c s.target).Obeys (s.Permits target earlier) earlier [] fun now dest =>
      target = dest ∧ ReadAsScalar target now := by
  unfold destination resolve
  rw [h]
  refine .bind (Q := fun now p => now = [] ∧ target = p) (.pure ⟨rfl, rfl⟩) ?_
  rintro _ _ - ⟨rfl, rfl⟩
  refine .bind (Q := fun now v => now.head? = some ⟨.getAttribute target, .ok v⟩)
    (.ask .read (fun _ => rfl) fun _ => rfl) fun now v _ hv => ?_
  split
  · next hscalar => exact .pure ⟨rfl, v, hscalar, hv⟩
  · exact .throw

/-- A number is written and a plug is connected, on a target that was found fit. -/
theorem obeys_assign (ha : a.constant? = s.value.literal?) (hread : ReadAsScalar target past) :
    (assign target a).Obeys (s.Permits target earlier) earlier past fun now _ => past <+: now := by
  cases a with
  | constant x =>
      refine .bind (Q := fun now _ => now.getLast? = some ⟨.disconnect target, .ok ()⟩)
        (.ask (.disconnect hread) (fun _ => rfl) fun _ => by simp) fun now _ hnow hlast => ?_
      exact .ask (.write (hread.later hnow) ha.symm hlast) (fun _ => rfl)
        fun _ => hnow.trans (List.prefix_append _ _)
  | plug p => exact .ask (.wire p hread) (fun _ => rfl) fun _ => List.prefix_append _ _

/-- **A sentence makes only requests that it permits**, and when it succeeds its target is known to
be unlocked. -/
theorem obeys_sentence (h : c.resolve s.target = .ok target) :
    (sentence c s).Obeys (s.Permits target earlier) earlier [] fun now _ =>
      KnownUnlocked target now := by
  refine .bind (obeys_destination h) ?_
  rintro now _ - ⟨rfl, hread⟩
  refine .bind (obeys_lower s.value) fun now₁ a h₁ ha => ?_
  have hread₁ := hread.later h₁
  refine .bind (Q := fun now locked => now.getLast? = some ⟨.isLocked target, .ok locked⟩)
    (.ask .askLock (fun _ => rfl) fun _ => by simp) fun now₂ locked h₂ hlast => ?_
  have hread₂ := hread₁.later h₂
  cases locked with
  | true =>
      refine .bind (Q := fun now _ => ⟨.setLocked target false, .ok ()⟩ ∈ now)
        (.ask (.unlock hlast) (fun _ => rfl) fun _ => by simp) fun now₃ _ h₃ hmem => ?_
      exact .mono (obeys_assign ha (hread₂.later h₃)) (fun _ _ h => h)
        fun _ _ _ hnow => .inr (hnow.subset hmem)
  | false =>
      exact .mono (obeys_assign ha hread₂) (fun _ _ h => h)
        fun _ _ _ hnow => .inl (hnow.subset (List.mem_of_getLast? hlast))

/-- A sentence whose target has no plug makes no request. -/
theorem sentence_of_error {fault : ShapeFault} (h : c.resolve s.target = .error fault) :
    sentence c s = throw (.shape fault) := by
  unfold sentence destination resolve
  rw [h]
  rfl

end Build

/-! ### Scripts -/

/-- The events of compiling a sentence **follow its discipline**: every request is permitted after
the events before it, for the plug that its target stands for. -/
def Sentence.Disciplined (c : Context) (s : Sentence) (earlier : List String)
    (events : List Event) : Prop :=
  ∀ past e rest, events = past ++ e :: rest →
    ∃ target, c.resolve s.target = .ok target ∧ s.Permits target earlier past e.request

/-- Events that consist of one **passage** for each of some sentences, in order and up to any of
them. Each passage follows the discipline of its sentence. -/
inductive Passages (c : Context) : List String → List Sentence → List Event → Prop
  | stop (earlier : List String) (ss : List Sentence) : Passages c earlier ss []
  | next {earlier : List String} {s : Sentence} {ss : List Sentence} {events rest : List Event} :
      s.Disciplined c earlier events → Passages c (earlier ++ createdIn events) ss rest →
      Passages c earlier (s :: ss) (events ++ rest)

/-- The sentences of a text that are compiled. There are none when the text is no script or holds a
choice. -/
def scriptSentences (script : String) : List Sentence :=
  ((Program.parse (script ++ "\n")).toOption.bind Program.sentences?).getD []

/-- Every request of a passage is permitted to one of the sentences. -/
theorem Passages.exists_permits {c : Context} {earlier : List String} {ss : List Sentence}
    {events : List Event} (h : Passages c earlier ss events) {e : Event} (he : e ∈ events) :
    ∃ s ∈ ss, ∃ target names past, c.resolve s.target = .ok target ∧
      s.Permits target names past e.request := by
  induction h with
  | stop earlier ss => simp at he
  | @next earlier s ss events rest hs _ ih =>
      obtain hfirst | hrest := List.mem_append.1 he
      · obtain ⟨past, rest', hsplit⟩ := List.append_of_mem hfirst
        obtain ⟨target, htarget, hpermits⟩ := hs past e rest' hsplit
        exact ⟨s, by simp, target, earlier, past, htarget, hpermits⟩
      · obtain ⟨s', hs', hpermits⟩ := ih hrest
        exact ⟨s', List.mem_cons_of_mem s hs', hpermits⟩

section Traces

variable {σ : Type} (host : Host σ) (c : Context)

namespace Build

/-- A sentence follows its discipline with any host, and it remembers the nodes it created. -/
theorem disciplined_sentence (s : Sentence) (earlier : List String) (st : σ) :
    s.Disciplined c earlier (((sentence c s).run.run earlier).trace host st) ∧
      (((sentence c s).run.run earlier).run host st).1.2 =
        earlier ++ createdIn (((sentence c s).run.run earlier).trace host st) := by
  cases htarget : c.resolve s.target with
  | error fault =>
      rw [sentence_of_error htarget]
      exact ⟨fun past e rest hsplit => by simp [Dialogue.pure_eq] at hsplit, by
        simp [Dialogue.pure_eq]⟩
  | ok target =>
      have hobeys : (sentence c s).Obeys (s.Permits target earlier) earlier [] fun now _ =>
          KnownUnlocked target now := obeys_sentence htarget
      rw [Obeys, createdIn_nil, List.append_nil] at hobeys
      obtain ⟨hrule, hnames, -⟩ := hobeys.trace host st
      rw [List.nil_append] at hnames
      exact ⟨fun past e rest hsplit => ⟨target, htarget, hrule past e rest hsplit⟩, hnames⟩

/-- Sentences make up passages, and the nodes created in these are remembered. -/
theorem passages_sentences (ss : List Sentence) (earlier : List String) (st : σ) :
    Passages c earlier ss (((sentences c ss).run.run earlier).trace host st) ∧
      (((sentences c ss).run.run earlier).run host st).1.2 =
        earlier ++ createdIn (((sentences c ss).run.run earlier).trace host st) := by
  induction ss generalizing earlier st with
  | nil => exact ⟨.stop earlier [], by simp [sentences, Dialogue.pure_eq]⟩
  | cons s ss ih =>
      obtain ⟨hs, hnames⟩ := disciplined_sentence host c s earlier st
      simp only [sentences, ExceptT.run_bind, StateT.run_bind, Dialogue.bind_eq,
        Dialogue.trace_bind, Dialogue.run_bind]
      generalize ((sentence c s).run.run earlier).run host st = out at hnames ⊢
      obtain ⟨⟨outcome, names⟩, st'⟩ := out
      obtain rfl : names = _ := hnames
      cases outcome with
      | error e =>
          refine ⟨.next hs (.stop _ ss), ?_⟩
          simp [Dialogue.pure_eq]
      | ok a =>
          obtain ⟨hss, hnames'⟩ := ih _ st'
          refine ⟨.next hs hss, ?_⟩
          simpa using hnames'

end Build

/-- Deleting nodes asks for nothing else. -/
theorem obeys_deleteNodes (names : List String) (past : List Event) :
    (deleteNodes names).Obeys (fun _ r => ∃ name ∈ names, r = .deleteNode name)
      (fun _ _ => True) past := by
  induction names generalizing past with
  | nil => trivial
  | cons name names ih =>
      refine ⟨⟨name, by simp, rfl⟩, fun reply => ?_⟩
      cases reply with
      | error e => trivial
      | ok _ =>
          refine (ih _).mono (fun _ r _ hr => ?_) fun _ _ _ h => h
          obtain ⟨name', hname', rfl⟩ := hr
          exact ⟨name', List.mem_cons_of_mem name hname', rfl⟩

/-- What is done about the nodes of a failed unit deletes some of them. -/
theorem mem_trace_rollBack {policy : Rollback} {created : List String} {st : σ} {e : Event}
    (he : e ∈ (rollBack policy created).trace host st) :
    ∃ name ∈ created, e.request = .deleteNode name := by
  cases policy with
  | keepNodes => simp [rollBack, Dialogue.pure_eq] at he
  | failedConstruct =>
      obtain ⟨before, after, hsplit⟩ := List.append_of_mem he
      have hobeys := obeys_deleteNodes created.reverse []
      obtain ⟨name, hname, hr⟩ := (hobeys.trace host st).1 before e after hsplit
      exact ⟨name, List.mem_reverse.1 hname, hr⟩

/-- The events of a unit: its sentences make up passages, and what follows after a failure only
deletes nodes created in these. -/
def Conducted (c : Context) (ss : List Sentence) (failed : Prop) (events : List Event) : Prop :=
  ∃ building cleanup, events = building ++ cleanup ∧ Passages c [] ss building ∧
    (∀ e ∈ cleanup, ∃ name ∈ createdIn building, e.request = .deleteNode name) ∧
    (cleanup ≠ [] → failed)

theorem Conducted.nil (c : Context) (ss : List Sentence) (failed : Prop) :
    Conducted c ss failed [] :=
  ⟨[], [], rfl, .stop [] ss, by simp, by simp⟩

/-- A unit makes no request about the scene as a whole. -/
theorem Conducted.isScenic_eq_false {c : Context} {ss : List Sentence} {failed : Prop}
    {events : List Event} (h : Conducted c ss failed events) {e : Event} (he : e ∈ events) :
    e.request.isScenic = false := by
  obtain ⟨building, cleanup, rfl, hpassages, hcleanup, -⟩ := h
  obtain hbuild | hclean := List.mem_append.1 he
  · obtain ⟨s, -, target, names, past, -, hpermits⟩ := hpassages.exists_permits hbuild
    exact hpermits.isScenic_eq_false
  · obtain ⟨name, -, hr⟩ := hcleanup e hclean
    rw [hr]
    rfl

theorem conducted_compileProgram (p : Program) (st : σ) :
    Conducted c (p.sentences?.getD [])
      (∃ e, ((compileProgram c p).run.run host st).1 = .error e)
      ((compileProgram c p).run.trace host st) := by
  obtain ⟨hpassages, hnames⟩ : Passages c [] (p.sentences?.getD [])
      (((Build.program c p).run.run []).trace host st) ∧
      (((Build.program c p).run.run []).run host st).1.2 =
        createdIn (((Build.program c p).run.run []).trace host st) := by
    unfold Build.program
    split
    · exact ⟨.stop _ _, rfl⟩
    · next ss hss =>
      rw [hss]
      exact Build.passages_sentences host c ss [] st
  simp only [compileProgram, ExceptT.run_mk, Build.dialogue, Dialogue.bind_eq, Dialogue.trace_bind,
    Dialogue.run_bind]
  refine ⟨_, _, rfl, hpassages, ?_⟩
  generalize ((Build.program c p).run.run []).run host st = out at hnames ⊢
  obtain ⟨⟨outcome, created⟩, st'⟩ := out
  obtain rfl : created = _ := hnames
  cases outcome with
  | ok a => simp [Dialogue.pure_eq]
  | error e =>
      refine ⟨fun e' he' => ?_, fun _ => ⟨e, ?_⟩⟩
      · simp only [Dialogue.trace_bind, Dialogue.pure_eq, Dialogue.trace_done,
          List.append_nil] at he'
        exact mem_trace_rollBack host he'
      · simp [Dialogue.run_bind, Dialogue.pure_eq]

theorem conducted_compileNodes (script : String) (st : σ) :
    Conducted c (scriptSentences script)
      (∃ e, ((compileNodes c script).run.run host st).1 = .error e)
      ((compileNodes c script).run.trace host st) := by
  unfold compileNodes scriptSentences
  split
  · exact .nil c _ _
  · next p hparse =>
    rw [hparse]
    exact conducted_compileProgram host c p st

/-- Counting the nodes afterwards asks for nothing and turns no failure into a success. -/
theorem conducted_compileScript (script : String) (st : σ) :
    Conducted c (scriptSentences script)
      (∃ e, ((compileScript c script).run.run host st).1 = .error e)
      ((compileScript c script).run.trace host st) := by
  obtain ⟨htrace, herror⟩ : (compileScript c script).run.trace host st =
      (compileNodes c script).run.trace host st ∧
      ∀ e, ((compileNodes c script).run.run host st).1 = .error e →
        ((compileScript c script).run.run host st).1 = .error e := by
    simp only [compileScript, ExceptT.run_bind, Dialogue.bind_eq, Dialogue.trace_bind,
      Dialogue.run_bind]
    obtain ⟨outcome, st'⟩ := (compileNodes c script).run.run host st
    cases outcome <;> simp [Dialogue.pure_eq]
  obtain ⟨building, cleanup, hsplit, hpassages, hcleanup, hfail⟩ :=
    conducted_compileNodes host c script st
  refine ⟨building, cleanup, htrace.trans hsplit, hpassages, hcleanup, fun hne => ?_⟩
  obtain ⟨e, he⟩ := hfail hne
  exact ⟨e, herror e he⟩

end Traces

/-- **The write discipline of a compilation.** With any host, in any state and whatever it refuses,
the events of compiling a script are first those of building and then those of cleaning up.

* Building makes up a passage for each sentence, in order and up to the last one reached. Every
  request of a passage is one that the sentence permits at that point.
* Cleaning up deletes nodes that were created by building, and it takes place only after a failure.
* Constructs and connections are never listed, and the selection is never emptied. -/
theorem compileScript_disciplined {σ : Type} (host : Host σ) (st : σ) (c : Context)
    (script : String) :
    ∃ building cleanup, (compileScript c script).run.trace host st = building ++ cleanup ∧
      Passages c [] (scriptSentences script) building ∧
      (∀ e ∈ cleanup, ∃ name ∈ createdIn building, e.request = .deleteNode name) ∧
      (cleanup ≠ [] → ∃ e, ((compileScript c script).run.run host st).1 = .error e) ∧
      ∀ e ∈ (compileScript c script).run.trace host st, e.request.isScenic = false := by
  have hconducted := conducted_compileScript host c script st
  have hscenic : ∀ e ∈ (compileScript c script).run.trace host st, e.request.isScenic = false :=
    fun _ => hconducted.isScenic_eq_false
  obtain ⟨building, cleanup, htrace, hpassages, hcleanup, hfail⟩ := hconducted
  exact ⟨building, cleanup, htrace, hpassages, hcleanup, hfail, hscenic⟩

end RigScript
