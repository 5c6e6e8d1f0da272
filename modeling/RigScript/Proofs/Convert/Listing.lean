import Mathlib.Data.List.Permutation
import RigScript.Proofs.Convert.Footprint
import RigScript.Proofs.Graph.Incoming

/-!
# The order in which constructs are listed

A host may list the constructs of a scene in any order, and a batch goes through them in that order.
A construct is converted when something is connected to its input at that time, and a converted
construct is deleted together with the connections from it. So a construct that is fed by another
one only is converted or skipped, depending on which of the two is listed first.

When no live construct assigns to the input of another one, this is the whole truth: the constructs
converted are those found by a survey of the scene at the start. The order does not matter when each
live construct is fed by something that is no other live construct, and if the batch succeeds in
every order, it does not matter exactly then.

## Main definitions

* `RigScript.Host.Relists`: a host that lists the constructs of a scene graph in an order of its own
* `RigScript.Graph.survey`: the constructs that are converted, in terms of the scene at the start
* `RigScript.Graph.Undriven`, `RigScript.Graph.FedFromOutside`: how constructs may be connected
* `RigScript.Graph.OrderIndependent`: batches that succeed report the same, whatever the order

## Main results

* `RigScript.Graph.survey_eq_of_convertEach`: a batch converts what the survey finds
* `RigScript.Graph.mem_survey_iff`: the survey finds all live constructs that are fed from outside
* `RigScript.convertAll_order_independent_iff`: **when the order of constructs does not matter**
-/

namespace RigScript

/-! ### Hosts with a listing of their own -/

/-- The host behaves as a scene graph, but it may list constructs in any order. -/
structure Host.Relists (host : Host Graph) : Prop where
  respond_eq : ∀ g r, (∀ k, r ≠ .listConstructs k) → host.respond g r = Graph.host.respond g r
  listing : ∀ g k, ∃ names : List String, names.Perm (g.listConstructs k) ∧
    host.respond g (.listConstructs k) = (.ok names, g)

/-- The host that lists constructs in a given order, wherever they are the constructs of the
scene. -/
def Graph.listing (names : List String) : Host Graph where
  respond g
    | .listConstructs k =>
      (.ok (if names.Perm (g.listConstructs k) then names else g.listConstructs k), g)
    | r => host.respond g r

theorem Graph.relists_listing (names : List String) : (listing names).Relists where
  respond_eq g r hr := by
    cases r with
    | listConstructs k => exact absurd rfl (hr k)
    | _ => rfl
  listing g k := by
    by_cases hperm : names.Perm (g.listConstructs k)
    · exact ⟨names, hperm, by simp [Graph.listing, hperm]⟩
    · exact ⟨g.listConstructs k, .refl _, by simp [Graph.listing, hperm]⟩

/-- Every request of the dialogue is one that `rule` allows. -/
def Dialogue.Asks {α : Type} (rule : Request → Prop) (d : Dialogue α) : Prop :=
  ∀ g, ∀ e ∈ d.trace Graph.host g, rule e.request

namespace Dialogue.Asks

variable {α β : Type} {rule : Request → Prop} {d : Dialogue α}

theorem done (a : α) : (Dialogue.done a).Asks rule := by
  intro g e he
  simp at he

theorem bind {f : α → Dialogue β} (hd : d.Asks rule) (hf : ∀ a, (f a).Asks rule) :
    (d.bind f).Asks rule := by
  intro g e he
  rw [trace_bind] at he
  obtain hfirst | hrest := List.mem_append.1 he
  · exact hd g e hfirst
  · exact hf _ _ e hrest

theorem send {r : Request} (hr : rule r) : (Dialogue.send r).Asks rule := by
  intro g e he
  obtain rfl : e = _ := by simpa [Dialogue.send] using he
  exact hr

/-- Attempts make their requests one after the other. -/
theorem attempt_bind {a : Attempt α} {f : α → Attempt β} (ha : a.run.Asks rule)
    (hf : ∀ x, (f x).run.Asks rule) : (a >>= f).run.Asks rule := by
  rw [ExceptT.run_bind]
  refine ha.bind fun out => ?_
  cases out with
  | ok x => exact hf x
  | error e => exact .done _

theorem attempt_ask {r : Request} (hr : rule r) : (Attempt.ask r).run.Asks rule := by
  intro g e he
  have htrace : (Attempt.ask r).run.trace Graph.host g = [⟨r, (Graph.host.respond g r).1⟩] := by
    simp only [Attempt.ask, ExceptT.run_mk, trace_ask]
    cases (Graph.host.respond g r).1 with
    | ok reply => rfl
    | error e => rfl
  rw [htrace] at he
  obtain rfl := List.mem_singleton.1 he
  exact hr

end Dialogue.Asks

/-- The host need not be asked for a listing. -/
theorem Host.Relists.run_eq {host : Host Graph} {α : Type} {d : Dialogue α} (h : host.Relists)
    (hd : d.Asks fun r => ∀ k, r ≠ .listConstructs k) (g : Graph) :
    d.run host g = d.run Graph.host g :=
  Dialogue.run_congr fun e he g' => h.respond_eq g' e.request (hd g e he)

/-! ### A batch does not list constructs again -/

section Asks

variable (c : Context) (o : Options)

theorem asks_compileNodes (script : String) :
    (compileNodes c script).run.Asks fun r => ∀ k, r ≠ .listConstructs k := by
  rintro g e he k hlist
  have hscenic := (conducted_compileNodes Graph.host c script g).isScenic_eq_false he
  rw [hlist] at hscenic
  cases hscenic

theorem asks_readScript : (readScript c).run.Asks fun r => ∀ k, r ≠ .listConstructs k := by
  refine .attempt_bind (.attempt_ask fun k hk => nomatch hk) fun v => ?_
  split
  · exact .done _
  · exact .done _

theorem asks_commit (created : List String) :
    (commit c created).run.Asks fun r => ∀ k, r ≠ .listConstructs k := by
  refine .bind (.send fun k hk => nomatch hk) fun reply => ?_
  cases reply with
  | ok _ => exact .done _
  | error e =>
      refine .bind (fun g e' he' k hlist => ?_) fun _ => .done _
      obtain ⟨name, -, hr⟩ := mem_trace_rollBack Graph.host he'
      exact nomatch hr.symm.trans hlist

theorem asks_replaceConstruct :
    (replaceConstruct c).run.Asks fun r => ∀ k, r ≠ .listConstructs k := by
  refine .attempt_bind ?_ fun created => .attempt_bind (asks_commit c created) fun _ => .done _
  exact .attempt_bind (asks_readScript c) fun script => asks_compileNodes c script

theorem asks_convertEach (names : List String) (report : Report) :
    (convertEach o names report).run.Asks fun r => ∀ k, r ≠ .listConstructs k := by
  induction names generalizing report with
  | nil => exact .done _
  | cons name names ih =>
      refine .attempt_bind (.attempt_ask fun k hk => nomatch hk) fun incoming => ?_
      split
      · exact ih _
      · refine .attempt_bind (.bind (asks_replaceConstruct ⟨name, o⟩) fun out => ?_) fun n => ih _
        cases out with
        | ok x => exact .done _
        | error e => exact .done _

end Asks

/-! ### What batches and replacements yield -/

namespace Attempt

variable {host : Host Graph} {g g' : Graph} {o : Options} {report : Report}

/-- A construct is replaced by compiling the script that it holds and deleting it, and the nodes
created are counted. -/
theorem yields_replaceConstruct {c : Context} {count : Nat}
    (h : (replaceConstruct c).Yields Graph.host g count g') :
    ∃ text created compiled,
      g.value? ⟨c.identity, c.options.scriptAttribute⟩ = some (.string text) ∧
      (compileNodes c text).Yields Graph.host g created compiled ∧
      compiled.perform (.deleteNode c.identity) = .ok ((), g') ∧ created.length = count := by
  obtain ⟨created, compiled, hnodes, h⟩ := yields_bind.1 h
  obtain ⟨_, _, hcommit, h⟩ := yields_bind.1 h
  obtain ⟨rfl, rfl⟩ := yields_pure.1 h
  obtain ⟨text, _, hread, hnodes⟩ := yields_bind.1 hnodes
  obtain ⟨hvalue, rfl⟩ := yields_readScript hread
  exact ⟨text, created, compiled, hvalue, hnodes, yields_commit.1 hcommit, rfl⟩

/-- Naming the construct in a failure does not turn it into a success. -/
theorem yields_within {α σ : Type} {host : Host σ} {s s' : σ} {name : String} {a : Attempt α}
    {x : α} : (a.within name).Yields host s x s' ↔ a.Yields host s x s' := by
  simp only [Yields, within, ExceptT.run_mk, Dialogue.bind_eq, Dialogue.run_bind]
  obtain ⟨outcome, t⟩ := a.run.run host s
  cases outcome with
  | ok y => simp [Dialogue.pure_eq]
  | error e => simp [Dialogue.pure_eq]

/-- A batch that succeeds goes through the constructs that the host lists. -/
theorem yields_convertAll (hhost : host.Relists) (h : (convertAll o).Yields host g report g') :
    ∃ names : List String, ∃ g₁, host.respond g (.listConstructs o.constructKind) = (.ok names, g) ∧
      (convertEach o names {}).Yields Graph.host g report g₁ := by
  have hlisted : ∃ g₁, (convertListed o).Yields host g report g₁ := by
    simp only [Yields, convertAll, ExceptT.run_mk, Dialogue.bind_eq, Dialogue.run_bind] at h ⊢
    generalize (convertListed o).run.run host g = out at h ⊢
    generalize (Dialogue.send .clearSelection).run host out.2 = out' at h
    obtain ⟨outcome, g₁⟩ := out
    obtain ⟨cleared, g₂⟩ := out'
    refine ⟨g₁, ?_⟩
    cases outcome with
    | error e => simp [Dialogue.pure_eq] at h
    | ok r =>
        cases cleared with
        | error e => simp [Dialogue.pure_eq] at h
        | ok _ =>
            simp only [Dialogue.pure_eq, Dialogue.run_done, Prod.mk.injEq] at h
            rw [h.1]
  obtain ⟨g₁, hlisted⟩ := hlisted
  obtain ⟨names, g₂, hask, heach⟩ := yields_bind.1 hlisted
  obtain ⟨names', -, hrespond⟩ := hhost.listing g o.constructKind
  have hask := yields_ask.1 hask
  obtain ⟨hnames, rfl⟩ := Prod.mk.inj (hrespond.symm.trans hask)
  refine ⟨names, g₁, hask, ?_⟩
  rw [Yields, ← hhost.run_eq (asks_convertEach o names {})]
  exact heach

end Attempt

/-! ### Constructs and their connections -/

namespace Graph

variable {g g' g'' : Graph} {o : Options} {gone names : List String} {name a b x : String}

/-- A node **feeds** a construct when a connection leads from it to the input of the construct. -/
def Feeds (g : Graph) (o : Options) (a b : String) : Prop :=
  ∃ p source, p.isWithin ⟨b, o.input⟩ = true ∧ g.source? p = some source ∧ source.node = a

/-- A construct is **live** when some node feeds it. -/
def Live (g : Graph) (o : Options) (b : String) : Prop :=
  ∃ a, g.Feeds o a b

/-- A construct **drives** another one when its script assigns to the input of that one. -/
def Drives (g : Graph) (o : Options) (a b : String) : Prop :=
  ∃ text p, g.value? ⟨a, o.scriptAttribute⟩ = some (.string text) ∧
    (⟨a, o⟩ : Context).Assigns (scriptSentences text) p ∧ p.isWithin ⟨b, o.input⟩ = true

/-- No live construct drives another construct. -/
def Undriven (g : Graph) (o : Options) : Prop :=
  ∀ a ∈ g.listConstructs o.constructKind, ∀ b ∈ g.listConstructs o.constructKind, a ≠ b →
    g.Live o a → ¬ g.Drives o a b

/-- Every live construct is fed by a node that is no other live construct. -/
def FedFromOutside (g : Graph) (o : Options) : Prop :=
  ∀ b ∈ g.listConstructs o.constructKind, g.Live o b →
    ∃ a, g.Feeds o a b ∧ (a ∈ g.listConstructs o.constructKind → g.Live o a → a = b)

/-- Whether a construct is live once the nodes `gone` are deleted. -/
def isLive (g : Graph) (o : Options) (gone : List String) (name : String) : Bool :=
  g.connections.toList.any fun e => e.1.isWithin ⟨name, o.input⟩ && !gone.contains e.2.node

theorem isLive_iff : g.isLive o gone name = true ↔ ∃ a, g.Feeds o a name ∧ a ∉ gone := by
  simp only [isLive, List.any_eq_true, Bool.and_eq_true, Bool.not_eq_true', Prod.exists,
    Std.ExtTreeMap.mem_toList_iff_getElem?_eq_some, List.contains_eq_mem, decide_eq_false_iff_not]
  constructor
  · rintro ⟨p, source, hs, hp, hgone⟩
    exact ⟨source.node, ⟨p, source, hp, hs, rfl⟩, hgone⟩
  · rintro ⟨_, ⟨p, source, hp, hs, rfl⟩, hgone⟩
    exact ⟨p, source, hs, hp, hgone⟩

theorem live_iff : g.Live o name ↔ g.isLive o [] name = true := by
  rw [isLive_iff]
  simp [Live]

instance : Decidable (g.Live o name) :=
  decidable_of_iff _ live_iff.symm

/-- The plugs that the script of a construct assigns to. -/
def scriptTargets (g : Graph) (o : Options) (name : String) : List Plug :=
  match g.value? ⟨name, o.scriptAttribute⟩ with
  | some (.string text) =>
    (scriptSentences text).filterMap fun s => (Context.resolve ⟨name, o⟩ s.target).toOption
  | _ => []

theorem drives_iff :
    g.Drives o a b ↔ ∃ p ∈ g.scriptTargets o a, p.isWithin ⟨b, o.input⟩ = true := by
  unfold Drives scriptTargets
  split
  · next text htext =>
    simp [htext, Context.Assigns, List.mem_filterMap, toOption_eq_some_iff]
  · next hnone =>
    simp only [List.not_mem_nil, false_and, exists_false, iff_false]
    rintro ⟨text, p, htext, -⟩
    exact hnone text htext

instance : Decidable (g.Drives o a b) :=
  decidable_of_iff _ drives_iff.symm

instance : Decidable (g.Undriven o) :=
  inferInstanceAs (Decidable (∀ a ∈ g.listConstructs o.constructKind,
    ∀ b ∈ g.listConstructs o.constructKind, a ≠ b → g.Live o a → ¬ g.Drives o a b))

theorem fedFromOutside_iff :
    g.FedFromOutside o ↔ ∀ b ∈ g.listConstructs o.constructKind, g.Live o b →
      g.isLive o ((g.listConstructs o.constructKind).filter fun a => a ≠ b ∧ g.Live o a) b := by
  refine forall₂_congr fun b _ => imp_congr_right fun _ => ?_
  rw [isLive_iff]
  refine exists_congr fun a => and_congr_right fun _ => ?_
  rw [List.mem_filter]
  grind

instance : Decidable (g.FedFromOutside o) :=
  decidable_of_iff _ fedFromOutside_iff.symm

/-- The constructs among `names` that are converted when they are gone through in this order. A
construct is deleted once it is converted. -/
def survey (g : Graph) (o : Options) : List String → List String → List String
  | _, [] => []
  | gone, name :: names =>
    if g.isLive o gone name then name :: g.survey o (gone ++ [name]) names
    else g.survey o gone names

/-! ### The survey -/

theorem survey_subset : g.survey o gone names ⊆ names := by
  induction names generalizing gone with
  | nil => simp [survey]
  | cons name names ih =>
      unfold survey
      split
      · exact List.cons_subset_cons name ih
      · exact List.subset_cons_of_subset name ih

/-- Only live constructs are found. -/
theorem live_of_mem_survey (h : x ∈ g.survey o gone names) : g.Live o x := by
  induction names generalizing gone with
  | nil => simp [survey] at h
  | cons name names ih =>
      unfold survey at h
      split at h
      · next hlive =>
        obtain rfl | h := List.mem_cons.1 h
        · obtain ⟨a, ha, -⟩ := isLive_iff.1 hlive
          exact ⟨a, ha⟩
        · exact ih h
      · exact ih h

theorem survey_append {names' : List String} :
    g.survey o gone (names ++ names') =
      g.survey o gone names ++ g.survey o (gone ++ g.survey o gone names) names' := by
  induction names generalizing gone with
  | nil => simp [survey]
  | cons name names ih =>
      rw [List.cons_append, survey, survey]
      split
      · rw [ih]
        simp
      · exact ih

/-- A live construct that is listed first is found. -/
theorem mem_survey_of_first (h : g.Live o x) : x ∈ g.survey o [] (x :: names) := by
  obtain ⟨a, ha⟩ := h
  rw [survey, if_pos (isLive_iff.2 ⟨a, ha, by simp⟩)]
  exact List.mem_cons_self

/-- **The survey finds all live constructs if they are fed from outside.** The nodes that are gone
are live constructs that came before. -/
theorem mem_survey_iff (hfed : g.FedFromOutside o)
    (hnames : names ⊆ g.listConstructs o.constructKind) (hnodup : names.Nodup)
    (hgone : ∀ a ∈ gone, a ∈ g.listConstructs o.constructKind ∧ g.Live o a ∧ a ∉ names) :
    x ∈ g.survey o gone names ↔ x ∈ names ∧ g.Live o x := by
  refine ⟨fun h => ⟨survey_subset h, live_of_mem_survey h⟩, ?_⟩
  rintro ⟨hx, hlive⟩
  induction names generalizing gone with
  | nil => simp at hx
  | cons name names ih =>
      obtain ⟨hfresh, hnodup⟩ := List.nodup_cons.1 hnodup
      obtain ⟨hname, hnames⟩ := List.cons_subset.1 hnames
      have hgone' : ∀ a ∈ gone, a ∈ g.listConstructs o.constructKind ∧ g.Live o a ∧ a ∉ names :=
        fun a ha => by
          obtain ⟨hlist, hlive, hnot⟩ := hgone a ha
          exact ⟨hlist, hlive, fun hmem => hnot (List.mem_cons_of_mem name hmem)⟩
      by_cases hliveName : g.Live o name
      · obtain ⟨a, ha, houtside⟩ := hfed name hname hliveName
        have hkept : a ∉ gone := by
          intro hmem
          obtain ⟨hlist, hliveA, hnot⟩ := hgone a hmem
          exact hnot (houtside hlist hliveA ▸ List.mem_cons_self)
        rw [survey, if_pos (isLive_iff.2 ⟨a, ha, hkept⟩)]
        obtain rfl | hx := List.mem_cons.1 hx
        · exact List.mem_cons_self
        · refine List.mem_cons_of_mem name (ih hnames hnodup (fun a ha => ?_) hx)
          obtain hold | hnew := List.mem_append.1 ha
          · exact hgone' a hold
          · obtain rfl := List.mem_singleton.1 hnew
            exact ⟨hname, hliveName, hfresh⟩
      · have hidle : ¬ g.isLive o gone name = true := by
          rw [isLive_iff]
          rintro ⟨a, ha, -⟩
          exact hliveName ⟨a, ha⟩
        rw [survey, if_neg hidle]
        obtain rfl | hx := List.mem_cons.1 hx
        · exact absurd hlive hliveName
        · exact ih hnames hnodup hgone' hx

/-- The constructs of a graph are nodes. -/
theorem mem_nodes_of_mem_listConstructs {kind : String} (h : name ∈ g.listConstructs kind) :
    name ∈ g.nodes := by
  simp only [listConstructs, List.mem_map, List.mem_filter, Prod.exists,
    Std.ExtTreeMap.mem_toList_iff_getElem?_eq_some] at h
  obtain ⟨_, n, ⟨hn, -⟩, rfl⟩ := h
  exact mem_nodes_of_eq_some hn

/-- No construct is listed twice. -/
theorem nodup_listConstructs (g : Graph) (kind : String) : (g.listConstructs kind).Nodup := by
  have hkeys : g.nodes.toList.Pairwise fun e e' => e.1 ≠ e'.1 := by
    refine Std.ExtTreeMap.distinct_keys_toList.imp fun hne heq => hne ?_
    rw [heq]
    exact Std.ReflCmp.compare_self
  exact List.pairwise_map.2 (hkeys.filter _)

/-- **The order matters where a construct is fed by other live constructs only**: some construct is
found when it is listed first, and in another order it is not. -/
theorem exists_survey_ne (hfed : ¬ g.FedFromOutside o) :
    ∃ first second, first.Perm (g.listConstructs o.constructKind) ∧
      second.Perm (g.listConstructs o.constructKind) ∧
      ∃ x, x ∈ g.survey o [] first ∧ x ∈ second ∧ x ∉ g.survey o [] second := by
  simp only [FedFromOutside, not_forall, not_exists, not_and] at hfed
  obtain ⟨b, hb, hlive, hinside⟩ := hfed
  have hnodup := g.nodup_listConstructs o.constructKind
  generalize g.listConstructs o.constructKind = constructs at *
  have hmoved : ∀ x ∈ constructs, (x :: constructs.erase x).Perm constructs := fun x hx =>
    (List.perm_cons_erase hx).symm
  -- The construct comes last. If any other live one is missing, that one is what we look for.
  have hlast : (constructs.erase b ++ [b]).Perm constructs :=
    (List.perm_append_singleton b _).trans (hmoved b hb)
  by_cases hall : ∀ x ∈ constructs.erase b, g.Live o x → x ∈ g.survey o [] (constructs.erase b)
  · refine ⟨_, _, hmoved b hb, hlast, b, mem_survey_of_first hlive, by simp, ?_⟩
    have hidle : ¬ g.isLive o ([] ++ g.survey o [] (constructs.erase b)) b = true := by
      rw [isLive_iff]
      rintro ⟨a, ha, hkept⟩
      obtain ⟨hlist, hliveA, hne⟩ := hinside a ha
      exact hkept (by simpa using hall a ((List.mem_erase_of_ne hne).2 hlist) hliveA)
    rw [survey_append, List.mem_append, survey, if_neg hidle]
    rintro (hmem | hmem)
    · exact hnodup.not_mem_erase (survey_subset hmem)
    · simp [survey] at hmem
  · simp only [not_forall] at hall
    obtain ⟨x, hx, hliveX, hmissing⟩ := hall
    have hxb : x ≠ b := fun heq => hnodup.not_mem_erase (heq ▸ hx)
    refine ⟨_, _, hmoved x (List.mem_of_mem_erase hx), hlast, x, mem_survey_of_first hliveX,
      List.mem_append_left _ hx, ?_⟩
    rw [survey_append, List.mem_append]
    rintro (hmem | hmem)
    · exact hmissing hmem
    · exact hxb (List.mem_singleton.1 (survey_subset hmem))

/-! ### Batches -/

/-- A graph answers that something is connected exactly when there is a connection. -/
theorem isIdle_eq_false_iff {p : Plug} {incoming : Option (List Plug)}
    (h : g.listIncoming p = .ok incoming) :
    isIdle incoming = false ↔
      ∃ dest source, dest.isWithin p = true ∧ g.source? dest = some source := by
  obtain ⟨-, rfl⟩ := listIncoming_eq_ok_iff.1 h
  have hidle : isIdle (if g.ending p = [] then none else some ((g.ending p).map Prod.snd)) =
      (g.ending p).isEmpty := by
    cases g.ending p <;> rfl
  rw [hidle, List.isEmpty_eq_false_iff_exists_mem]
  simp only [Prod.exists, mem_ending, and_comm]

/-- What is known about a construct that a batch has not come to yet, once the constructs `gone`
were converted: it holds the script that it held, and it lacks the connections from these. -/
structure Pending (g : Graph) (o : Options) (gone : List String) (g' : Graph) (name : String) :
    Prop where
  mem_nodes : name ∈ g'.nodes
  script : ∀ text, g'.value? ⟨name, o.scriptAttribute⟩ = some (.string text) →
    g.value? ⟨name, o.scriptAttribute⟩ = some (.string text)
  source?_eq : ∀ p : Plug, p.isWithin ⟨name, o.input⟩ = true →
    g'.source? p = (g.source? p).filter fun source => !gone.contains source.node

namespace Pending

theorem refl (h : name ∈ g.nodes) : g.Pending o [] g name where
  mem_nodes := h
  script _ htext := htext
  source?_eq p _ := by
    cases g.source? p with
    | none => rfl
    | some source => rfl

/-- Whether the construct is live is answered as the survey has it. -/
theorem isIdle_eq (h : g.Pending o gone g' name) {incoming : Option (List Plug)}
    (hask : g'.listIncoming ⟨name, o.input⟩ = .ok incoming) :
    isIdle incoming = !g.isLive o gone name := by
  have hiff : isIdle incoming = false ↔ g.isLive o gone name = true := by
    rw [isIdle_eq_false_iff hask, isLive_iff]
    constructor
    · rintro ⟨dest, source, hdest, hs⟩
      rw [h.source?_eq dest hdest, Option.filter_eq_some_iff] at hs
      exact ⟨source.node, ⟨dest, source, hdest, hs.1, rfl⟩, by simpa using hs.2⟩
    · rintro ⟨_, ⟨dest, source, hdest, hs, rfl⟩, hkept⟩
      refine ⟨dest, source, hdest, ?_⟩
      rw [h.source?_eq dest hdest, hs, Option.filter_some, if_pos (by simpa using hkept)]
  cases hlive : g.isLive o gone name <;> cases hidle : isIdle incoming <;> simp_all

/-- Another construct is converted that does not drive this one. -/
theorem replace (h : g.Pending o gone g' name) (hne : name ≠ a) (ha : g.Pending o gone g' a)
    (hdrive : ¬ g.Drives o a name) (hwell : g'.WellFormed) {count : Nat}
    (hrun : (replaceConstruct ⟨a, o⟩).Yields Graph.host g' count g'') :
    g.Pending o (gone ++ [a]) g'' name := by
  obtain ⟨text, created, compiled, htext, hnodes, hdelete, -⟩ :=
    Attempt.yields_replaceConstruct hrun
  have hafter := aftermath_compileNodes ⟨a, o⟩ hwell text
  rw [hnodes] at hafter
  obtain ⟨hfoot, -⟩ := hafter
  have hnode : g''.nodes[name]? = compiled.nodes[name]? := nodes_deleteNode hdelete hne
  refine ⟨?_, fun text' htext' => ?_, fun p hp => ?_⟩
  · rw [Std.ExtTreeMap.mem_iff_isSome_getElem?, hnode, ← Std.ExtTreeMap.mem_iff_isSome_getElem?]
    exact (hfoot.kept_node h.mem_nodes).1
  · refine h.script text' (hfoot.value?_eq_some_of_not_isScalar h.mem_nodes ?_ rfl)
    rwa [value?, ← hnode]
  · have hpnode : p.node = name := Plug.node_eq_of_isWithin hp
    have hassign : ¬ (⟨a, o⟩ : Context).Assigns (scriptSentences text) p := fun hassign =>
      hdrive ⟨text, p, ha.script text htext, hassign, hp⟩
    rw [source?_deleteNode hdelete, (hfoot.kept_plug (hpnode ▸ h.mem_nodes) hassign).2.2,
      h.source?_eq p hp, Option.filter_filter]
    congr 1
    funext source
    rw [Bool.eq_iff_iff]
    simp [hpnode, hne, and_comm]

end Pending

/-- **A batch converts what the survey finds**, and it skips the rest. -/
theorem survey_eq_of_convertEach {report result : Report} (hwell : g'.WellFormed)
    (hpending : ∀ name ∈ names, g.Pending o gone g' name) (hnodup : names.Nodup)
    (hdrive : ∀ a ∈ names, ∀ b ∈ names, a ≠ b → g.Live o a → ¬ g.Drives o a b)
    (h : (convertEach o names report).Yields Graph.host g' result g'') :
    result.converted = report.converted ++ g.survey o gone names ∧
      result.skipped = report.skipped ++ names.filter fun x => x ∉ g.survey o gone names := by
  induction names generalizing gone g' report with
  | nil =>
      obtain ⟨rfl, -⟩ := Attempt.yields_pure.1 h
      simp [survey]
  | cons name names ih =>
      obtain ⟨hfresh, hnodup⟩ := List.nodup_cons.1 hnodup
      have hname := hpending name List.mem_cons_self
      obtain ⟨incoming, _, hasked, hrest⟩ := Attempt.yields_bind.1 h
      obtain ⟨hask, rfl⟩ := perform_listIncoming.1 (host_respond_eq_ok.1
        (Attempt.yields_ask.1 hasked))
      have hdrive' : ∀ a ∈ names, ∀ b ∈ names, a ≠ b → g.Live o a → ¬ g.Drives o a b :=
        fun a ha b hb => hdrive a (List.mem_cons_of_mem name ha) b (List.mem_cons_of_mem name hb)
      rw [hname.isIdle_eq hask] at hrest
      cases hlive : g.isLive o gone name with
      | false =>
          rw [if_pos (by simp [hlive])] at hrest
          have hsurvey : g.survey o gone (name :: names) = g.survey o gone names := by
            rw [survey, if_neg (by simp [hlive])]
          have hmissing : name ∉ g.survey o gone names := fun hmem => hfresh (survey_subset hmem)
          obtain ⟨hconverted, hskipped⟩ := ih hwell
            (fun x hx => hpending x (List.mem_cons_of_mem name hx)) hnodup hdrive' hrest
          rw [hsurvey]
          refine ⟨hconverted, ?_⟩
          rw [hskipped, List.filter_cons_of_pos (by simpa using hmissing)]
          simp
      | true =>
          rw [if_neg (by simp [hlive])] at hrest
          obtain ⟨count, g₁, hwithin, hrest⟩ := Attempt.yields_bind.1 hrest
          have hreplace := Attempt.yields_within.1 hwithin
          have hsurvey : g.survey o gone (name :: names) =
              name :: g.survey o (gone ++ [name]) names := by
            rw [survey, if_pos hlive]
          obtain ⟨a, ha, -⟩ := isLive_iff.1 hlive
          have hpending' : ∀ x ∈ names, g.Pending o (gone ++ [name]) g₁ x := fun x hx => by
            have hne : x ≠ name := fun heq => hfresh (heq ▸ hx)
            exact (hpending x (List.mem_cons_of_mem name hx)).replace hne hname
              (hdrive name List.mem_cons_self x (List.mem_cons_of_mem name hx) hne.symm ⟨a, ha⟩)
              hwell hreplace
          have hwell' : g₁.WellFormed := by
            have hrun := run_preserves (fun h hr => WellFormed.perform h hr)
              (replaceConstruct ⟨name, o⟩).run hwell
            rwa [hreplace] at hrun
          obtain ⟨hconverted, hskipped⟩ := ih hwell' hpending' hnodup hdrive' hrest
          rw [hsurvey]
          refine ⟨by rw [hconverted]; simp, ?_⟩
          rw [hskipped, List.filter_cons_of_neg (by simp)]
          congr 1
          refine List.filter_congr fun x hx => ?_
          have hne : x ≠ name := fun heq => hfresh (heq ▸ hx)
          simp [hne]

/-- A batch that succeeds reports what the survey of the listed constructs finds. -/
theorem survey_eq_of_convertAll {host : Host Graph} {report : Report} (hg : g.Reachable)
    (hdrive : g.Undriven o) (hhost : host.Relists)
    (h : (convertAll o).Yields host g report g') :
    ∃ names : List String, host.respond g (.listConstructs o.constructKind) = (.ok names, g) ∧
      names.Perm (g.listConstructs o.constructKind) ∧ report.converted = g.survey o [] names ∧
      ∀ x, x ∈ report.skipped ↔ x ∈ names ∧ x ∉ g.survey o [] names := by
  obtain ⟨names, g₁, hrespond, heach⟩ := Attempt.yields_convertAll hhost h
  obtain ⟨names', hperm, hrespond'⟩ := hhost.listing g o.constructKind
  obtain rfl : names' = names :=
    Except.ok.inj (Prod.mk.inj (hrespond'.symm.trans hrespond)).1
  obtain ⟨hconverted, hskipped⟩ := survey_eq_of_convertEach hg.wellFormed
    (fun x hx => Pending.refl (mem_nodes_of_mem_listConstructs (hperm.mem_iff.1 hx)))
    (hperm.nodup_iff.2 (g.nodup_listConstructs _))
    (fun a ha b hb => hdrive a (hperm.mem_iff.1 ha) b (hperm.mem_iff.1 hb)) heach
  refine ⟨names', hrespond, hperm, by simpa using hconverted, fun x => ?_⟩
  rw [hskipped]
  simp

/-- Two orders in which some construct is converted by the one batch and skipped by the other, if
both succeed. -/
theorem exists_orders_ne (hg : g.Reachable) (hdrive : g.Undriven o)
    (hfed : ¬ g.FedFromOutside o) :
    ∃ first second : List String, first.Perm (g.listConstructs o.constructKind) ∧
      second.Perm (g.listConstructs o.constructKind) ∧
      ∃ x, ∀ r₁ r₂ g₁ g₂, (convertAll o).run.run (listing first) g = (.ok r₁, g₁) →
        (convertAll o).run.run (listing second) g = (.ok r₂, g₂) →
        x ∈ r₁.converted ∧ x ∉ r₂.converted ∧ x ∈ r₂.skipped := by
  obtain ⟨first, second, hfirst, hsecond, x, hmem, hlisted, hmissing⟩ := exists_survey_ne hfed
  refine ⟨first, second, hfirst, hsecond, x, fun r₁ r₂ g₁ g₂ h₁ h₂ => ?_⟩
  obtain ⟨names₁, hnames₁, -, hconverted₁, -⟩ :=
    survey_eq_of_convertAll hg hdrive (relists_listing first) h₁
  obtain ⟨names₂, hnames₂, -, hconverted₂, hskipped₂⟩ :=
    survey_eq_of_convertAll hg hdrive (relists_listing second) h₂
  obtain rfl : first = names₁ := by simpa [listing, hfirst] using hnames₁
  obtain rfl : second = names₂ := by simpa [listing, hsecond] using hnames₂
  rw [hconverted₁, hconverted₂, hskipped₂]
  exact ⟨hmem, hmissing, hlisted, hmissing⟩

/-- Batches are **independent of the order**: where hosts behave as the graph but list constructs in
orders of their own, batches that succeed convert the same constructs and skip the same. -/
def OrderIndependent (g : Graph) (o : Options) : Prop :=
  ∀ host₁ host₂ : Host Graph, host₁.Relists → host₂.Relists →
    ∀ r₁ r₂ g₁ g₂, (convertAll o).run.run host₁ g = (.ok r₁, g₁) →
      (convertAll o).run.run host₂ g = (.ok r₂, g₂) →
      (∀ x, x ∈ r₁.converted ↔ x ∈ r₂.converted) ∧ ∀ x, x ∈ r₁.skipped ↔ x ∈ r₂.skipped

/-- Where every live construct is fed from outside, a batch converts the live ones. -/
theorem FedFromOutside.orderIndependent (hfed : g.FedFromOutside o) (hg : g.Reachable)
    (hdrive : g.Undriven o) : g.OrderIndependent o := by
  intro host₁ host₂ hhost₁ hhost₂ r₁ r₂ g₁ g₂ h₁ h₂
  obtain ⟨names₁, -, hperm₁, hconverted₁, hskipped₁⟩ :=
    survey_eq_of_convertAll hg hdrive hhost₁ h₁
  obtain ⟨names₂, -, hperm₂, hconverted₂, hskipped₂⟩ :=
    survey_eq_of_convertAll hg hdrive hhost₂ h₂
  have hsurvey : ∀ names : List String, names.Perm (g.listConstructs o.constructKind) → ∀ x,
      x ∈ g.survey o [] names ↔ x ∈ g.listConstructs o.constructKind ∧ g.Live o x := by
    intro names hperm x
    rw [mem_survey_iff hfed hperm.subset
      (hperm.nodup_iff.2 (g.nodup_listConstructs _)) (by simp), hperm.mem_iff]
  refine ⟨fun x => ?_, fun x => ?_⟩
  · rw [hconverted₁, hconverted₂, hsurvey names₁ hperm₁, hsurvey names₂ hperm₂]
  · rw [hskipped₁, hskipped₂, hsurvey names₁ hperm₁, hsurvey names₂ hperm₂, hperm₁.mem_iff,
      hperm₂.mem_iff]

end Graph

/-- **When the order of constructs does not matter.** Let no live construct of a reachable graph
assign to the input of another construct, and let hosts behave as the graph but list constructs in
orders of their own.

* If every live construct is fed by a node that is no other live construct, all batches that
  succeed convert the same constructs and skip the same.
* Otherwise there are two orders and a construct such that, if the batches in both orders succeed,
  it is converted in the one and skipped in the other. That they succeed is a premise here: the
  orders are found in the scene at the start, and a script may still fail to compile.
* If the batch succeeds in every order, then the order does not matter exactly when every live
  construct is fed by a node that is no other live construct. -/
theorem convertAll_order_independent_iff {g : Graph} (hg : g.Reachable) {o : Options}
    (hdrive : g.Undriven o) :
    (g.FedFromOutside o → g.OrderIndependent o) ∧
    (¬ g.FedFromOutside o → ∃ host₁ host₂ : Host Graph, host₁.Relists ∧ host₂.Relists ∧
      ∃ x, ∀ r₁ r₂ g₁ g₂, (convertAll o).run.run host₁ g = (.ok r₁, g₁) →
        (convertAll o).run.run host₂ g = (.ok r₂, g₂) →
        x ∈ r₁.converted ∧ x ∉ r₂.converted ∧ x ∈ r₂.skipped) ∧
    ((∀ names : List String, names.Perm (g.listConstructs o.constructKind) →
        ∃ r g', (convertAll o).run.run (Graph.listing names) g = (.ok r, g')) →
      (g.OrderIndependent o ↔ g.FedFromOutside o)) := by
  refine ⟨fun hfed => hfed.orderIndependent hg hdrive, fun hfed => ?_, fun hsucceed => ?_⟩
  · obtain ⟨first, second, -, -, hdiffer⟩ := Graph.exists_orders_ne hg hdrive hfed
    exact ⟨_, _, Graph.relists_listing first, Graph.relists_listing second, hdiffer⟩
  · refine ⟨fun hsame => ?_, fun hfed => hfed.orderIndependent hg hdrive⟩
    by_contra hfed
    obtain ⟨first, second, hfirst, hsecond, x, hdiffer⟩ :=
      Graph.exists_orders_ne hg hdrive hfed
    obtain ⟨r₁, g₁, h₁⟩ := hsucceed first hfirst
    obtain ⟨r₂, g₂, h₂⟩ := hsucceed second hsecond
    obtain ⟨hconverted, hmissing, -⟩ := hdiffer r₁ r₂ g₁ g₂ h₁ h₂
    obtain ⟨hsame, -⟩ := hsame _ _ (Graph.relists_listing first) (Graph.relists_listing second)
      r₁ r₂ g₁ g₂ h₁ h₂
    exact hmissing ((hsame x).1 hconverted)

/-- Two constructs, of which the first feeds the second, before anything is connected. -/
def Graph.unwiredChain : Graph :=
  ((((((((Graph.empty.addNode "ctrl" (.other "transform")).addAttribute ⟨"ctrl", "tx"⟩
    (.double 3.0)).addNode "out" (.other "transform")).addAttribute ⟨"out", "tx"⟩
    (.double 0.0)).addAttribute ⟨"out", "ty"⟩ (.double 0.0)).addNode "a"
    (.other "expression")).addAttribute ⟨"a", "expression"⟩ (.string "out.tx = 1;")).addNode "b"
    (.other "expression")).addAttribute ⟨"b", "expression"⟩ (.string "out.ty = 1;")

/-- A control feeds the construct `a`. -/
def Graph.halfChain : Graph :=
  (unwiredChain.addConnection ⟨"ctrl", "tx"⟩ ⟨"a", "input[0]"⟩).toOption.getD unwiredChain

/-- A control feeds the construct `a`, which feeds the construct `b`. -/
def Graph.chain : Graph :=
  (halfChain.addConnection ⟨"a", "output[0]"⟩ ⟨"b", "input[0]"⟩).toOption.getD halfChain

/-- The control feeds both constructs. -/
def Graph.fedChain : Graph :=
  (chain.addConnection ⟨"ctrl", "tx"⟩ ⟨"b", "input[1]"⟩).toOption.getD chain

/-- The construct `b` is skipped when it is listed last, and converted when it is listed first. The
batch succeeds in both orders, so the order matters. Once the control feeds `b` as well, it is
converted in both. -/
theorem convertAll_order_independent_iff_chain :
    Graph.chain.Reachable ∧ Graph.chain.Undriven {} ∧ ¬ Graph.chain.FedFromOutside {} ∧
    ((convertAll {}).run.run (Graph.listing ["a", "b"]) Graph.chain).1 = .ok ⟨["a"], ["b"], 0⟩ ∧
    ((convertAll {}).run.run (Graph.listing ["b", "a"]) Graph.chain).1 =
      .ok ⟨["b", "a"], [], 0⟩ ∧
    (∃ host₁ host₂ : Host Graph, host₁.Relists ∧ host₂.Relists ∧
      ∃ x, ∀ r₁ r₂ g₁ g₂, (convertAll {}).run.run host₁ Graph.chain = (.ok r₁, g₁) →
        (convertAll {}).run.run host₂ Graph.chain = (.ok r₂, g₂) →
        x ∈ r₁.converted ∧ x ∉ r₂.converted ∧ x ∈ r₂.skipped) ∧
    ¬ Graph.chain.OrderIndependent {} ∧
    Graph.fedChain.Reachable ∧ Graph.fedChain.Undriven {} ∧ Graph.fedChain.FedFromOutside {} ∧
    ∃ r₁ r₂, ((convertAll {}).run.run (Graph.listing ["a", "b"]) Graph.fedChain).1 = .ok r₁ ∧
      ((convertAll {}).run.run (Graph.listing ["b", "a"]) Graph.fedChain).1 = .ok r₂ ∧
      (∀ x, x ∈ r₁.converted ↔ x ∈ r₂.converted) ∧ ∀ x, x ∈ r₁.skipped ↔ x ∈ r₂.skipped := by
  have hunwired : Graph.unwiredChain.Reachable :=
    .addAttribute _ _ (.addNode _ _ (.addAttribute _ _ (.addNode _ _ (.addAttribute _ _
      (.addAttribute _ _ (.addNode _ _ (.addAttribute _ _ (.addNode _ _ .empty))))))))
  have hhalf : Graph.halfChain.Reachable := hunwired.getD hunwired.addConnection
  have hchain : Graph.chain.Reachable := hhalf.getD hhalf.addConnection
  have hfed : Graph.fedChain.Reachable := hchain.getD hchain.addConnection
  have hdrive : Graph.chain.Undriven {} := by decide +kernel
  have hdrive' : Graph.fedChain.Undriven {} := by decide +kernel
  have hinside : ¬ Graph.chain.FedFromOutside {} := by decide +kernel
  have houtside : Graph.fedChain.FedFromOutside {} := by decide +kernel
  have hfirst : ((convertAll {}).run.run (Graph.listing ["a", "b"]) Graph.fedChain).1 =
      .ok ⟨["a", "b"], [], 0⟩ :=
    toOption_eq_some_iff.1 (by decide +kernel)
  have hsecond : ((convertAll {}).run.run (Graph.listing ["b", "a"]) Graph.fedChain).1 =
      .ok ⟨["b", "a"], [], 0⟩ :=
    toOption_eq_some_iff.1 (by decide +kernel)
  have hlast : ((convertAll {}).run.run (Graph.listing ["a", "b"]) Graph.chain).1 =
      .ok ⟨["a"], ["b"], 0⟩ :=
    toOption_eq_some_iff.1 (by decide +kernel)
  have hlead : ((convertAll {}).run.run (Graph.listing ["b", "a"]) Graph.chain).1 =
      .ok ⟨["b", "a"], [], 0⟩ :=
    toOption_eq_some_iff.1 (by decide +kernel)
  have hsucceed : ∀ names : List String, names.Perm (Graph.chain.listConstructs "expression") →
      ∃ r g', (convertAll {}).run.run (Graph.listing names) Graph.chain = (.ok r, g') := by
    have hlisted : Graph.chain.listConstructs "expression" = ["a", "b"] := by decide +kernel
    intro names hperm
    rw [hlisted, List.perm_pair] at hperm
    obtain rfl | rfl := hperm
    · exact ⟨_, _, Prod.ext hlast rfl⟩
    · exact ⟨_, _, Prod.ext hlead rfl⟩
  refine ⟨hchain, hdrive, hinside, hlast, hlead,
    (convertAll_order_independent_iff hchain hdrive).2.1 hinside,
    mt ((convertAll_order_independent_iff hchain hdrive).2.2 hsucceed).1 hinside, hfed, hdrive',
    houtside, _, _, hfirst, hsecond, ?_⟩
  exact (convertAll_order_independent_iff hfed hdrive').1 houtside _ _
    (Graph.relists_listing ["a", "b"]) (Graph.relists_listing ["b", "a"]) _ _ _ _
    (Prod.ext hfirst rfl) (Prod.ext hsecond rfl)

/-- The construct `b` is not fed by anything, until the construct `a` is converted. -/
def Graph.drivingChain : Graph :=
  halfChain.addAttribute ⟨"a", "expression"⟩ (.string "b.input[0] = ctrl.tx;")

-- A construct that drives another one makes the order matter as well.
example : Graph.drivingChain.FedFromOutside {} ∧
    ((convertAll {}).run.run (Graph.listing ["a", "b"]) Graph.drivingChain).1.toOption =
      some ⟨["a", "b"], [], 0⟩ ∧
    ((convertAll {}).run.run (Graph.listing ["b", "a"]) Graph.drivingChain).1.toOption =
      some ⟨["a"], ["b"], 0⟩ := by
  decide +kernel

end RigScript
