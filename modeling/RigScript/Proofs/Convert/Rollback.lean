import RigScript.Proofs.Compile.Assembly
import RigScript.Proofs.Convert.Listing

/-!
# Units that fail

A unit may fail while its script is built, and a construct may fail to be deleted afterwards. Either
way what is done next depends on the options and on the nodes created, and the failure that is
reported is the one that came first. This module says so for the courses that a unit may take with
any host. In a scene graph the clean-up itself is never refused.

## Main definitions

* `RigScript.Rollback.Cleans`: the events of cleaning up
* `RigScript.Builds`: the events of building a script
* `RigScript.Replacement`: the events of replacing a construct

## Main results

* `RigScript.replacement_of_course`: the courses of replacing a construct
* `RigScript.trace_deleteNodes`: a scene graph grants every deletion of rolling back
* `RigScript.failed_unit_cleaned`: **the failure path of a unit**
-/

namespace RigScript

/-! ### Cleaning up -/

/-- Deletions of nodes in order, up to the last one or to the first that is refused. -/
inductive Deletes : List String → List Event → Prop
  | all : Deletes [] []
  | refused (name : String) (names : List String) (e : GraphError) :
      Deletes (name :: names) [⟨.deleteNode name, .error e⟩]
  | next (name : String) {names : List String} {events : List Event} :
      Deletes names events → Deletes (name :: names) (⟨.deleteNode name, .ok ()⟩ :: events)

/-- **The events of cleaning up** after nodes were created: there are none, or the nodes are deleted
in reverse order. -/
def Rollback.Cleans (policy : Rollback) (created : List String) (events : List Event) : Prop :=
  match policy with
  | .keepNodes => events = []
  | .failedConstruct => Deletes created.reverse events

theorem Deletes.of_course {names : List String} {events : List Event}
    (h : (deleteNodes names).Course events ()) : Deletes names events := by
  induction names generalizing events with
  | nil =>
      obtain ⟨rfl, -⟩ := Dialogue.course_done.1 h
      exact .all
  | cons name names ih =>
      obtain ⟨reply, rest, rfl, hrest⟩ := Dialogue.course_ask.1 h
      cases reply with
      | ok _ => exact .next name (ih hrest)
      | error e =>
          obtain ⟨rfl, -⟩ := Dialogue.course_done.1 hrest
          exact .refused name names e

theorem Deletes.exists_mem {names : List String} {events : List Event} (h : Deletes names events)
    {e : Event} (he : e ∈ events) : ∃ name ∈ names, e.request = .deleteNode name := by
  induction h with
  | all => simp at he
  | refused name names err =>
      obtain rfl := List.mem_singleton.1 he
      exact ⟨name, List.mem_cons_self, rfl⟩
  | next name _ ih =>
      obtain rfl | he := List.mem_cons.1 he
      · exact ⟨name, List.mem_cons_self, rfl⟩
      · obtain ⟨name', hname', hr⟩ := ih he
        exact ⟨name', List.mem_cons_of_mem name hname', hr⟩

namespace Rollback.Cleans

variable {policy : Rollback} {created : List String} {events : List Event}

theorem of_course (h : (rollBack policy created).Course events ()) :
    policy.Cleans created events := by
  cases policy with
  | keepNodes => exact (Dialogue.course_done.1 h).1
  | failedConstruct => exact .of_course h

/-- There is nothing to clean up before anything is created. -/
theorem nil (policy : Rollback) : policy.Cleans [] [] := by
  cases policy with
  | keepNodes => rfl
  | failedConstruct => exact .all

/-- Nothing is requested between cleaning up and reporting. -/
theorem of_course_bind {α : Type} {a b : α}
    (h : ((rollBack policy created).bind fun _ => .done a).Course events b) :
    policy.Cleans created events ∧ a = b := by
  obtain ⟨cleanup, last, _, rfl, hclean, hdone⟩ := Dialogue.course_bind.1 h
  obtain ⟨rfl, rfl⟩ := Dialogue.course_done.1 hdone
  rw [List.append_nil]
  exact ⟨of_course hclean, rfl⟩

/-- Cleaning up only deletes nodes that were created. -/
theorem exists_mem (h : policy.Cleans created events) {e : Event} (he : e ∈ events) :
    ∃ name ∈ created, e.request = .deleteNode name := by
  cases policy with
  | keepNodes =>
      obtain rfl : events = [] := h
      simp at he
  | failedConstruct =>
      obtain ⟨name, hname, hr⟩ := Deletes.exists_mem h he
      exact ⟨name, List.mem_reverse.1 hname, hr⟩

/-- Cleaning up creates nothing. -/
theorem createdIn_eq (h : policy.Cleans created events) : createdIn events = [] := by
  refine List.filterMap_eq_nil_iff.2 fun e he => ?_
  obtain ⟨name, -, hr⟩ := h.exists_mem he
  obtain ⟨r, reply⟩ := e
  obtain rfl : r = .deleteNode name := hr
  rfl

end Rollback.Cleans

/-! ### Building -/

/-- **The events of building a script, and how it ends.** A text that is no script asks for
nothing. -/
inductive Builds (c : Context) (script : String) : List Event → Except ConvertError Unit → Prop
  | unread {e : SyntaxError} : Program.parse (script ++ "\n") = .error e →
      Builds c script [] (.error (.parse e))
  | read {p : Program} {events : List Event} {outcome : Except ConvertError Unit}
      {created : List String} : Program.parse (script ++ "\n") = .ok p →
      (Build.program c p).dialogue.Course events (outcome, created) → Builds c script events outcome

/-- Sentences make up passages, whatever their course. -/
theorem passages_of_course {c : Context} {p : Program} {events : List Event}
    {outcome : Except ConvertError Unit} {created : List String}
    (h : (Build.program c p).dialogue.Course events (outcome, created)) :
    Passages c [] (p.sentences?.getD []) events ∧ created = createdIn events := by
  obtain ⟨σ, host, st, rfl, hrun⟩ := Dialogue.course_iff_exists_host.1 h
  unfold Build.program at hrun ⊢
  split at hrun
  · next hnone =>
    obtain ⟨-, rfl⟩ := Prod.mk.inj hrun
    exact ⟨.stop _ _, rfl⟩
  · next ss hss =>
    obtain ⟨hpassages, hnames⟩ := Build.passages_sentences host c ss [] st
    rw [hss]
    refine ⟨hpassages, ?_⟩
    rw [List.nil_append] at hnames
    exact (congrArg Prod.snd hrun).symm.trans hnames

/-- Building deletes nothing. -/
theorem Passages.request_ne_deleteNode {c : Context} {earlier : List String} {ss : List Sentence}
    {events : List Event} (h : Passages c earlier ss events) {e : Event} (he : e ∈ events)
    (name : String) : e.request ≠ .deleteNode name := by
  obtain ⟨s, -, target, names, past, -, hpermits⟩ := h.exists_permits he
  intro hr
  rw [hr] at hpermits
  cases hpermits with
  | furnish hfurnish => exact hfurnish

namespace Builds

variable {c : Context} {script : String} {events : List Event}
  {outcome : Except ConvertError Unit}

/-- The requests are those that the sentences permit. -/
theorem passages (h : Builds c script events outcome) :
    Passages c [] (scriptSentences script) events := by
  cases h with
  | unread hparse => exact .stop _ _
  | read hparse hcourse =>
      rw [scriptSentences, hparse]
      exact (passages_of_course hcourse).1

/-- It ends at the first refusal, which is then reported. -/
theorem endsAtRefusal (h : Builds c script events outcome) : EndsAtRefusal events outcome := by
  cases h with
  | unread hparse => exact .nil
  | read hparse hcourse => exact Build.upright_program c _ hcourse

/-- Building lists nothing and leaves the selection alone. -/
theorem isScenic_eq_false (h : Builds c script events outcome) {e : Event} (he : e ∈ events) :
    e.request.isScenic = false := by
  obtain ⟨s, -, target, names, past, -, hpermits⟩ := h.passages.exists_permits he
  exact hpermits.isScenic_eq_false

end Builds

/-- **The events of compiling a script, and how it ends.** After a failure comes the clean-up. -/
inductive Compilation (c : Context) (script : String) :
    List Event → Except ConvertError (List String) → Prop
  | built {building : List Event} : Builds c script building (.ok ()) →
      Compilation c script building (.ok (createdIn building))
  | failed {building cleanup : List Event} {e : ConvertError} :
      Builds c script building (.error e) →
      c.options.rollback.Cleans (createdIn building) cleanup →
      Compilation c script (building ++ cleanup) (.error e)

theorem compilation_of_course {c : Context} {script : String} {events : List Event}
    {out : Except ConvertError (List String)} (h : (compileNodes c script).run.Course events out) :
    Compilation c script events out := by
  unfold compileNodes at h
  split at h
  · next e hparse =>
    obtain ⟨rfl, rfl⟩ := Attempt.course_throw.1 h
    exact .failed (.unread hparse) (.nil _)
  · next p hparse =>
    rw [compileProgram, ExceptT.run_mk, Dialogue.bind_eq, Dialogue.course_bind] at h
    obtain ⟨building, rest, ⟨outcome, created⟩, rfl, hbuild, hrest⟩ := h
    obtain ⟨-, rfl⟩ := passages_of_course hbuild
    cases outcome with
    | ok _ =>
        obtain ⟨rfl, rfl⟩ := Dialogue.course_done.1 hrest
        rw [List.append_nil]
        exact .built (.read hparse hbuild)
    | error e =>
        obtain ⟨hclean, rfl⟩ := Rollback.Cleans.of_course_bind hrest
        exact .failed (.read hparse hbuild) hclean

/-- Compiling a script deletes only nodes that it created. -/
theorem Compilation.mem_createdIn {c : Context} {script : String} {events : List Event}
    {out : Except ConvertError (List String)} (h : Compilation c script events out) {e : Event}
    (he : e ∈ events) {name : String} (hr : e.request = .deleteNode name) :
    name ∈ createdIn events := by
  cases h with
  | built hbuilds => exact absurd hr (hbuilds.passages.request_ne_deleteNode he name)
  | failed hbuilds hclean =>
      obtain hb | hc := List.mem_append.1 he
      · exact absurd hr (hbuilds.passages.request_ne_deleteNode hb name)
      · obtain ⟨name', hname', hr'⟩ := hclean.exists_mem hc
        obtain rfl : name = name' := Request.deleteNode.inj (hr.symm.trans hr')
        rw [createdIn_append]
        exact List.mem_append_left _ hname'

/-- Counting the nodes afterwards asks for nothing. -/
theorem course_compileScript {c : Context} {script : String} {events : List Event}
    {out : Except ConvertError Nat} :
    (compileScript c script).run.Course events out ↔
      ∃ created, (compileNodes c script).run.Course events created ∧
        created.map List.length = out := by
  rw [compileScript, Attempt.course_bind]
  constructor
  · rintro (⟨e, hfirst, rfl⟩ | ⟨before, after, created, rfl, hfirst, hrest⟩)
    · exact ⟨_, hfirst, rfl⟩
    · obtain ⟨rfl, rfl⟩ := Attempt.course_pure.1 hrest
      rw [List.append_nil]
      exact ⟨_, hfirst, rfl⟩
  · rintro ⟨created, hfirst, rfl⟩
    cases created with
    | error e => exact .inl ⟨e, hfirst, rfl⟩
    | ok created =>
        exact .inr ⟨events, [], created, (List.append_nil _).symm, hfirst,
          Attempt.course_pure.2 ⟨rfl, rfl⟩⟩

/-! ### Replacing a construct -/

/-- The event of reading the script of a construct. -/
abbrev Context.reading (c : Context) (reply : Except GraphError Value) : Event :=
  ⟨.getAttribute ⟨c.identity, c.options.scriptAttribute⟩, reply⟩

/-- **The events of a construct whose script fails to compile, and the failure.** What was created
by then is cleaned up. -/
inductive Stuck (c : Context) : List Event → ConvertError → Prop
  /-- The script cannot be read. -/
  | unread (e : GraphError) : Stuck c [c.reading (.error e)] (.graph e)
  /-- What is read is no text. -/
  | mistyped {v : Value} : (∀ script, v ≠ .string script) →
      Stuck c [c.reading (.ok v)]
        (.attributeType ⟨c.identity, c.options.scriptAttribute⟩ v.kind "string")
  /-- The script cannot be built. -/
  | unbuilt {script : String} {building cleanup : List Event} {e : ConvertError} :
      Builds c script building (.error e) →
      c.options.rollback.Cleans (createdIn building) cleanup →
      Stuck c (c.reading (.ok (.string script)) :: (building ++ cleanup)) e

/-- **The events of replacing a construct, and how it ends.** The script is read and built, and then
the construct is deleted. What fails first is reported, and what was created by then is cleaned
up. -/
inductive Replacement (c : Context) : List Event → Except ConvertError Nat → Prop
  /-- The script fails to compile. -/
  | stuck {events : List Event} {e : ConvertError} : Stuck c events e →
      Replacement c events (.error e)
  /-- The construct cannot be deleted. -/
  | refused {script : String} {building cleanup : List Event} {e : GraphError} :
      Builds c script building (.ok ()) →
      c.options.rollback.Cleans (createdIn building) cleanup →
      Replacement c
        (c.reading (.ok (.string script)) ::
          (building ++ ⟨.deleteNode c.identity, .error e⟩ :: cleanup))
        (.error (.graph e))
  /-- The construct is replaced. -/
  | replaced {script : String} {building : List Event} : Builds c script building (.ok ()) →
      Replacement c
        (c.reading (.ok (.string script)) :: (building ++ [⟨.deleteNode c.identity, .ok ()⟩]))
        (.ok (createdIn building).length)

/-- The construct is deleted, or it is cleaned up because the host refuses. -/
theorem course_commit {c : Context} {created : List String} {events : List Event}
    {out : Except ConvertError Unit} (h : (commit c created).run.Course events out) :
    (events = [⟨.deleteNode c.identity, .ok ()⟩] ∧ out = .ok ()) ∨
      ∃ e cleanup, events = ⟨.deleteNode c.identity, .error e⟩ :: cleanup ∧
        c.options.rollback.Cleans created cleanup ∧ out = .error (.graph e) := by
  obtain ⟨reply, rest, rfl, hrest⟩ := Dialogue.course_ask.1 h
  cases reply with
  | ok _ =>
      obtain ⟨rfl, rfl⟩ := Dialogue.course_done.1 hrest
      exact .inl ⟨rfl, rfl⟩
  | error e =>
      obtain ⟨hclean, rfl⟩ := Rollback.Cleans.of_course_bind hrest
      exact .inr ⟨e, rest, rfl, hclean, rfl⟩

/-- The script that was found where it is looked for. -/
def Context.scriptFound (c : Context) : Except GraphError Value → Except ConvertError String
  | .ok (.string script) => .ok script
  | .ok v => .error (.attributeType ⟨c.identity, c.options.scriptAttribute⟩ v.kind "string")
  | .error e => .error (.graph e)

/-- Reading the script takes one request. -/
theorem run_readScript (c : Context) :
    (readScript c).run = .ask (.getAttribute ⟨c.identity, c.options.scriptAttribute⟩) fun reply =>
      .done (c.scriptFound reply) := by
  refine congrArg (Dialogue.ask _) (funext fun reply => ?_)
  cases reply with
  | error e => rfl
  | ok v => cases v <;> rfl

theorem course_readScript {c : Context} {events : List Event} {out : Except ConvertError String}
    (h : (readScript c).run.Course events out) :
    (∃ script, out = .ok script ∧ events = [c.reading (.ok (.string script))]) ∨
      ∃ e, out = .error e ∧ Stuck c events e := by
  rw [run_readScript] at h
  obtain ⟨reply, rest, rfl, hdone⟩ := Dialogue.course_ask.1 h
  obtain ⟨rfl, rfl⟩ := Dialogue.course_done.1 hdone
  cases reply with
  | error e => exact .inr ⟨_, rfl, .unread e⟩
  | ok v =>
      cases v with
      | string script => exact .inl ⟨script, rfl, rfl⟩
      | _ => exact .inr ⟨_, rfl, .mistyped fun _ hv => nomatch hv⟩

/-- The script of a construct is read and then compiled. -/
theorem course_constructNodes {c : Context} {events : List Event}
    {out : Except ConvertError (List String)} (h : (constructNodes c).run.Course events out) :
    (∃ script building, Builds c script building (.ok ()) ∧ out = .ok (createdIn building) ∧
      events = c.reading (.ok (.string script)) :: building) ∨
      ∃ e, out = .error e ∧ Stuck c events e := by
  obtain ⟨e, hread, rfl⟩ | ⟨before, after, script, rfl, hread, hcompile⟩ := Attempt.course_bind.1 h
  · obtain ⟨script, hout, -⟩ | ⟨e', hout, hfailed⟩ := course_readScript hread
    · cases hout
    · cases hout
      exact .inr ⟨e, rfl, hfailed⟩
  · obtain ⟨script', hout, rfl⟩ | ⟨e, hout, -⟩ := course_readScript hread
    · cases hout
      cases compilation_of_course hcompile with
      | built hbuilds => exact .inl ⟨script, after, hbuilds, rfl, rfl⟩
      | failed hbuilds hclean =>
          rw [List.singleton_append]
          exact .inr ⟨_, rfl, .unbuilt hbuilds hclean⟩
    · cases hout

/-- **The courses of replacing a construct.** -/
theorem replacement_of_course {c : Context} {events : List Event} {out : Except ConvertError Nat}
    (h : (replaceConstruct c).run.Course events out) : Replacement c events out := by
  obtain ⟨e, hnodes, rfl⟩ | ⟨before, after, created, rfl, hnodes, hrest⟩ :=
    Attempt.course_bind.1 h
  · obtain ⟨script, building, -, hout, -⟩ | ⟨e', hout, hfailed⟩ := course_constructNodes hnodes
    · cases hout
    · cases hout
      exact .stuck hfailed
  · obtain ⟨script, building, hbuilds, hout, rfl⟩ | ⟨e, hout, -⟩ := course_constructNodes hnodes
    · cases hout
      rw [List.cons_append]
      obtain ⟨e, hcommit, rfl⟩ | ⟨deleted, last, _, rfl, hcommit, hdone⟩ :=
        Attempt.course_bind.1 hrest
      · obtain ⟨-, hout⟩ | ⟨e', cleanup, rfl, hclean, hout⟩ := course_commit hcommit
        · cases hout
        · cases hout
          exact .refused hbuilds hclean
      · obtain ⟨rfl, -⟩ | ⟨e, cleanup, -, -, hout⟩ := course_commit hcommit
        · obtain ⟨rfl, rfl⟩ := Attempt.course_pure.1 hdone
          exact .replaced hbuilds
        · cases hout
    · cases hout

/-! ### In a scene graph -/

/-- Every deletion of a created node was granted, and no created node is left. -/
structure CleanedUp (events : List Event) (g : Graph) : Prop where
  granted : ∀ e ∈ events, ∀ name ∈ createdIn events, e.request = .deleteNode name → e.Granted
  gone : ∀ name ∈ createdIn events, name ∉ g.nodes

theorem CleanedUp.of_createdIn_eq_nil {events : List Event} {g : Graph}
    (h : createdIn events = []) : CleanedUp events g := by
  refine ⟨fun e _ name hname => ?_, fun name hname => ?_⟩
  all_goals simp [h] at hname

/-- A compilation held with a host. After a failure of building comes the clean-up. -/
theorem held_compileProgram {σ : Type} (host : Host σ) (c : Context) (p : Program) (st : σ) :
    let building := (Build.program c p).dialogue.trace host st
    let cleanup := rollBack c.options.rollback (createdIn building)
    (∃ st', (Build.program c p).dialogue.run host st = ((.ok (), createdIn building), st') ∧
      (compileProgram c p).run.run host st = (.ok (createdIn building), st') ∧
      (compileProgram c p).run.trace host st = building) ∨
    ∃ e st', (Build.program c p).dialogue.run host st = ((.error e, createdIn building), st') ∧
      (compileProgram c p).run.run host st = (.error e, (cleanup.run host st').2) ∧
      (compileProgram c p).run.trace host st = building ++ cleanup.trace host st' := by
  have hcreated :=
    (passages_of_course (Dialogue.course_trace host (Build.program c p).dialogue st)).2
  simp only [compileProgram, ExceptT.run_mk, Dialogue.bind_eq, Dialogue.run_bind,
    Dialogue.trace_bind]
  generalize (Build.program c p).dialogue.run host st = out at hcreated
  obtain ⟨⟨outcome, created⟩, st'⟩ := out
  obtain rfl : created = _ := hcreated
  cases outcome with
  | ok a => exact .inl ⟨st', rfl, rfl, List.append_nil _⟩
  | error e =>
      refine .inr ⟨e, st', rfl, ?_⟩
      simp [Dialogue.run_bind, Dialogue.trace_bind, Dialogue.pure_eq]

/-- A compiled construct fails to be deleted only when the host refuses. After that comes the
clean-up. -/
theorem held_commit {σ : Type} {host : Host σ} {c : Context} {created : List String} {st st' : σ}
    {e : ConvertError} (h : (commit c created).run.run host st = (.error e, st')) :
    ∃ refusal st₁, host.respond st (.deleteNode c.identity) = (.error refusal, st₁) ∧
      st' = ((rollBack c.options.rollback created).run host st₁).2 ∧
      (commit c created).run.trace host st = ⟨.deleteNode c.identity, .error refusal⟩ ::
        (rollBack c.options.rollback created).trace host st₁ := by
  simp only [commit, ExceptT.run_mk, Dialogue.send, Dialogue.bind_eq, Dialogue.bind,
    Dialogue.run_ask, Dialogue.trace_ask] at h ⊢
  cases hrespond : host.respond st (.deleteNode c.identity) with
  | mk reply st₁ =>
      rw [hrespond] at h
      cases reply with
      | ok _ => cases h
      | error refusal =>
          simp only [Dialogue.run_bind, Dialogue.pure_eq, Dialogue.run_done, Prod.mk.injEq] at h
          refine ⟨refusal, st₁, rfl, h.2.symm, ?_⟩
          simp [Dialogue.trace_bind, Dialogue.pure_eq]

namespace Graph

variable {base g g' : Graph} {targets : Plug → Prop} {c : Context}

/-- **A scene graph grants every deletion of rolling back.** -/
theorem Footprint.trace_deleteNodes (hbase : base.WellFormed) (names : List String) {g : Graph}
    (h : base.Footprint targets names.reverse g) :
    ∀ e ∈ (RigScript.deleteNodes names).trace host g, e.Granted := by
  induction names generalizing g with
  | nil =>
      intro e he
      simp [RigScript.deleteNodes, Dialogue.pure_eq] at he
  | cons name names ih =>
      rw [List.reverse_cons] at h
      obtain ⟨g', hg', hrest⟩ := h.deleteLast hbase
      have hrespond := host_respond_eq_ok.2 hg'
      have htrace : (RigScript.deleteNodes (name :: names)).trace host g =
          ⟨.deleteNode name, .ok ()⟩ :: (RigScript.deleteNodes names).trace host g' := by
        simp only [RigScript.deleteNodes, Dialogue.send, Dialogue.bind_eq, Dialogue.bind,
          Dialogue.trace_ask, hrespond]
      rw [htrace]
      intro e he
      obtain rfl | he := List.mem_cons.1 he
      · exact ⟨(), rfl⟩
      · exact ih hrest e he

/-- **Rolling back cleans up** what was created by the events before it, if the host deletes these
nodes as the graph does. -/
theorem Footprint.cleanedUp {host : Host Graph} {before : List Event} (hbase : base.WellFormed)
    (h : base.Footprint targets (createdIn before) g)
    (hbefore : ∀ e ∈ before, ∀ name ∈ createdIn before, e.request ≠ .deleteNode name)
    (hhost : ∀ name ∈ createdIn before, ∀ g, host.respond g (.deleteNode name) =
      Graph.host.respond g (.deleteNode name)) :
    CleanedUp (before ++ (rollBack .failedConstruct (createdIn before)).trace host g)
      ((rollBack .failedConstruct (createdIn before)).run host g).2 := by
  have hsame : ∀ e ∈ (RigScript.deleteNodes (createdIn before).reverse).trace Graph.host g,
      ∀ g, host.respond g e.request = Graph.host.respond g e.request := by
    intro e he g'
    obtain ⟨name, hname, hr⟩ := Deletes.exists_mem (.of_course (Dialogue.course_trace _ _ g)) he
    rw [hr]
    exact hhost name (List.mem_reverse.1 hname) g'
  have hnone : createdIn ((rollBack .failedConstruct (createdIn before)).trace host g) = [] :=
    Rollback.Cleans.createdIn_eq (.of_course (Dialogue.course_trace _ _ g))
  have hfoot := h
  rw [← List.reverse_reverse (createdIn before)] at h
  refine ⟨fun e he name hname hr => ?_, fun name hname => ?_⟩
  all_goals rw [createdIn_append, hnone, List.append_nil] at hname
  · obtain hb | hc := List.mem_append.1 he
    · exact absurd hr (hbefore e hb name hname)
    · rw [rollBack, Dialogue.trace_congr hsame] at hc
      exact h.trace_deleteNodes hbase _ e hc
  · rw [rollBack, Dialogue.run_congr hsame, (h.deleteNodes hbase _).mem_nodes_iff]
    simp [hfoot.notMem_base name hname]

/-- The nodes that a unit creates are new. -/
theorem createdIn_compileNodes_notMem (c : Context) (script : String) (g : Graph) :
    ∀ name ∈ createdIn ((compileNodes c script).run.trace host g), name ∉ g.nodes := by
  unfold compileNodes
  split
  · intro name hname
    simp [Dialogue.pure_eq] at hname
  · next p hparse =>
    have hnew := (Build.leaves_program c p g).footprint.notMem_base
    obtain ⟨g₁, hbuild, -, htrace⟩ | ⟨e, g₁, hbuild, -, htrace⟩ := held_compileProgram host c p g
    all_goals
      change ∀ name ∈ ((Build.program c p).dialogue.run host g).1.2, name ∉ g.nodes at hnew
      rw [hbuild] at hnew
      rw [htrace]
    · exact hnew
    · rw [createdIn_append,
        Rollback.Cleans.createdIn_eq (.of_course (Dialogue.course_trace host _ g₁)),
        List.append_nil]
      exact hnew

/-- **A unit that fails in a scene graph is cleaned up.** -/
theorem cleanedUp_compileNodes (hg : g.WellFormed) {script : String} {e : ConvertError}
    (hpolicy : c.options.rollback = .failedConstruct)
    (h : (compileNodes c script).run.run host g = (.error e, g')) :
    CleanedUp ((compileNodes c script).run.trace host g) g' := by
  unfold compileNodes at h ⊢
  split at h
  · exact .of_createdIn_eq_nil (by simp [Dialogue.pure_eq])
  · next p hparse =>
    have hfoot := (Build.leaves_program c p g).footprint
    obtain ⟨hpassages, -⟩ :=
      passages_of_course (Dialogue.course_trace host (Build.program c p).dialogue g)
    obtain ⟨g₁, hbuild, hrun, htrace⟩ | ⟨e', g₁, hbuild, hrun, htrace⟩ :=
      held_compileProgram host c p g
    · cases hrun.symm.trans h
    · change g.Footprint _ ((Build.program c p).dialogue.run host g).1.2
        ((Build.program c p).dialogue.run host g).2 at hfoot
      rw [hbuild] at hfoot
      obtain ⟨-, rfl⟩ := Prod.mk.inj (hrun.symm.trans h)
      rw [htrace, hpolicy]
      exact hfoot.cleanedUp hg (fun _ he name _ => hpassages.request_ne_deleteNode he name)
        fun _ _ _ => rfl

/-- Reading the script of a construct leaves the graph alone, and only a construct that is there has
one. -/
theorem held_readScript (c : Context) (g : Graph) :
    (∃ reply, (readScript c).run.trace host g = [c.reading reply]) ∧
    ((∃ e, (readScript c).run.run host g = (.error e, g)) ∨
      ∃ script, (readScript c).run.run host g = (.ok script, g) ∧ c.identity ∈ g.nodes) := by
  have hrespond : host.respond g (.getAttribute ⟨c.identity, c.options.scriptAttribute⟩) =
      (g.getAttribute ⟨c.identity, c.options.scriptAttribute⟩, g) := rfl
  simp only [run_readScript, Dialogue.trace_ask, Dialogue.trace_done, Dialogue.run_ask,
    Dialogue.run_done, hrespond]
  refine ⟨⟨_, rfl⟩, ?_⟩
  cases hfound : c.scriptFound (g.getAttribute ⟨c.identity, c.options.scriptAttribute⟩) with
  | error e => exact .inl ⟨e, rfl⟩
  | ok script =>
      refine .inr ⟨script, rfl, ?_⟩
      cases hget : g.getAttribute ⟨c.identity, c.options.scriptAttribute⟩ with
      | error e =>
          rw [hget] at hfound
          cases hfound
      | ok v =>
          obtain ⟨n, hn, -⟩ := getAttribute_eq_ok_iff.1 hget
          exact mem_nodes_of_eq_some (checkAttr_eq_ok_iff.1 hn).1

/-- A construct is not deleted while its script is compiled. -/
theorem request_ne_of_mem_constructNodes {e : Event}
    (he : e ∈ (constructNodes c).run.trace host g) : e.request ≠ .deleteNode c.identity := by
  obtain ⟨⟨reply, htrace⟩, ⟨e', hrun⟩ | ⟨script, hrun, hmem⟩⟩ := held_readScript c g
  · rw [constructNodes, (Attempt.held_bind_error hrun).2, htrace] at he
    obtain rfl := List.mem_singleton.1 he
    exact fun hr => nomatch hr
  · rw [constructNodes, (Attempt.held_bind_ok hrun).2, htrace] at he
    obtain rfl | he := List.mem_cons.1 he
    · exact fun hr => nomatch hr
    · intro hr
      have hcreated := (compilation_of_course (Dialogue.course_trace host _ g)).mem_createdIn he hr
      exact createdIn_compileNodes_notMem c script g _ hcreated hmem

/-- A construct whose script fails to compile is cleaned up. -/
theorem cleanedUp_constructNodes (hg : g.WellFormed) {e : ConvertError}
    (hpolicy : c.options.rollback = .failedConstruct)
    (h : (constructNodes c).run.run host g = (.error e, g')) :
    CleanedUp ((constructNodes c).run.trace host g) g' := by
  obtain ⟨⟨reply, htrace⟩, ⟨e', hrun⟩ | ⟨script, hrun, hmem⟩⟩ := held_readScript c g
  · rw [constructNodes, (Attempt.held_bind_error hrun).2, htrace]
    exact .of_createdIn_eq_nil rfl
  · rw [constructNodes, (Attempt.held_bind_ok hrun).1] at h
    obtain ⟨hgranted, hgone⟩ := cleanedUp_compileNodes hg hpolicy h
    rw [constructNodes, (Attempt.held_bind_ok hrun).2, htrace]
    refine ⟨fun e he name hname hr => ?_, hgone⟩
    obtain rfl | he := List.mem_cons.1 he
    · cases hr
    · exact hgranted e he name hname hr

/-- The script of a construct compiles: the construct is there, the nodes created are new, and none
is deleted. -/
theorem footprint_constructNodes (hg : g.WellFormed) {created : List String}
    (h : (constructNodes c).run.run host g = (.ok created, g')) :
    ∃ targets, g.Footprint targets created g' ∧ c.identity ∈ g.nodes ∧
      created = createdIn ((constructNodes c).run.trace host g) ∧
      ∀ e ∈ (constructNodes c).run.trace host g, ∀ name, e.request ≠ .deleteNode name := by
  obtain ⟨⟨reply, htrace⟩, ⟨e', hrun⟩ | ⟨script, hrun, hmem⟩⟩ := held_readScript c g
  · rw [constructNodes, (Attempt.held_bind_error hrun).1] at h
    cases h
  · rw [constructNodes, (Attempt.held_bind_ok hrun).1] at h
    rw [constructNodes, (Attempt.held_bind_ok hrun).2, htrace]
    have hafter := aftermath_compileNodes c hg script
    have hcompilation := compilation_of_course
      (Dialogue.course_trace host (compileNodes c script).run g)
    rw [h] at hafter hcompilation
    generalize (compileNodes c script).run.trace host g = events at hcompilation
    cases hafter with
    | ok hfoot _ =>
        cases hcompilation with
        | built hbuilds =>
            refine ⟨_, hfoot, hmem, rfl, fun e he name hr => ?_⟩
            obtain rfl | he := List.mem_cons.1 he
            · cases hr
            · exact hbuilds.passages.request_ne_deleteNode he name hr

end Graph

/-- The host behaves as a scene graph, but it may refuse to delete one of the nodes. -/
structure Host.Withholds (host : Host Graph) (name : String) : Prop where
  respond_eq : ∀ g r, r ≠ .deleteNode name → host.respond g r = Graph.host.respond g r
  unchanged : ∀ g e g', host.respond g (.deleteNode name) = (.error e, g') → g' = g

/-- **A construct that fails to be replaced is cleaned up**, also when the host refuses to delete
it. -/
theorem Host.Withholds.cleanedUp {host : Host Graph} {c : Context} {g g' : Graph}
    (hhost : host.Withholds c.identity) (hg : g.WellFormed) {e : ConvertError}
    (hpolicy : c.options.rollback = .failedConstruct)
    (h : (replaceConstruct c).run.run host g = (.error e, g')) :
    CleanedUp ((replaceConstruct c).run.trace host g) g' := by
  have hsame : ∀ e ∈ (constructNodes c).run.trace Graph.host g,
      ∀ g, host.respond g e.request = Graph.host.respond g e.request :=
    fun e he g' => hhost.respond_eq g' _ (Graph.request_ne_of_mem_constructNodes he)
  have hrun := Dialogue.run_congr hsame
  have hevents := Dialogue.trace_congr hsame
  obtain ⟨hfail, htrace⟩ | ⟨created, g₁, hok, hrest, htrace⟩ := Attempt.held_bind_eq_error h
  · rw [replaceConstruct, htrace, hevents]
    exact Graph.cleanedUp_constructNodes hg hpolicy (hrun.symm.trans hfail)
  · obtain ⟨targets, hfoot, hmem, rfl, hdeletes⟩ :=
      Graph.footprint_constructNodes hg (hrun.symm.trans hok)
    rw [replaceConstruct, htrace, hevents]
    obtain ⟨hcommit, htrace⟩ | ⟨x, g₂, -, hdone, -⟩ := Attempt.held_bind_eq_error hrest
    · obtain ⟨refusal, g₂, hrespond, rfl, hlast⟩ := held_commit hcommit
      obtain rfl := hhost.unchanged _ _ _ hrespond
      rw [htrace, hlast, hpolicy, List.append_cons]
      -- The refused deletion creates nothing, and it is not the deletion of a created node.
      have hcreated : createdIn ((constructNodes c).run.trace Graph.host g ++
          [⟨.deleteNode c.identity, .error refusal⟩]) =
            createdIn ((constructNodes c).run.trace Graph.host g) := by
        simp [createdIn, Event.created?]
      have hne : ∀ name ∈ createdIn ((constructNodes c).run.trace Graph.host g),
          name ≠ c.identity := by
        rintro name hname rfl
        exact hfoot.notMem_base _ hname hmem
      rw [← hcreated] at hfoot hne ⊢
      refine hfoot.cleanedUp hg (fun e he name hname hr => ?_) fun name hname g =>
        hhost.respond_eq g _ fun hr => hne name hname (Request.deleteNode.inj hr)
      obtain he | he := List.mem_append.1 he
      · exact hdeletes e he name hr
      · obtain rfl := List.mem_singleton.1 he
        exact hne name hname (Request.deleteNode.inj hr).symm
    · cases hdone

/-! ### Units within a batch -/

section Batch

variable {σ : Type} {host : Host σ} {o : Options}

/-- A batch goes through some constructs and then through the others. -/
theorem convertEach_append (o : Options) (before after : List String) (report : Report) :
    convertEach o (before ++ after) report =
      convertEach o before report >>= convertEach o after := by
  induction before generalizing report with
  | nil => simp [convertEach]
  | cons name names ih =>
      simp only [List.cons_append, convertEach, bind_assoc]
      refine bind_congr fun incoming => ?_
      split
      · exact ih _
      · simp only [bind_assoc]
        exact bind_congr fun count => ih _

/-- The failure of a batch is reported after the selection was emptied, whatever comes of that. -/
theorem held_convertAll {st st' : σ} {e : ConvertError}
    (h : (convertListed o).run.run host st = (.error e, st')) :
    ((convertAll o).run.run host st).1 = .error e ∧
      (convertAll o).run.trace host st = (convertListed o).run.trace host st ++
        [⟨.clearSelection, (host.respond st' .clearSelection).1⟩] := by
  simp only [convertAll, ExceptT.run_mk, Dialogue.bind_eq, Dialogue.run_bind, Dialogue.trace_bind,
    h, Dialogue.send, Dialogue.run_ask, Dialogue.trace_ask, Dialogue.run_done, Dialogue.trace_done]
  cases (host.respond st' .clearSelection).1 with
  | ok _ => exact ⟨rfl, rfl⟩
  | error e' => exact ⟨rfl, rfl⟩

/-- **The failure of a construct ends the batch and is reported under the name of the construct.**
After the events of the construct only the selection is emptied. -/
theorem held_convertAll_of_replaceConstruct {st₀ st₁ st₂ st st' : σ} {name : String}
    {before after : List String} {report : Report} {incoming : Option (List Plug)}
    {e : ConvertError}
    (hlisted : host.respond st₀ (.listConstructs o.constructKind) =
      (.ok (before ++ name :: after), st₁))
    (hbefore : (convertEach o before {}).run.run host st₁ = (.ok report, st₂))
    (hincoming : host.respond st₂ (.listIncoming ⟨name, o.input⟩) = (.ok incoming, st))
    (hlive : isIdle incoming = false)
    (hfail : (replaceConstruct ⟨name, o⟩).run.run host st = (.error e, st')) :
    ((convertAll o).run.run host st₀).1 = .error (.conversion name e) ∧
      (convertAll o).run.trace host st₀ =
        ⟨.listConstructs o.constructKind, .ok (before ++ name :: after)⟩ ::
          ((convertEach o before {}).run.trace host st₁ ++
            ⟨.listIncoming ⟨name, o.input⟩, .ok incoming⟩ ::
              ((replaceConstruct ⟨name, o⟩).run.trace host st ++
                [⟨.clearSelection, (host.respond st' .clearSelection).1⟩])) := by
  have heach : (convertEach o (name :: after) report).run.run host st₂ =
        (.error (.conversion name e), st') ∧
      (convertEach o (name :: after) report).run.trace host st₂ =
        ⟨.listIncoming ⟨name, o.input⟩, .ok incoming⟩ ::
          (replaceConstruct ⟨name, o⟩).run.trace host st := by
    obtain ⟨hask, hevent⟩ := Attempt.held_ask_ok hincoming
    obtain ⟨hwithin, hevents⟩ := Attempt.held_within_error name hfail
    rw [convertEach, (Attempt.held_bind_ok hask).1, (Attempt.held_bind_ok hask).2, hevent, hlive,
      if_neg Bool.false_ne_true, (Attempt.held_bind_error hwithin).1,
      (Attempt.held_bind_error hwithin).2, hevents]
    exact ⟨rfl, rfl⟩
  have hboth : (convertListed o).run.run host st₀ = (.error (.conversion name e), st') ∧
      (convertListed o).run.trace host st₀ =
        ⟨.listConstructs o.constructKind, .ok (before ++ name :: after)⟩ ::
          ((convertEach o before {}).run.trace host st₁ ++
            ⟨.listIncoming ⟨name, o.input⟩, .ok incoming⟩ ::
              (replaceConstruct ⟨name, o⟩).run.trace host st) := by
    obtain ⟨hask, hevent⟩ := Attempt.held_ask_ok hlisted
    rw [convertListed, (Attempt.held_bind_ok hask).1, (Attempt.held_bind_ok hask).2, hevent,
      convertEach_append, (Attempt.held_bind_ok hbefore).1, (Attempt.held_bind_ok hbefore).2,
      heach.1, heach.2]
    exact ⟨rfl, rfl⟩
  obtain ⟨hresult, htrace⟩ := held_convertAll hboth.1
  refine ⟨hresult, ?_⟩
  rw [htrace, hboth.2]
  simp

end Batch

/-! ### The failure path -/

/-- The transcript of a text that fails to compile. -/
theorem trace_of_failed_compileScript {σ : Type} {host : Host σ} {c : Context} {script : String}
    {st st' : σ} {e : ConvertError}
    (h : (compileScript c script).run.run host st = (.error e, st')) :
    ∃ building cleanup, (compileScript c script).run.trace host st = building ++ cleanup ∧
      Builds c script building (.error e) ∧
      c.options.rollback.Cleans (createdIn building) cleanup := by
  have hcourse := Dialogue.course_trace host (compileScript c script).run st
  rw [h] at hcourse
  generalize (compileScript c script).run.trace host st = events at hcourse
  obtain ⟨created, hcourse, hout⟩ := course_compileScript.1 hcourse
  cases created with
  | ok created => cases hout
  | error e' =>
      cases hout
      cases compilation_of_course hcourse with
      | failed hbuilds hclean => exact ⟨_, _, rfl, hbuilds, hclean⟩

/-- The transcript of a construct whose script fails to compile. -/
theorem stuck_of_failed_convertConstruct {σ : Type} {host : Host σ} {c : Context} {st st' : σ}
    {e : ConvertError} (h : (convertConstruct c).run.run host st = (.error e, st')) :
    Stuck c ((convertConstruct c).run.trace host st) e := by
  have hcourse := Dialogue.course_trace host (convertConstruct c).run st
  rw [h] at hcourse
  obtain ⟨e', hnodes, hout⟩ | ⟨before, after, created, -, -, hdone⟩ :=
    Attempt.course_bind.1 hcourse
  · cases hout
    obtain ⟨script, building, -, hout, -⟩ | ⟨e', hout, hstuck⟩ := course_constructNodes hnodes
    · cases hout
    · cases hout
      exact hstuck
  · cases (Attempt.course_pure.1 hdone).2

/-- Counting the nodes asks for nothing, so a text that fails to compile is cleaned up. -/
theorem Graph.cleanedUp_compileScript {c : Context} {g g' : Graph} (hg : g.WellFormed)
    {script : String} {e : ConvertError} (hpolicy : c.options.rollback = .failedConstruct)
    (h : (compileScript c script).run.run host g = (.error e, g')) :
    CleanedUp ((compileScript c script).run.trace host g) g' := by
  obtain ⟨hfail, htrace⟩ | ⟨created, g₁, -, hdone, -⟩ := Attempt.held_bind_eq_error h
  · rw [compileScript, htrace]
    exact cleanedUp_compileNodes hg hpolicy hfail
  · cases hdone

/-- **The failure path of a unit.** A script is compiled on behalf of a construct, with any host and
in any state of it.

* When a text fails to compile, the transcript is that of building it up to the failure, and then
  that of cleaning up what was created. The failure reported is that of building. The same is true
  of the script that a construct holds.
* When the host refuses to delete a construct that was compiled, the same cleaning up follows, and
  the refusal is reported.
* Within a batch the failure of a construct is reported under the name of the construct, and only
  the selection is emptied after its events.
* In a scene graph all deletions of cleaning up are granted and no created node is left, also when
  the host does not let go of the construct. -/
theorem failed_unit_cleaned {σ : Type} (host : Host σ) (o : Options) (name : String) :
    (∀ script st e st', (compileScript ⟨name, o⟩ script).run.run host st = (.error e, st') →
      ∃ building cleanup,
        (compileScript ⟨name, o⟩ script).run.trace host st = building ++ cleanup ∧
        Builds ⟨name, o⟩ script building (.error e) ∧
        o.rollback.Cleans (createdIn building) cleanup) ∧
    (∀ st e st', (convertConstruct ⟨name, o⟩).run.run host st = (.error e, st') →
      Stuck ⟨name, o⟩ ((convertConstruct ⟨name, o⟩).run.trace host st) e) ∧
    (∀ st e st', (replaceConstruct ⟨name, o⟩).run.run host st = (.error e, st') →
      Replacement ⟨name, o⟩ ((replaceConstruct ⟨name, o⟩).run.trace host st) (.error e) ∧
      ∀ (before after : List String) report incoming st₀ st₁ st₂,
        host.respond st₀ (.listConstructs o.constructKind) =
          (.ok (before ++ name :: after), st₁) →
        (convertEach o before {}).run.run host st₁ = (.ok report, st₂) →
        host.respond st₂ (.listIncoming ⟨name, o.input⟩) = (.ok incoming, st) →
        isIdle incoming = false →
        ((convertAll o).run.run host st₀).1 = .error (.conversion name e) ∧
        (convertAll o).run.trace host st₀ =
          ⟨.listConstructs o.constructKind, .ok (before ++ name :: after)⟩ ::
            ((convertEach o before {}).run.trace host st₁ ++
              ⟨.listIncoming ⟨name, o.input⟩, .ok incoming⟩ ::
                ((replaceConstruct ⟨name, o⟩).run.trace host st ++
                  [⟨.clearSelection, (host.respond st' .clearSelection).1⟩]))) ∧
    ∀ (g : Graph), g.Reachable → o.rollback = .failedConstruct → ∀ e g',
      (∀ script, (compileScript ⟨name, o⟩ script).run.run Graph.host g = (.error e, g') →
        CleanedUp ((compileScript ⟨name, o⟩ script).run.trace Graph.host g) g') ∧
      ∀ host : Host Graph, host.Withholds name →
        (replaceConstruct ⟨name, o⟩).run.run host g = (.error e, g') →
        CleanedUp ((replaceConstruct ⟨name, o⟩).run.trace host g) g' := by
  refine ⟨fun _ _ _ _ h => trace_of_failed_compileScript h,
    fun _ _ _ h => stuck_of_failed_convertConstruct h, fun st e st' h => ⟨?_, ?_⟩,
    fun g hg hpolicy e g' => ⟨fun _ h => Graph.cleanedUp_compileScript hg.wellFormed hpolicy h,
      fun _ hhost h => hhost.cleanedUp hg.wellFormed hpolicy h⟩⟩
  · have hcourse := Dialogue.course_trace host (replaceConstruct ⟨name, o⟩).run st
    rw [h] at hcourse
    exact replacement_of_course hcourse
  · intro before after report incoming st₀ st₁ st₂ hlisted hbefore hincoming hlive
    exact held_convertAll_of_replaceConstruct hlisted hbefore hincoming hlive h

/-- The scene graph as a host that does not let go of one of its nodes. -/
def Graph.keeping (name : String) : Host Graph where
  respond g r := if r = .deleteNode name then (.error (.host "kept"), g) else host.respond g r

theorem Graph.withholds_keeping (name : String) : (keeping name).Withholds name where
  respond_eq g r hr := by simp [keeping, hr]
  unchanged g e g' h := by
    simp only [keeping, if_true] at h
    exact (Prod.mk.inj h).2.symm

/-- A construct is compiled to one node and then not let go. The node is deleted again, and the
batch reports the refusal under the name of the construct. -/
theorem failed_unit_cleaned_doubling :
    Graph.doubling.Reachable ∧ (Graph.keeping "e").Withholds "e" ∧
    ((replaceConstruct ⟨"e", {}⟩).run.run (Graph.keeping "e") Graph.doubling).1 =
      .error (.graph (.host "kept")) ∧
    createdIn ((replaceConstruct ⟨"e", {}⟩).run.trace (Graph.keeping "e") Graph.doubling) =
      ["multiplyDivide1"] ∧
    CleanedUp ((replaceConstruct ⟨"e", {}⟩).run.trace (Graph.keeping "e") Graph.doubling)
      ((replaceConstruct ⟨"e", {}⟩).run.run (Graph.keeping "e") Graph.doubling).2 ∧
    ((convertAll {}).run.run (Graph.keeping "e") Graph.doubling).1 =
      .error (.conversion "e" (.graph (.host "kept"))) := by
  obtain ⟨-, -, hbatch, hgraph⟩ := failed_unit_cleaned (Graph.keeping "e") {} "e"
  have hfails : ((replaceConstruct ⟨"e", {}⟩).run.run (Graph.keeping "e") Graph.doubling).1 =
      .error (.graph (.host "kept")) := by
    decide +kernel
  have hrun : (replaceConstruct ⟨"e", {}⟩).run.run (Graph.keeping "e") Graph.doubling =
      (.error (.graph (.host "kept")),
        ((replaceConstruct ⟨"e", {}⟩).run.run (Graph.keeping "e") Graph.doubling).2) :=
    Prod.ext hfails rfl
  have hlisted : Graph.host.respond Graph.doubling (.listConstructs "expression") =
      (.ok ["e"], Graph.doubling) :=
    Prod.ext (toOption_eq_some_iff.1 (by decide +kernel)) rfl
  have hincoming : Graph.host.respond Graph.doubling (.listIncoming ⟨"e", "input"⟩) =
      (.ok (some [⟨"ctrl", "tx"⟩]), Graph.doubling) :=
    Prod.ext (toOption_eq_some_iff.1 (by decide +kernel)) rfl
  refine ⟨Graph.reachable_doubling, Graph.withholds_keeping "e", hfails, by decide +kernel,
    (hgraph _ Graph.reachable_doubling rfl _ _).2 _ (Graph.withholds_keeping "e") hrun, ?_⟩
  refine ((hbatch _ _ _ hrun).2 [] [] {} (some [⟨"ctrl", "tx"⟩])
    Graph.doubling Graph.doubling Graph.doubling ?_ rfl ?_ rfl).1
  · simp [Graph.keeping, hlisted]
  · simp [Graph.keeping, hincoming]

end RigScript
