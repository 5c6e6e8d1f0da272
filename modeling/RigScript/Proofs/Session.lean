import RigScript.Proofs.Convert.Footprint
import RigScript.Scene.Sample
import RigScript.Session

/-!
# The invariant of a session

A session does whatever can be done to a scene graph: setting it up, making requests of it, and
compiling scripts into it, also through a host that refuses some of the requests. Each of these
either changes the graph by steps that `Graph.Reachable` knows or leaves it as it was, so the graph
of a session stays reachable, and with that the representation invariant holds after every step,
whether the steps before it succeeded or failed.

## Main definitions

* `RigScript.Host.Mediates`: a host that stands before a scene graph
* `RigScript.Session.after`: a session after a series of steps

## Main results

* `RigScript.Host.Mediates.run`: a dialogue with such a host keeps the graph reachable
* `RigScript.Session.reachable_step`: so does every step of a session
* `RigScript.Session.representation_invariant`: **the representation invariant of a scene graph**
-/

namespace RigScript

/-! ### Hosts before a graph -/

/-- A host **mediates** between a dialogue and the scene graph behind it: to any request, either the
graph performs it or nothing happens to the graph. -/
def Host.Mediates {σ : Type} (host : Host σ) (graph : σ → Graph) : Prop :=
  ∀ s r, graph (host.respond s r).2 = graph s ∨
    ∃ reply, (graph s).perform r = .ok (reply, graph (host.respond s r).2)

namespace Host.Mediates

variable {σ : Type} {host : Host σ} {graph : σ → Graph}

/-- A scene graph stands before itself. -/
theorem graphHost : Graph.host.Mediates id := by
  intro g r
  simp only [Graph.host_respond, id]
  cases hr : g.perform r with
  | error e => exact .inl rfl
  | ok out => exact .inr ⟨out.1, rfl⟩

/-- How no connections are listed makes no difference to the graph. -/
theorem listingEmpty (h : host.Mediates graph) : host.listingEmpty.Mediates graph := by
  intro s r
  have hstate : (host.listingEmpty.respond s r).2 = (host.respond s r).2 := by
    cases r with
    | listIncoming p =>
        simp only [Host.listingEmpty]
        generalize host.respond s (.listIncoming p) = answer
        obtain ⟨e | _ | sources, s'⟩ := answer <;> rfl
    | _ => rfl
  rw [hstate]
  exact h s r

/-- A request that is refused before it comes to the graph does nothing to it. -/
theorem refusing (h : host.Mediates graph) (calls : List (Method × Nat)) :
    (Host.refusing calls host).Mediates fun s => graph s.1 := by
  intro s r
  simp only [Host.refusing]
  split
  · exact .inl rfl
  · exact h s.1 r

/-- The host of a session mediates. -/
theorem ofMediation (m : Mediation) : m.host.Mediates Prod.fst := by
  unfold Mediation.host
  split
  · exact graphHost.listingEmpty.refusing m.refused
  · exact graphHost.refusing m.refused

/-- **Whatever is said to a host that mediates, the graph behind it stays reachable.** -/
theorem run {α : Type} (h : host.Mediates graph) (d : Dialogue α) {s : σ}
    (hs : (graph s).Reachable) : (graph (d.run host s).2).Reachable := by
  induction d generalizing s with
  | done a => exact hs
  | ask r next ih =>
      rw [Dialogue.run_ask]
      apply ih
      rcases h s r with hsame | ⟨reply, hr⟩
      · rw [hsame]
        exact hs
      · exact hs.request hr

end Host.Mediates

/-! ### Steps -/

namespace Session

variable {m : Mediation} {s : Session}

/-- Setting a graph up keeps it reachable, also when it is refused. -/
theorem reachable_setUp {outcome : Except GraphError Graph} (hs : s.graph.Reachable)
    (h : ∀ g, outcome = .ok g → g.Reachable) : (s.setUp outcome).2.graph.Reachable := by
  cases outcome with
  | error e => exact hs
  | ok g => exact h g rfl

/-- A compilation keeps the graph reachable, however it ends. -/
theorem reachable_compile {α : Type} (a : Attempt α) (answer : α → Answer)
    (hs : s.graph.Reachable) : (s.compile m a answer).2.graph.Reachable := by
  have hrun := (Host.Mediates.ofMediation m).run a.run (s := (s.graph, s.calls)) hs
  unfold compile
  generalize a.run.run m.host (s.graph, s.calls) = out at hrun
  obtain ⟨outcome, g, calls⟩ := out
  cases outcome with
  | error e => exact hrun
  | ok x => exact hrun

/-- **Every step of a session keeps its graph reachable**, whether it succeeds or fails. -/
theorem reachable_step (st : Step) (hs : s.graph.Reachable) :
    (s.step m st).2.graph.Reachable := by
  cases st with
  | addNode name kind => exact hs.addNode name kind
  | addAttribute p v => exact hs.addAttribute p v
  | lock p => exact reachable_setUp hs fun g hg => hs.lock hg
  | addConnection source dest => exact reachable_setUp hs fun g hg => hs.addConnection hg
  | select name => exact reachable_setUp hs fun g hg => hs.select hg
  | clearJournal => exact hs.clearJournal
  | request r =>
      simp only [step, Graph.host_respond]
      cases hr : s.graph.perform r with
      | error e => exact hs
      | ok out => exact hs.request hr
  | evaluate p =>
      simp only [step]
      cases s.graph.evaluate p with
      | error e => exact hs
      | ok x => exact hs
  | compileScript c script => exact reachable_compile _ _ hs
  | convertConstruct c => exact reachable_compile _ _ hs
  | convertAll o => exact reachable_compile _ _ hs
  -- The remaining steps only look at the graph.
  | _ => exact hs

/-- A session after a series of steps. -/
def after (m : Mediation) (s : Session) (steps : List Step) : Session :=
  steps.foldl (fun now st => (now.step m st).2) s

/-- A series of steps keeps the graph of a session reachable. -/
theorem reachable_after (steps : List Step) (hs : s.graph.Reachable) :
    (s.after m steps).graph.Reachable := by
  induction steps generalizing s with
  | nil => exact hs
  | cons st steps ih => exact ih (reachable_step st hs)

/-- **The representation invariant of a scene graph.** A session starts from the empty graph or from
the graph of a scene and takes any steps: setting up, requests and compilations, each of which may
fail, and the compilations may be held with a host that refuses some requests. In the graph after
it,

* both ends of every connection are on nodes that exist,
* every selected node exists,
* every locked attribute is stored or is an array element, and
* only curves have keys or an extrapolation that is not constant. -/
theorem representation_invariant (m : Mediation) {start : Graph}
    (hstart : start = Graph.empty ∨ ∃ scene, Graph.ofScene scene = .ok start)
    (steps : List Step) :
    let g := (Session.after m { graph := start } steps).graph
    (∀ dest source, g.source? dest = some source →
      dest.node ∈ g.nodes ∧ source.node ∈ g.nodes) ∧
    (∀ name ∈ g.selection, name ∈ g.nodes) ∧
    (∀ p, g.Locked p → (g.value? p).isSome = true ∨ Graph.isElement p.attr = true) ∧
    ∀ name curve, g.curve? name = some curve → g.kind? name ≠ some (.primitive .rampCurve) →
      curve.keys = [] ∧ curve.pre = .constant ∧ curve.post = .constant := by
  have hreach : start.Reachable := by
    rcases hstart with rfl | ⟨scene, hscene⟩
    · exact .empty
    · exact .ofScene hscene
  have hinv := (reachable_after (m := m) (s := { graph := start }) steps hreach).wellFormed
  intro g
  refine ⟨fun dest source hs => ⟨hinv.dest_mem dest source hs, hinv.source_mem dest source hs⟩,
    hinv.selection_mem, ?_, ?_⟩
  · rintro p ⟨n, hn, hlocked⟩
    rcases (hinv.nodes p.node n hn).locked p.attr hlocked with hstored | helement
    · left
      rw [Graph.value?, hn, Option.bind_some]
      exact Std.ExtTreeMap.mem_iff_isSome_getElem?.1 hstored
    · exact .inr helement
  · intro name curve hcurve hkind
    obtain ⟨n, hn, rfl⟩ := Option.map_eq_some_iff.1 hcurve
    have hplain : n.kind ≠ .primitive .rampCurve := by
      intro hramp
      apply hkind
      rw [Graph.kind?, hn, Option.map_some, hramp]
    rw [(hinv.nodes name n hn).curve hplain]
    exact ⟨rfl, rfl, rfl⟩

/-- The control of the sample is replaced by a node without attributes, which makes the conversion
fail, and an element of it is locked. -/
def controlReplaced : List Step :=
  [.addNode "arm_ctrl" (.other "transform"), .convertAll {},
    .request (.setLocked ⟨"arm_ctrl", "w[0]"⟩ true)]

/-- The connection from the replaced control is still there, though the attribute that it starts
from is gone, and both of its ends are on nodes. -/
theorem representation_invariant_sample :
    ∃ start, Graph.ofScene Scene.sample = .ok start ∧
      let g := (Session.after {} { graph := start } controlReplaced).graph
      g.source? ⟨"expression1", "input[0]"⟩ = some ⟨"arm_ctrl", "tx"⟩ ∧
      g.value? ⟨"arm_ctrl", "tx"⟩ = none ∧ "expression1" ∈ g.nodes ∧ "arm_ctrl" ∈ g.nodes := by
  have hrun : (Graph.ofScene Scene.sample).toOption.map (fun start =>
      let g := (Session.after {} { graph := start } controlReplaced).graph
      (g.source? ⟨"expression1", "input[0]"⟩, g.value? ⟨"arm_ctrl", "tx"⟩)) =
        some (some ⟨"arm_ctrl", "tx"⟩, none) := by
    decide +kernel
  obtain ⟨start, hstart, hlooked⟩ := Option.map_eq_some_iff.1 hrun
  have hscene : Graph.ofScene Scene.sample = .ok start := toOption_eq_some_iff.1 hstart
  obtain ⟨hsource, hvalue⟩ := Prod.mk.inj hlooked
  obtain ⟨hconnections, -⟩ :=
    representation_invariant {} (.inr ⟨Scene.sample, hscene⟩) controlReplaced
  exact ⟨start, hscene, hsource, hvalue, hconnections _ _ hsource⟩

end Session

end RigScript
