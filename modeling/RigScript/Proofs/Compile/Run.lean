import RigScript.Compile.Lower
import RigScript.Convert
import RigScript.Proofs.Graph.Reachable

/-!
# Successful constructions

A construction is a dialogue that may fail and that remembers the nodes it created. This module
says when it succeeds: `Build.Yields` relates what a host holds before a successful construction
to the result and to what the host holds afterwards. There is one lemma for each way of putting
constructions together, so that a construction is taken apart by rewriting.

## Main definitions

* `RigScript.Build.Yields`: a construction held with a host succeeds
* `RigScript.Build.Keeps`: what a construction keeps and what it yields
* `RigScript.Attempt.Yields`: the same where no nodes are remembered

## Main results

* `RigScript.Build.yields_bind`: one construction after another
* `RigScript.Build.yields_ask`, `RigScript.Build.yields_create`: what is asked of the host
* `RigScript.Attempt.yields_compileScript`: a compiled script is a successful construction
-/

namespace RigScript

/-- A scene graph answers what it performs. -/
theorem Graph.host_respond_eq_ok {g g' : Graph} {r : Request} {reply : r.Reply} :
    Graph.host.respond g r = (.ok reply, g') ↔ g.perform r = .ok (reply, g') := by
  rw [Graph.host_respond]
  split
  · next reply' g'' h => simp [h]
  · next e h => simp [h]

namespace Build

variable {α β σ : Type} {host : Host σ} {names names' : List String} {s s' : σ}

/-- Held with a host in state `s`, with the nodes `names` created before, the construction
**yields** `a`: it succeeds, the host is then in state `s'`, and the nodes `names'` have been
created. -/
def Yields (host : Host σ) (b : Build α) (names : List String) (s : σ) (a : α)
    (names' : List String) (s' : σ) : Prop :=
  (b.run.run names).run host s = ((.ok a, names'), s')

/-- Doing nothing yields its value and changes nothing. -/
theorem yields_pure {a b : α} :
    (pure a : Build α).Yields host names s b names' s' ↔ a = b ∧ names = names' ∧ s = s' := by
  simp only [Yields, ExceptT.run_pure, StateT.run_pure, Dialogue.pure_eq, Dialogue.run_done,
    Prod.mk.injEq, Except.ok.injEq, and_assoc]

/-- A failure yields nothing. -/
theorem not_yields_throw {e : ConvertError} {a : α} :
    ¬ (throw e : Build α).Yields host names s a names' s' := by
  simp [Yields, Dialogue.pure_eq]

/-- Two constructions, the second of which uses the result of the first, are held one after the
other. -/
theorem yields_bind {b : Build α} {f : α → Build β} {y : β} :
    (b >>= f).Yields host names s y names' s' ↔
      ∃ a mid t, b.Yields host names s a mid t ∧ (f a).Yields host mid t y names' s' := by
  simp only [Yields, ExceptT.run_bind, StateT.run_bind, Dialogue.bind_eq, Dialogue.run_bind]
  obtain ⟨⟨outcome, mid⟩, t⟩ := (b.run.run names).run host s
  cases outcome with
  | error e => simp [Dialogue.pure_eq]
  | ok a => simp

/-- A request yields the reply of the host and creates no node to remember. -/
theorem yields_ask {r : Request} {reply : r.Reply} :
    (ask r).Yields host names s reply names' s' ↔
      host.respond s r = (.ok reply, s') ∧ names = names' := by
  change (Dialogue.ask r _).run host s = _ ↔ _
  rw [Dialogue.run]
  obtain ⟨answer, t⟩ := host.respond s r
  cases answer with
  | error e => simp
  | ok a => simp [and_right_comm]

/-- A new node is remembered. -/
theorem yields_create {kind : NodeKind} {name : String} :
    (create kind).Yields host names s name names' s' ↔
      host.respond s (.createNode kind) = (.ok name, s') ∧ names ++ [name] = names' := by
  have hmodify : ∀ (a : String) (mid : List String) (t : σ),
      (do modify (· ++ [a]); return a : Build String).Yields host mid t name names' s' ↔
        a = name ∧ mid ++ [a] = names' ∧ t = s' := by
    intro a mid t
    have hrun : ((do modify (· ++ [a]); return a : Build String).run.run mid).run host t =
      ((.ok a, mid ++ [a]), t) := rfl
    simp only [Yields, hrun, Prod.mk.injEq, Except.ok.injEq, and_assoc]
  rw [create, yields_bind]
  constructor
  · rintro ⟨a, mid, t, hask, hrest⟩
    obtain ⟨hr, rfl⟩ := yields_ask.1 hask
    obtain ⟨rfl, rfl, rfl⟩ := (hmodify a _ t).1 hrest
    exact ⟨hr, rfl⟩
  · rintro ⟨hr, rfl⟩
    exact ⟨name, names, s', yields_ask.2 ⟨hr, rfl⟩, (hmodify name _ _).2 ⟨rfl, rfl, rfl⟩⟩

/-- A construction keeps the invariant of a scene graph. -/
theorem Yields.wellFormed {b : Build α} {a : α} {g g' : Graph}
    (h : b.Yields Graph.host names g a names' g') (hg : g.WellFormed) : g'.WellFormed := by
  have hrun := Graph.run_preserves (fun hg hr => hg.perform hr) (b.run.run names) hg
  rwa [h] at hrun

/-- Held with a scene graph, a construction **keeps** an invariant and yields only results with a
property. -/
def Keeps (inv : Graph → Prop) (b : Build α) (post : α → Prop) : Prop :=
  ∀ ⦃names g a names' g'⦄, inv g → b.Yields Graph.host names g a names' g' → inv g' ∧ post a

namespace Keeps

variable {inv : Graph → Prop} {post : α → Prop} {post' : β → Prop}

theorem pure {a : α} (h : post a) : Keeps inv (pure a) post := by
  intro names g b names' g' hg hrun
  obtain ⟨rfl, -, rfl⟩ := yields_pure.1 hrun
  exact ⟨hg, h⟩

theorem throw {e : ConvertError} : Keeps inv (throw e) post :=
  fun _ _ _ _ _ _ hrun => absurd hrun not_yields_throw

theorem bind {b : Build α} {f : α → Build β} (hb : Keeps inv b post)
    (hf : ∀ a, post a → Keeps inv (f a) post') : Keeps inv (b >>= f) post' := by
  intro names g y names' g' hg hrun
  obtain ⟨a, _, g₁, hfirst, hrest⟩ := yields_bind.1 hrun
  obtain ⟨hg₁, ha⟩ := hb hg hfirst
  exact hf a ha hg₁ hrest

/-- Constructions in a row of which only the last yields a result. -/
theorem seq {b : Build Unit} {f : Unit → Build β} (hb : Keeps inv b fun _ => True)
    (hf : Keeps inv (f ()) post') : Keeps inv (b >>= f) post' :=
  hb.bind fun _ _ => hf

theorem ask {r : Request} (h : ∀ {g reply g'}, inv g → g.perform r = .ok (reply, g') → inv g') :
    Keeps inv (ask r) fun _ => True := by
  intro names g reply names' g' hg hrun
  obtain ⟨hr, -⟩ := yields_ask.1 hrun
  exact ⟨h hg (Graph.host_respond_eq_ok.1 hr), trivial⟩

end Keeps

end Build

namespace Attempt

variable {α β σ : Type} {host : Host σ} {s s' : σ}

/-- Held with a host in state `s`, the attempt **yields** `a` and leaves the host in state `s'`. -/
def Yields (host : Host σ) (b : Attempt α) (s : σ) (a : α) (s' : σ) : Prop :=
  b.run.run host s = (.ok a, s')

/-- Doing nothing yields its value. -/
theorem yields_pure {a b : α} : (pure a : Attempt α).Yields host s b s' ↔ a = b ∧ s = s' := by
  simp [Yields, Dialogue.pure_eq]

/-- A failure yields nothing. -/
theorem not_yields_throw {e : ConvertError} {a : α} :
    ¬ (throw e : Attempt α).Yields host s a s' := by
  simp [Yields, Dialogue.pure_eq]

/-- Two attempts are made one after the other. -/
theorem yields_bind {b : Attempt α} {f : α → Attempt β} {y : β} :
    (b >>= f).Yields host s y s' ↔
      ∃ a t, b.Yields host s a t ∧ (f a).Yields host t y s' := by
  simp only [Yields, ExceptT.run_bind, Dialogue.bind_eq, Dialogue.run_bind]
  obtain ⟨outcome, t⟩ := b.run.run host s
  cases outcome with
  | error e => simp [Dialogue.pure_eq]
  | ok a => simp

/-- A request yields the reply of the host. -/
theorem yields_ask {r : Request} {reply : r.Reply} :
    (ask r).Yields host s reply s' ↔ host.respond s r = (.ok reply, s') := by
  change (Dialogue.ask r _).run host s = _ ↔ _
  rw [Dialogue.run]
  obtain ⟨answer, t⟩ := host.respond s r
  cases answer <;> simp

/-- A program is compiled when its construction succeeds, and the nodes created are returned. A
failure never becomes a success by deleting the nodes created for it. -/
theorem yields_compileProgram {c : Context} {p : Program} {created : List String} :
    (compileProgram c p).Yields host s created s' ↔
      (Build.program c p).Yields host [] s () created s' := by
  simp only [Yields, Build.Yields, compileProgram, ExceptT.run_mk, Build.dialogue,
    Dialogue.bind_eq, Dialogue.run_bind]
  obtain ⟨⟨outcome, names⟩, t⟩ := ((Build.program c p).run.run []).run host s
  cases outcome with
  | error e => simp [Dialogue.pure_eq, Dialogue.run_bind]
  | ok a => simp [Dialogue.pure_eq]

/-- A text is compiled when it is a script whose construction succeeds. -/
theorem yields_compileNodes {c : Context} {script : String} {created : List String} :
    (compileNodes c script).Yields host s created s' ↔
      ∃ p, Program.parse (script ++ "\n") = .ok p ∧
        (Build.program c p).Yields host [] s () created s' := by
  unfold compileNodes
  split
  · next e h => simp [h, not_yields_throw]
  · next p h => simp [h, yields_compileProgram]

/-- The number of nodes is returned for a text that is compiled. -/
theorem yields_compileScript {c : Context} {script : String} {count : Nat} :
    (compileScript c script).Yields host s count s' ↔
      ∃ created, (compileNodes c script).Yields host s created s' ∧ created.length = count := by
  simp only [compileScript, yields_bind, yields_pure]
  constructor
  · rintro ⟨created, t, h, rfl, rfl⟩
    exact ⟨created, h, rfl⟩
  · rintro ⟨created, h, rfl⟩
    exact ⟨created, s', h, rfl, rfl⟩

end Attempt

end RigScript
