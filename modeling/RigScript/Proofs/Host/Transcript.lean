import RigScript.Host

/-!
# Transcripts

What a dialogue and a host say to each other is a list of events, each a request with its reply. A
rule says which requests may be made after which events. A dialogue obeys a rule when it makes no
other request, whatever is answered and whoever answers; so a rule that is obeyed holds of every
transcript, and what every request within the rule keeps is kept by the whole dialogue.

## Main definitions

* `RigScript.Event`, `RigScript.createdIn`: events, and the nodes created by them
* `RigScript.Dialogue.trace`: the events of a dialogue held with a host
* `RigScript.Dialogue.Obeys`: a dialogue makes only requests within a rule

## Main results

* `RigScript.Dialogue.run_congr`: hosts that answer alike lead to the same end
* `RigScript.Dialogue.obeys_bind`: one dialogue after another
* `RigScript.Dialogue.Obeys.trace`: a rule that is obeyed holds of every transcript
* `RigScript.Dialogue.Obeys.invariant`: what requests within the rule keep, the dialogue keeps
-/

namespace RigScript

/-- A request that was made and the reply to it. -/
structure Event where
  /-- The request. -/
  request : Request
  /-- The reply, or the reason for which the request was refused. -/
  reply : Except GraphError request.Reply

/-- The node that an event created, if it did create one. -/
def Event.created? : Event → Option String
  | ⟨.createNode _, .ok name⟩ => some name
  | _ => none

/-- The nodes created in the course of events, in order. -/
def createdIn (events : List Event) : List String :=
  events.filterMap Event.created?

@[simp] theorem createdIn_nil : createdIn [] = [] := rfl

theorem createdIn_cons (e : Event) (events : List Event) :
    createdIn (e :: events) = e.created?.toList ++ createdIn events := by
  cases h : e.created? <;> simp [createdIn, h]

@[simp] theorem createdIn_append (past events : List Event) :
    createdIn (past ++ events) = createdIn past ++ createdIn events :=
  List.filterMap_append

/-- What was created stays so in the further course of events. -/
theorem createdIn_subset {past events : List Event} (h : past <+: events) :
    createdIn past ⊆ createdIn events := by
  obtain ⟨rest, rfl⟩ := h
  rw [createdIn_append]
  exact List.subset_append_left _ _

namespace Dialogue

variable {α β σ : Type}

/-- The events of a dialogue held with a host. -/
def trace (host : Host σ) : Dialogue α → σ → List Event
  | done _, _ => []
  | ask r next, s =>
    ⟨r, (host.respond s r).1⟩ :: (next (host.respond s r).1).trace host (host.respond s r).2

@[simp] theorem trace_done (host : Host σ) (a : α) (s : σ) : (done a).trace host s = [] := rfl

@[simp] theorem trace_ask (host : Host σ) (r : Request)
    (next : Except GraphError r.Reply → Dialogue α) (s : σ) :
    (ask r next).trace host s =
      ⟨r, (host.respond s r).1⟩ :: (next (host.respond s r).1).trace host (host.respond s r).2 :=
  rfl

@[simp] theorem run_ask (host : Host σ) (r : Request)
    (next : Except GraphError r.Reply → Dialogue α) (s : σ) :
    (ask r next).run host s = (next (host.respond s r).1).run host (host.respond s r).2 := rfl

/-- The events of two dialogues that are held one after the other. -/
theorem trace_bind (host : Host σ) (d : Dialogue α) (f : α → Dialogue β) (s : σ) :
    (d.bind f).trace host s =
      d.trace host s ++ (f (d.run host s).1).trace host (d.run host s).2 := by
  induction d generalizing s with
  | done a => rfl
  | ask r next ih => exact congrArg (List.cons _) (ih _ _)

/-- Two hosts that answer the requests of a dialogue in the same way lead to the same end. -/
theorem run_congr {host host' : Host σ} {d : Dialogue α} {s : σ}
    (h : ∀ e ∈ d.trace host s, ∀ t, host'.respond t e.request = host.respond t e.request) :
    d.run host' s = d.run host s := by
  induction d generalizing s with
  | done a => rfl
  | ask r next ih =>
      have hfirst : host'.respond s r = host.respond s r :=
        h ⟨r, (host.respond s r).1⟩ List.mem_cons_self s
      rw [run_ask, run_ask, hfirst]
      exact ih _ fun e he => h e (List.mem_cons_of_mem _ he)

/-- Two hosts that answer the requests of a dialogue in the same way are told the same. -/
theorem trace_congr {host host' : Host σ} {d : Dialogue α} {s : σ}
    (h : ∀ e ∈ d.trace host s, ∀ t, host'.respond t e.request = host.respond t e.request) :
    d.trace host' s = d.trace host s := by
  induction d generalizing s with
  | done a => rfl
  | ask r next ih =>
      have hfirst : host'.respond s r = host.respond s r :=
        h ⟨r, (host.respond s r).1⟩ List.mem_cons_self s
      rw [trace_ask, trace_ask, hfirst, ih]
      exact fun e he => h e (List.mem_cons_of_mem _ he)

/-- Held after the events `past`, the dialogue **obeys** a rule: whatever the replies, each of its
requests is allowed after the events up to there. Once it is over, `post` holds of all events and
of the result. -/
def Obeys (rule : List Event → Request → Prop) (post : List Event → α → Prop) :
    Dialogue α → List Event → Prop
  | done a, past => post past a
  | ask r next, past => rule past r ∧ ∀ reply, (next reply).Obeys rule post (past ++ [⟨r, reply⟩])

variable {rule rule' : List Event → Request → Prop} {post post' : List Event → α → Prop}
  {d : Dialogue α} {past : List Event}

/-- Two dialogues obey a rule one after the other. -/
theorem obeys_bind {f : α → Dialogue β} {post : List Event → β → Prop} :
    (d.bind f).Obeys rule post past ↔
      d.Obeys rule (fun now a => (f a).Obeys rule post now) past := by
  induction d generalizing past with
  | done a => exact Iff.rfl
  | ask r next ih => exact and_congr_right fun _ => forall_congr' fun reply => ih reply

namespace Obeys

/-- A rule may be weakened, and so may what holds in the end. All that is asked is asked about
continuations of the events at the start. -/
theorem mono (h : d.Obeys rule post past)
    (hrule : ∀ now r, past <+: now → rule now r → rule' now r)
    (hpost : ∀ now a, past <+: now → post now a → post' now a) : d.Obeys rule' post' past := by
  induction d generalizing past with
  | done a => exact hpost past a (List.prefix_refl past) h
  | ask r next ih =>
      refine ⟨hrule past r (List.prefix_refl past) h.1, fun reply => ?_⟩
      have hlonger : past <+: past ++ [⟨r, reply⟩] := List.prefix_append _ _
      exact ih reply (h.2 reply) (fun now r hnow => hrule now r (hlonger.trans hnow))
        (fun now a hnow => hpost now a (hlonger.trans hnow))

/-- **A rule that is obeyed holds of every transcript**: each request is allowed after the events
before it, and `post` holds of the whole. -/
theorem trace (h : d.Obeys rule post past) (host : Host σ) (s : σ) :
    (∀ before e after, d.trace host s = before ++ e :: after → rule (past ++ before) e.request) ∧
      post (past ++ d.trace host s) (d.run host s).1 := by
  induction d generalizing past s with
  | done a =>
      refine ⟨fun before e after hsplit => ?_, ?_⟩
      · simp at hsplit
      · rw [trace_done, List.append_nil]
        exact h
  | ask r next ih =>
      obtain ⟨hfirst, hrest⟩ := h
      obtain ⟨hrule, hpost⟩ := ih _ (hrest (host.respond s r).1) (host.respond s r).2
      refine ⟨fun before e after hsplit => ?_, by simpa using hpost⟩
      rw [trace_ask] at hsplit
      cases before with
      | nil =>
          obtain ⟨rfl, -⟩ := List.cons.inj hsplit
          simpa using hfirst
      | cons e' before =>
          obtain ⟨rfl, htail⟩ := List.cons.inj hsplit
          simpa using hrule before e after htail

/-- **What requests within the rule keep, the dialogue keeps.** The invariant may speak about the
events so far. -/
theorem invariant {host : Host σ} {inv : List Event → σ → Prop}
    (hstep : ∀ past r s, rule past r → inv past s →
      inv (past ++ [⟨r, (host.respond s r).1⟩]) (host.respond s r).2)
    (h : d.Obeys rule post past) {s : σ} (hs : inv past s) :
    inv (past ++ d.trace host s) (d.run host s).2 := by
  induction d generalizing past s with
  | done a => simpa using hs
  | ask r next ih =>
      have hnext := ih _ (h.2 (host.respond s r).1) (hstep past r s h.1 hs)
      simpa using hnext

end Obeys

end Dialogue

end RigScript
