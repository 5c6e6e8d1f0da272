import RigScript.Convert
import RigScript.Proofs.Host.Transcript

/-!
# Courses of events

Held with some host, a dialogue takes a course: requests, the replies to them, and a result. Which
courses a dialogue may take does not depend on who answers, because any reply may come from some
host. So the courses of a dialogue are exactly its transcripts, over all hosts at once, and what is
proved of all courses holds whatever a host does.

## Main definitions

* `RigScript.Event.Granted`, `RigScript.EndsAtRefusal`: refusals, and what they lead to
* `RigScript.Dialogue.Course`: a course that a dialogue may take

## Main results

* `RigScript.Dialogue.course_bind`: one dialogue after another
* `RigScript.Dialogue.course_iff_exists_host`: **courses are transcripts**
* `RigScript.Attempt.course_bind`: one attempt after another, up to the first failure
-/

namespace RigScript

/-! ### Refusals -/

/-- The request of an event was **granted**: it was not refused. -/
def Event.Granted (e : Event) : Prop :=
  ∃ reply, e.reply = .ok reply

/-- **A refusal ends it and is reported**: all requests were granted, or the last one was refused
and the outcome is that refusal. -/
inductive EndsAtRefusal {α : Type} : List Event → Except ConvertError α → Prop
  | granted {events : List Event} {outcome : Except ConvertError α} :
      (∀ e ∈ events, e.Granted) → EndsAtRefusal events outcome
  | refused {events : List Event} {r : Request} {e : GraphError} :
      (∀ e ∈ events, e.Granted) → EndsAtRefusal (events ++ [⟨r, .error e⟩]) (.error (.graph e))

namespace EndsAtRefusal

variable {α β : Type} {before events : List Event} {outcome : Except ConvertError α}

theorem nil : EndsAtRefusal [] outcome :=
  .granted (by simp)

/-- The answer to one request. -/
theorem single {r : Request} : (reply : Except GraphError r.Reply) →
    EndsAtRefusal [⟨r, reply⟩] (reply.mapError ConvertError.graph)
  | .ok reply => .granted (by simp [Event.Granted])
  | .error e => by
      have hempty : ∀ e' ∈ ([] : List Event), e'.Granted := by simp
      exact .refused hempty

/-- A success came without a refusal. -/
theorem granted_of_ok {a : α} (h : EndsAtRefusal events (.ok a : Except ConvertError α)) :
    ∀ e ∈ events, e.Granted := by
  cases h with
  | granted h => exact h

/-- Granted requests may come before. -/
theorem append (hbefore : ∀ e ∈ before, e.Granted) (h : EndsAtRefusal events outcome) :
    EndsAtRefusal (before ++ events) outcome := by
  have hboth : ∀ {after : List Event}, (∀ e ∈ after, e.Granted) →
      ∀ e ∈ before ++ after, e.Granted := by
    intro after hafter e he
    obtain hb | ha := List.mem_append.1 he
    · exact hbefore e hb
    · exact hafter e ha
  cases h with
  | granted h => exact .granted (hboth h)
  | refused h =>
      rw [← List.append_assoc]
      exact .refused (hboth h)

/-- Nothing follows a refusal. -/
theorem granted_dropLast (h : EndsAtRefusal events outcome) : ∀ e ∈ events.dropLast, e.Granted := by
  cases h with
  | granted h => exact fun e he => h e (List.dropLast_subset events he)
  | refused h => rwa [List.dropLast_concat]

/-- What is reported may be passed on as the failure of something larger. -/
theorem error {e : ConvertError} (h : EndsAtRefusal events (.error e : Except ConvertError α)) :
    EndsAtRefusal events (.error e : Except ConvertError β) := by
  cases h with
  | granted h => exact .granted h
  | refused h => exact .refused h

end EndsAtRefusal

/-! ### Courses -/

/-- The host that recites the replies of given events, as long as it is asked in their order. -/
def Host.reciting : Host (List Event) where
  respond
    | [], _ => (.error (.host "nothing to recite"), [])
    | e :: rest, r =>
      if h : e.request = r then (h ▸ e.reply, rest) else (.error (.host "out of order"), rest)

namespace Dialogue

variable {α β σ : Type} {events : List Event}

/-- The dialogue may take the **course** `events` and end with `a`: the events hold its requests in
order, and after each of them it goes on with the reply. -/
inductive Course : Dialogue α → List Event → α → Prop
  | done (a : α) : Course (.done a) [] a
  | ask {r : Request} {next : Except GraphError r.Reply → Dialogue α}
      {reply : Except GraphError r.Reply} {events : List Event} {a : α} :
      Course (next reply) events a → Course (.ask r next) (⟨r, reply⟩ :: events) a

theorem course_done {a b : α} : (done a).Course events b ↔ events = [] ∧ a = b := by
  constructor
  · rintro ⟨⟩
    exact ⟨rfl, rfl⟩
  · rintro ⟨rfl, rfl⟩
    exact .done a

theorem course_ask {r : Request} {next : Except GraphError r.Reply → Dialogue α} {a : α} :
    (ask r next).Course events a ↔
      ∃ reply rest, events = ⟨r, reply⟩ :: rest ∧ (next reply).Course rest a := by
  constructor
  · intro h
    cases h with
    | ask hnext => exact ⟨_, _, rfl, hnext⟩
  · rintro ⟨reply, rest, rfl, hnext⟩
    exact .ask hnext

/-- Two dialogues take their courses one after the other. -/
theorem course_bind {d : Dialogue α} {f : α → Dialogue β} {b : β} :
    (d.bind f).Course events b ↔
      ∃ before after a, events = before ++ after ∧ d.Course before a ∧ (f a).Course after b := by
  induction d generalizing events with
  | done a =>
      constructor
      · intro h
        exact ⟨[], events, a, rfl, .done a, h⟩
      · rintro ⟨before, after, a', rfl, hfirst, hrest⟩
        obtain ⟨rfl, rfl⟩ := course_done.1 hfirst
        exact hrest
  | ask r next ih =>
      rw [bind, course_ask]
      constructor
      · rintro ⟨reply, rest, rfl, hnext⟩
        obtain ⟨before, after, a, rfl, hfirst, hrest⟩ := (ih reply).1 hnext
        exact ⟨⟨r, reply⟩ :: before, after, a, rfl, .ask hfirst, hrest⟩
      · rintro ⟨before, after, a, rfl, hfirst, hrest⟩
        obtain ⟨reply, rest, rfl, hnext⟩ := course_ask.1 hfirst
        exact ⟨reply, rest ++ after, rfl, (ih reply).2 ⟨rest, after, a, rfl, hnext, hrest⟩⟩

/-- With any host, a dialogue takes one of its courses. -/
theorem course_trace (host : Host σ) (d : Dialogue α) (s : σ) :
    d.Course (d.trace host s) (d.run host s).1 := by
  induction d generalizing s with
  | done a => exact .done a
  | ask r next ih => exact .ask (ih _ _)

/-- Who recites the events of a course brings it about. -/
theorem Course.recited {d : Dialogue α} {a : α} (h : d.Course events a) :
    d.trace Host.reciting events = events ∧ (d.run Host.reciting events).1 = a := by
  induction h with
  | done a => exact ⟨rfl, rfl⟩
  | @ask r next reply events a _ ih =>
      have hreply : Host.reciting.respond (⟨r, reply⟩ :: events) r = (reply, events) := by
        simp [Host.reciting]
      rw [trace_ask, run_ask, hreply]
      exact ⟨by rw [ih.1], ih.2⟩

/-- **Courses are transcripts**: a dialogue may take a course exactly when it takes it with some
host. -/
theorem course_iff_exists_host {d : Dialogue α} {a : α} :
    d.Course events a ↔ ∃ (σ : Type) (host : Host σ) (s : σ),
      d.trace host s = events ∧ (d.run host s).1 = a := by
  constructor
  · intro h
    exact ⟨_, Host.reciting, events, h.recited⟩
  · rintro ⟨σ, host, s, rfl, rfl⟩
    exact course_trace host d s

end Dialogue

/-! ### Courses of attempts -/

namespace Attempt

variable {α β : Type} {events : List Event}

theorem course_pure {a : α} {out : Except ConvertError α} :
    (pure a : Attempt α).run.Course events out ↔ events = [] ∧ out = .ok a := by
  rw [ExceptT.run_pure, Dialogue.pure_eq, Dialogue.course_done, eq_comm (a := out)]

theorem course_throw {e : ConvertError} {out : Except ConvertError α} :
    (throw e : Attempt α).run.Course events out ↔ events = [] ∧ out = .error e := by
  rw [ExceptT.run_throw, Dialogue.pure_eq, Dialogue.course_done, eq_comm (a := out)]

/-- A request whose refusal is a failure. -/
theorem course_ask {r : Request} {out : Except ConvertError r.Reply} :
    (ask r).run.Course events out ↔
      (∃ reply, events = [⟨r, .ok reply⟩] ∧ out = .ok reply) ∨
        ∃ e, events = [⟨r, .error e⟩] ∧ out = .error (.graph e) := by
  rw [ask, ExceptT.run_mk, Dialogue.course_ask]
  constructor
  · rintro ⟨reply, rest, rfl, hdone⟩
    cases reply with
    | ok a =>
        obtain ⟨rfl, rfl⟩ := Dialogue.course_done.1 hdone
        exact .inl ⟨a, rfl, rfl⟩
    | error e =>
        obtain ⟨rfl, rfl⟩ := Dialogue.course_done.1 hdone
        exact .inr ⟨e, rfl, rfl⟩
  · rintro (⟨reply, rfl, rfl⟩ | ⟨e, rfl, rfl⟩)
    · exact ⟨.ok reply, [], rfl, .done _⟩
    · exact ⟨.error e, [], rfl, .done _⟩

/-- A failure is passed on under a name. -/
theorem course_within {a : Attempt α} {name : String} {out : Except ConvertError α}
    (h : (a.within name).run.Course events out) :
    ∃ outcome, a.run.Course events outcome ∧ out = outcome.mapError (.conversion name) := by
  obtain ⟨before, after, outcome, rfl, hfirst, hrest⟩ := Dialogue.course_bind.1 h
  cases outcome with
  | ok x =>
      obtain ⟨rfl, rfl⟩ := Dialogue.course_done.1 hrest
      exact ⟨.ok x, by rwa [List.append_nil], rfl⟩
  | error e =>
      obtain ⟨rfl, rfl⟩ := Dialogue.course_done.1 hrest
      exact ⟨.error e, by rwa [List.append_nil], rfl⟩

/-- **Attempts are made one after the other**, up to the first failure. -/
theorem course_bind {a : Attempt α} {f : α → Attempt β} {out : Except ConvertError β} :
    (a >>= f).run.Course events out ↔
      (∃ e, a.run.Course events (.error e) ∧ out = .error e) ∨
        ∃ before after x, events = before ++ after ∧ a.run.Course before (.ok x) ∧
          (f x).run.Course after out := by
  rw [ExceptT.run_bind, Dialogue.bind_eq, Dialogue.course_bind]
  constructor
  · rintro ⟨before, after, outcome, rfl, hfirst, hrest⟩
    cases outcome with
    | ok x => exact .inr ⟨before, after, x, rfl, hfirst, hrest⟩
    | error e =>
        obtain ⟨rfl, rfl⟩ := Dialogue.course_done.1 hrest
        exact .inl ⟨e, by rwa [List.append_nil], rfl⟩
  · rintro (⟨e, hfirst, rfl⟩ | ⟨before, after, x, rfl, hfirst, hrest⟩)
    · exact ⟨events, [], .error e, (List.append_nil _).symm, hfirst, .done _⟩
    · exact ⟨before, after, .ok x, rfl, hfirst, hrest⟩

/-! ### Attempts held with a host -/

section Held

variable {σ : Type} {host : Host σ} {s s' : σ} {a : Attempt α} {f : α → Attempt β}

/-- After a success the next attempt is made. -/
theorem held_bind_ok {x : α} (h : a.run.run host s = (.ok x, s')) :
    (a >>= f).run.run host s = (f x).run.run host s' ∧
      (a >>= f).run.trace host s = a.run.trace host s ++ (f x).run.trace host s' := by
  rw [ExceptT.run_bind, Dialogue.bind_eq, Dialogue.run_bind, Dialogue.trace_bind, h]
  exact ⟨rfl, rfl⟩

/-- After a failure nothing else is attempted. -/
theorem held_bind_error {e : ConvertError} (h : a.run.run host s = (.error e, s')) :
    (a >>= f).run.run host s = (.error e, s') ∧
      (a >>= f).run.trace host s = a.run.trace host s := by
  rw [ExceptT.run_bind, Dialogue.bind_eq, Dialogue.run_bind, Dialogue.trace_bind, h]
  exact ⟨rfl, List.append_nil _⟩

/-- A failure is that of the first attempt or of the next one. -/
theorem held_bind_eq_error {e : ConvertError} (h : (a >>= f).run.run host s = (.error e, s')) :
    (a.run.run host s = (.error e, s') ∧
      (a >>= f).run.trace host s = a.run.trace host s) ∨
    ∃ x t, a.run.run host s = (.ok x, t) ∧ (f x).run.run host t = (.error e, s') ∧
      (a >>= f).run.trace host s = a.run.trace host s ++ (f x).run.trace host t := by
  cases hfirst : a.run.run host s with
  | mk outcome t =>
      cases outcome with
      | error e' =>
          obtain ⟨hrun, htrace⟩ := held_bind_error (f := f) hfirst
          cases hrun.symm.trans h
          exact .inl ⟨rfl, htrace⟩
      | ok x =>
          obtain ⟨hrun, htrace⟩ := held_bind_ok (f := f) hfirst
          exact .inr ⟨x, t, rfl, hrun.symm.trans h, htrace⟩

theorem held_ask_ok {r : Request} {reply : r.Reply} (h : host.respond s r = (.ok reply, s')) :
    (ask r).run.run host s = (.ok reply, s') ∧
      (ask r).run.trace host s = [⟨r, .ok reply⟩] := by
  simp only [ask, ExceptT.run_mk, Dialogue.run_ask, Dialogue.trace_ask, h]
  exact ⟨rfl, rfl⟩

/-- A failure is passed on under a name. -/
theorem held_within_error {e : ConvertError} (name : String)
    (h : a.run.run host s = (.error e, s')) :
    (a.within name).run.run host s = (.error (.conversion name e), s') ∧
      (a.within name).run.trace host s = a.run.trace host s := by
  simp only [within, ExceptT.run_mk, Dialogue.bind_eq, Dialogue.run_bind, Dialogue.trace_bind, h]
  exact ⟨rfl, List.append_nil _⟩

end Held

end Attempt

end RigScript
