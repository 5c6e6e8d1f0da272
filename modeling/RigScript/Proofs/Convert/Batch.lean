import RigScript.Proofs.Convert.Rollback

/-!
# The protocol of a batch

A batch speaks to the host in turns. It lists the constructs and gives each of them its turn, in the
order of the listing and up to the first one that fails; at last the selection is emptied. What a
turn consists of is fixed by the answers of the host, and so is the outcome of the batch.

## Main definitions

* `RigScript.Turn`, `RigScript.Fate`: the turn of a construct and how it ends
* `RigScript.Turn.Conforms`: the events that a turn consists of
* `RigScript.Turns`: turns in the order of a listing, up to the first failure

## Main results

* `RigScript.turns_of_course`: the courses of a batch are made up of turns
* `RigScript.convertAll_protocol`: **the protocol of a batch, with any host**
-/

namespace RigScript

/-! ### Turns -/

/-- How the turn of a construct ends. -/
inductive Fate where
  | skipped
  | converted
  | failed (e : ConvertError)
deriving DecidableEq

/-- The turn of a construct in a batch. -/
structure Turn where
  /-- The construct. -/
  construct : String
  /-- What is said to the host. -/
  events : List Event
  /-- How the turn ends. -/
  fate : Fate

/-- **What a turn consists of.** The host is asked what is connected to the input of the construct.
If it is nothing, that was all. Otherwise the construct is replaced. -/
inductive Turn.Conforms (o : Options) : Turn → Prop
  /-- The host does not tell what is connected. -/
  | unanswered (name : String) (e : GraphError) :
      Conforms o ⟨name, [⟨.listIncoming ⟨name, o.input⟩, .error e⟩], .failed (.graph e)⟩
  /-- Nothing is connected. -/
  | idle (name : String) {incoming : Option (List Plug)} :
      incoming = none ∨ incoming = some [] →
      Conforms o ⟨name, [⟨.listIncoming ⟨name, o.input⟩, .ok incoming⟩], .skipped⟩
  /-- Something is connected, and the construct is replaced. -/
  | converted {name : String} {source : Plug} {sources : List Plug} {events : List Event}
      {count : Nat} : Replacement ⟨name, o⟩ events (.ok count) →
      Conforms o ⟨name, ⟨.listIncoming ⟨name, o.input⟩, .ok (some (source :: sources))⟩ :: events,
        .converted⟩
  /-- Something is connected, and the construct cannot be replaced. -/
  | failed {name : String} {source : Plug} {sources : List Plug} {events : List Event}
      {e : ConvertError} : Replacement ⟨name, o⟩ events (.error e) →
      Conforms o ⟨name, ⟨.listIncoming ⟨name, o.input⟩, .ok (some (source :: sources))⟩ :: events,
        .failed (.conversion name e)⟩

/-- **Turns in the order of a listing, up to the first failure**, if there is one. -/
inductive Turns (o : Options) : List String → List Turn → Option ConvertError → Prop
  | done : Turns o [] [] none
  | failed {t : Turn} {e : ConvertError} (names : List String) : t.Conforms o →
      t.fate = .failed e → Turns o (t.construct :: names) [t] (some e)
  | next {t : Turn} {names : List String} {turns : List Turn} {failure : Option ConvertError} :
      t.Conforms o → (∀ e, t.fate ≠ .failed e) → Turns o names turns failure →
      Turns o (t.construct :: names) (t :: turns) failure

/-- What is said to the host in turns. -/
def eventsOf (turns : List Turn) : List Event :=
  turns.flatMap Turn.events

@[simp] theorem eventsOf_cons (t : Turn) (turns : List Turn) :
    eventsOf (t :: turns) = t.events ++ eventsOf turns :=
  List.flatMap_cons

/-- The constructs whose turns have a given fate, in order. -/
def constructsOf (fate : Fate) (turns : List Turn) : List String :=
  (turns.filter (·.fate = fate)).map Turn.construct

/-- A report after further turns. -/
def Report.after (report : Report) (turns : List Turn) : Report where
  converted := report.converted ++ constructsOf .converted turns
  skipped := report.skipped ++ constructsOf .skipped turns
  nodesCreated := report.nodesCreated + (createdIn (eventsOf turns)).length

/-! ### The courses of a batch -/

/-- A construct is idle when nothing is connected. -/
theorem isIdle_iff {incoming : Option (List Plug)} :
    isIdle incoming = true ↔ incoming = none ∨ incoming = some [] := by
  cases incoming with
  | none => simp [isIdle]
  | some sources => simp [isIdle]

theorem exists_source_of_isIdle_ne {incoming : Option (List Plug)} (h : ¬ isIdle incoming = true) :
    ∃ source sources, incoming = some (source :: sources) := by
  rw [isIdle_iff, not_or] at h
  obtain ⟨hnone, hempty⟩ := h
  cases incoming with
  | none => exact absurd rfl hnone
  | some sources =>
      cases sources with
      | nil => exact absurd rfl hempty
      | cons source sources => exact ⟨source, sources, rfl⟩

/-- A replaced construct counts the nodes that were created. -/
theorem Replacement.count_eq {c : Context} {events : List Event} {count : Nat}
    (h : Replacement c events (.ok count)) : count = (createdIn events).length := by
  cases h with
  | replaced hbuilds => simp [createdIn_cons, Event.created?]

/-- Turns may be reported one after the other. -/
theorem Report.after_cons (report : Report) (t : Turn) (turns : List Turn) :
    report.after (t :: turns) = (report.after [t]).after turns := by
  cases hfate : t.fate <;>
    simp [Report.after, constructsOf, eventsOf, hfate, Nat.add_assoc]

/-- **A construct takes its turn.** If it fails the batch is over, and otherwise the others
follow. -/
theorem turn_of_course {o : Options} {name : String} {names : List String} {report : Report}
    {events : List Event} {out : Except ConvertError Report}
    (h : (convertEach o (name :: names) report).run.Course events out) :
    ∃ t : Turn, t.construct = name ∧ t.Conforms o ∧
      ((∃ e, t.fate = .failed e ∧ events = t.events ∧ out = .error e) ∨
        (∀ e, t.fate ≠ .failed e) ∧ ∃ rest, events = t.events ++ rest ∧
          (convertEach o names (report.after [t])).run.Course rest out) := by
  rw [convertEach] at h
  obtain ⟨e, hask, rfl⟩ | ⟨first, rest, incoming, rfl, hask, hrest⟩ := Attempt.course_bind.1 h
  · obtain ⟨incoming, -, hout⟩ | ⟨e, rfl, hout⟩ := Attempt.course_ask.1 hask
    · cases hout
    · cases hout
      exact ⟨_, rfl, .unanswered name e, .inl ⟨_, rfl, rfl, rfl⟩⟩
  · obtain ⟨incoming, rfl, hout⟩ | ⟨e, -, hout⟩ := Attempt.course_ask.1 hask
    swap
    · cases hout
    cases hout
    split at hrest
    · next hidle =>
      refine ⟨_, rfl, .idle name (isIdle_iff.1 hidle), .inr ⟨by simp, rest, rfl, ?_⟩⟩
      simpa [Report.after, constructsOf, eventsOf, createdIn_cons, Event.created?] using hrest
    · next hlive =>
      obtain ⟨source, sources, rfl⟩ := exists_source_of_isIdle_ne hlive
      obtain ⟨e, hreplace, rfl⟩ | ⟨first, rest, count, rfl, hreplace, hrest⟩ :=
        Attempt.course_bind.1 hrest
      · obtain ⟨outcome, hcourse, hout⟩ := Attempt.course_within hreplace
        cases outcome with
        | ok count => cases hout
        | error e' =>
            cases hout
            exact ⟨_, rfl, .failed (replacement_of_course hcourse), .inl ⟨_, rfl, rfl, rfl⟩⟩
      · obtain ⟨outcome, hcourse, hout⟩ := Attempt.course_within hreplace
        cases outcome with
        | error e' => cases hout
        | ok count' =>
            cases hout
            have hreplaced := replacement_of_course hcourse
            refine ⟨_, rfl, .converted hreplaced, .inr ⟨by simp, rest, rfl, ?_⟩⟩
            simpa [Report.after, constructsOf, eventsOf, createdIn_cons, Event.created?,
              hreplaced.count_eq] using hrest

/-- **The courses of a batch are made up of turns**, and these determine the report. -/
theorem turns_of_course {o : Options} {names : List String} {report : Report}
    {events : List Event} {out : Except ConvertError Report}
    (h : (convertEach o names report).run.Course events out) :
    ∃ turns failure, events = eventsOf turns ∧ Turns o names turns failure ∧
      out = failure.elim (.ok (report.after turns)) .error := by
  induction names generalizing report events out with
  | nil =>
      obtain ⟨rfl, rfl⟩ := Attempt.course_pure.1 h
      exact ⟨[], none, rfl, .done, by simp [Report.after, constructsOf, eventsOf]⟩
  | cons name names ih =>
      obtain ⟨t, rfl, hturn, ⟨e, hfate, rfl, rfl⟩ | ⟨hfate, rest, rfl, hrest⟩⟩ := turn_of_course h
      · exact ⟨[t], some e, (List.append_nil _).symm, .failed names hturn hfate, rfl⟩
      · obtain ⟨turns, failure, rfl, hturns, rfl⟩ := ih hrest
        refine ⟨t :: turns, failure, (eventsOf_cons t turns).symm, .next hturn hfate hturns, ?_⟩
        rw [report.after_cons t turns]

/-! ### What turns have in common -/

/-- Nothing follows a refusal in the turn of a construct, except that nodes created in this turn are
deleted. That happens only when the turn fails. -/
def Turn.Orderly (t : Turn) : Prop :=
  ∃ attempt cleanup, t.events = attempt ++ cleanup ∧ (∀ e ∈ attempt.dropLast, e.Granted) ∧
    (∀ e ∈ cleanup, ∃ name ∈ createdIn attempt, e.request = .deleteNode name) ∧
    (cleanup ≠ [] → ∃ e, t.fate = .failed e)

namespace Replacement

variable {c : Context} {events : List Event} {out : Except ConvertError Nat}

/-- After a granted request, a construct is replaced in an orderly way. -/
theorem orderly (h : Replacement c events out) (r : Request) (reply : r.Reply) :
    ∃ attempt cleanup, ⟨r, .ok reply⟩ :: events = attempt ++ cleanup ∧
      (∀ e ∈ attempt.dropLast, e.Granted) ∧
      (∀ e ∈ cleanup, ∃ name ∈ createdIn attempt, e.request = .deleteNode name) ∧
      (cleanup ≠ [] → ∃ e, out = .error e) := by
  -- The script was read, so both requests before building were granted.
  have hstart : ∀ (script : String), ∀ e ∈ ([⟨r, .ok reply⟩, c.reading (.ok (.string script))] :
      List Event), e.Granted := by
    intro script e he
    obtain rfl | rfl : e = _ ∨ e = _ := by simpa using he
    · exact ⟨_, rfl⟩
    · exact ⟨_, rfl⟩
  have hbuilt : ∀ {script : String} {building : List Event}, Builds c script building (.ok ()) →
      ∀ last : Event, ∀ e ∈ ([⟨r, .ok reply⟩,
        c.reading (.ok (.string script))] ++ (building ++ [last])).dropLast, e.Granted := by
    intro script building hbuilds last
    rw [← List.append_assoc, List.dropLast_concat]
    exact (hbuilds.endsAtRefusal.append (hstart script)).granted_of_ok
  cases h with
  | stuck hstuck =>
      cases hstuck with
      | unread e =>
          exact ⟨_, [], (List.append_nil _).symm, by simp [Event.Granted], by simp, by simp⟩
      | mistyped hv =>
          exact ⟨_, [], (List.append_nil _).symm, by simp [Event.Granted], by simp, by simp⟩
      | @unbuilt script building cleanup _ hbuilds hcleans =>
          refine ⟨_ ++ building, cleanup, rfl,
            (hbuilds.endsAtRefusal.append (hstart script)).granted_dropLast, ?_, fun _ => ⟨_, rfl⟩⟩
          intro e he
          obtain ⟨name, hname, hr⟩ := hcleans.exists_mem he
          exact ⟨name, by simp [createdIn_cons, hname], hr⟩
  | @refused script building cleanup refusal hbuilds hcleans =>
      refine ⟨_, cleanup, ?_, hbuilt hbuilds ⟨.deleteNode c.identity, .error refusal⟩, ?_,
        fun _ => ⟨_, rfl⟩⟩
      · simp
      · intro e he
        obtain ⟨name, hname, hr⟩ := hcleans.exists_mem he
        exact ⟨name, by simp [createdIn_cons, hname], hr⟩
  | replaced hbuilds =>
      exact ⟨_, [], (List.append_nil _).symm, hbuilt hbuilds _, by simp, by simp⟩

/-- Replacing a construct lists nothing and leaves the selection alone. -/
theorem isScenic_eq_false (h : Replacement c events out) :
    ∀ e ∈ events, e.request.isScenic = false := by
  have hclean : ∀ {created : List String} {cleanup : List Event},
      c.options.rollback.Cleans created cleanup → ∀ e ∈ cleanup, e.request.isScenic = false := by
    intro created cleanup hclean e he
    obtain ⟨name, -, hr⟩ := hclean.exists_mem he
    rw [hr]
    rfl
  cases h with
  | stuck hstuck =>
      cases hstuck with
      | unread e => simp [Request.isScenic]
      | mistyped hv => simp [Request.isScenic]
      | unbuilt hbuilds hcleans =>
          simp only [List.mem_cons, List.mem_append]
          rintro e (rfl | he | he)
          · rfl
          · exact hbuilds.isScenic_eq_false he
          · exact hclean hcleans e he
  | refused hbuilds hcleans =>
      simp only [List.mem_cons, List.mem_append]
      rintro e (rfl | he | rfl | he)
      · rfl
      · exact hbuilds.isScenic_eq_false he
      · rfl
      · exact hclean hcleans e he
  | replaced hbuilds =>
      simp only [List.mem_cons, List.mem_append, List.not_mem_nil, or_false]
      rintro e (rfl | he | rfl)
      · rfl
      · exact hbuilds.isScenic_eq_false he
      · rfl

end Replacement

namespace Turn.Conforms

variable {o : Options} {t : Turn}

theorem orderly (h : t.Conforms o) : t.Orderly := by
  cases h with
  | unanswered name e => exact ⟨_, [], (List.append_nil _).symm, by simp, by simp, by simp⟩
  | idle name hidle => exact ⟨_, [], (List.append_nil _).symm, by simp, by simp, by simp⟩
  | @converted name source sources events count hreplaced =>
      obtain ⟨attempt, cleanup, hsplit, hgranted, hclean, hfail⟩ :=
        hreplaced.orderly (.listIncoming ⟨name, o.input⟩) (some (source :: sources))
      refine ⟨attempt, cleanup, hsplit, hgranted, hclean, fun hne => ?_⟩
      obtain ⟨e, he⟩ := hfail hne
      cases he
  | @failed name source sources events e hreplaced =>
      obtain ⟨attempt, cleanup, hsplit, hgranted, hclean, -⟩ :=
        hreplaced.orderly (.listIncoming ⟨name, o.input⟩) (some (source :: sources))
      exact ⟨attempt, cleanup, hsplit, hgranted, hclean, fun _ => ⟨_, rfl⟩⟩

/-- After the first request of a turn, nothing is listed and the selection is left alone. -/
theorem isScenic_eq_false (h : t.Conforms o) :
    ∀ e ∈ t.events.tail, e.request.isScenic = false := by
  cases h with
  | unanswered name e => simp
  | idle name hidle => simp
  | converted hreplaced => exact hreplaced.isScenic_eq_false
  | failed hreplaced => exact hreplaced.isScenic_eq_false

/-- A turn begins with asking what is connected to the construct. -/
theorem head_eq (h : t.Conforms o) :
    t.events.head?.map Event.request = some (.listIncoming ⟨t.construct, o.input⟩) := by
  cases h <;> rfl

end Turn.Conforms

/-- Every turn conforms. -/
theorem Turns.conforms {o : Options} {names : List String} {turns : List Turn}
    {failure : Option ConvertError} (h : Turns o names turns failure) :
    ∀ t ∈ turns, t.Conforms o := by
  induction h with
  | done => simp
  | failed names ht _ => simpa using ht
  | next ht _ _ ih => simpa using ⟨ht, ih⟩

/-- Without a failure every listed construct has its turn, and it is converted or skipped. -/
theorem Turns.all_taken {o : Options} {names : List String} {turns : List Turn}
    (h : Turns o names turns none) :
    turns.map Turn.construct = names ∧ ∀ t ∈ turns, t.fate = .converted ∨ t.fate = .skipped := by
  induction turns generalizing names with
  | nil =>
      cases h
      simp
  | cons t turns ih =>
      cases h with
      | next _ hfate hrest =>
          obtain ⟨hnames, hfates⟩ := ih hrest
          refine ⟨by rw [List.map_cons, hnames], List.forall_mem_cons.2 ⟨?_, hfates⟩⟩
          cases ht : t.fate with
          | skipped => exact .inr rfl
          | converted => exact .inl rfl
          | failed e => exact absurd ht (hfate e)

/-- **The protocol of a batch.** With any host, in any state and whatever it refuses, the events of
a batch are a listing of the constructs, turns, and the emptying of the selection.

* The turns are those of the listed constructs, in order and up to the first that fails. Each is
  made up as the answers of the host determine. It begins with asking what is connected to the
  construct. Nothing else in it lists anything or empties the selection. A refusal in it is followed
  only by deletions of nodes created in it, and only if the turn fails.
* A failure to list the constructs is reported and there are no turns. A failure of a turn is
  reported, whatever comes of emptying the selection, and a failure to empty it is reported
  otherwise.
* The report tells the constructs that were converted and those that were skipped, each in the order
  of the listing, and how many nodes were created in all. -/
theorem convertAll_protocol {σ : Type} (host : Host σ) (st : σ) (o : Options) :
    ∃ listing turns cleared,
      (convertAll o).run.trace host st = ⟨.listConstructs o.constructKind, listing⟩ ::
        (eventsOf turns ++ [⟨.clearSelection, cleared⟩]) ∧
      (∀ t ∈ turns,
        t.events.head?.map Event.request = some (.listIncoming ⟨t.construct, o.input⟩) ∧
        (∀ e ∈ t.events.tail, e.request.isScenic = false) ∧ t.Orderly) ∧
      match listing with
      | .error e => turns = [] ∧ ((convertAll o).run.run host st).1 = .error (.graph e)
      | .ok names => ∃ failure, Turns o names turns failure ∧
          match failure, cleared with
          | some e, _ => ((convertAll o).run.run host st).1 = .error e
          | none, .error e => ((convertAll o).run.run host st).1 = .error (.graph e)
          | none, .ok _ => turns.map Turn.construct = names ∧
              (∀ t ∈ turns, t.fate = .converted ∨ t.fate = .skipped) ∧
              ((convertAll o).run.run host st).1 = .ok
                { converted := constructsOf .converted turns
                  skipped := constructsOf .skipped turns
                  nodesCreated := (createdIn ((convertAll o).run.trace host st)).length } := by
  have hcourse := Dialogue.course_trace host (convertAll o).run st
  generalize (convertAll o).run.trace host st = events at hcourse
  generalize ((convertAll o).run.run host st).1 = result at hcourse
  obtain ⟨before, after, outcome, rfl, hlisted, hrest⟩ := Dialogue.course_bind.1 hcourse
  obtain ⟨cleared, last, rfl, hdone⟩ := Dialogue.course_ask.1 hrest
  obtain ⟨e, hask, rfl⟩ | ⟨first, rest, names, rfl, hask, heach⟩ := Attempt.course_bind.1 hlisted
  · obtain ⟨names, -, hout⟩ | ⟨e, rfl, hout⟩ := Attempt.course_ask.1 hask
    · cases hout
    · cases hout
      obtain ⟨rfl, rfl⟩ := Dialogue.course_done.1 hdone
      exact ⟨.error e, [], cleared, rfl, by simp, rfl, rfl⟩
  · obtain ⟨names, rfl, hout⟩ | ⟨e, -, hout⟩ := Attempt.course_ask.1 hask
    swap
    · cases hout
    cases hout
    obtain ⟨turns, failure, rfl, hturns, rfl⟩ := turns_of_course heach
    obtain rfl : last = [] := by
      cases failure <;> cases cleared <;> exact (Dialogue.course_done.1 hdone).1
    refine ⟨.ok names, turns, cleared, by simp, fun t ht => ?_, failure, hturns, ?_⟩
    · have hconforms := hturns.conforms t ht
      exact ⟨hconforms.head_eq, hconforms.isScenic_eq_false, hconforms.orderly⟩
    · cases failure with
      | some e => exact (Dialogue.course_done.1 hdone).2.symm
      | none =>
          cases cleared with
          | error e => exact (Dialogue.course_done.1 hdone).2.symm
          | ok _ =>
              obtain ⟨hnames, hfates⟩ := hturns.all_taken
              refine ⟨hnames, hfates, (Dialogue.course_done.1 hdone).2.symm.trans ?_⟩
              simp [Report.after, createdIn_cons, Event.created?]

end RigScript
