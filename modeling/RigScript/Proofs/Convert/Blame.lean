import Mathlib.Data.Prod.Basic
import RigScript.Host.Refusing
import RigScript.Proofs.Compile.Complaints
import RigScript.Proofs.Convert.Accounting
import RigScript.Proofs.Convert.Batch

/-!
# Which construct a batch blames

A batch that fails after the constructs were listed fails in the turn of one of them, or at the very
end when the selection is emptied. A construct that cannot be replaced is named in the report, with
its own failure inside. A host that does not tell what is connected to a construct fails the turn as
well, but then the report is the refusal alone and the construct is not named.

## Main definitions

* `RigScript.TurnBegins`: the state in which the turn of a construct begins
* `RigScript.Unanswered`, `RigScript.Irreplaceable`: the two ways in which a turn fails

## Main results

* `RigScript.Replacement.root_eq`: the failure of a construct has no other one inside
* `RigScript.turn_eq_error_iff`: how a turn fails
* `RigScript.convertAll_eq_error_iff`: **which construct a batch blames**
-/

namespace RigScript

section Turns

variable {σ : Type}

/-- The turn of a construct **begins** in a state: the constructs that are listed before it were
gone through. -/
def TurnBegins (host : Host σ) (o : Options) (names : List String) (start : σ) (name : String)
    (s : σ) : Prop :=
  ∃ before after report, names = before ++ name :: after ∧
    (convertEach o before {}).run.run host start = (.ok report, s)

/-- In the turn of a construct the host does **not answer** what is connected to it. -/
def Unanswered (host : Host σ) (o : Options) (name : String) (s : σ) (refusal : GraphError) :
    Prop :=
  (host.respond s (.listIncoming ⟨name, o.input⟩)).1 = .error refusal

/-- In its turn a construct is live and **cannot be replaced**: the attempt takes the course of the
events and fails for a cause. -/
def Irreplaceable (host : Host σ) (o : Options) (name : String) (s : σ) (events : List Event)
    (cause : ConvertError) : Prop :=
  ∃ source sources s', host.respond s (.listIncoming ⟨name, o.input⟩) =
      (.ok (some (source :: sources)), s') ∧
    (replaceConstruct ⟨name, o⟩).run.trace host s' = events ∧
    ((replaceConstruct ⟨name, o⟩).run.run host s').1 = .error cause

variable {host : Host σ} {o : Options} {s start : σ} {name : String} {names : List String}
  {e : ConvertError}

/-! ### The failure of a construct -/

/-- A complaint has no other one inside. -/
theorem Complaint.root_eq {c : Context} {paths : List String} {calls : List (String × Nat)}
    (h : Complaint c paths calls e) : e.root = e := by
  cases h <;> rfl

/-- **The failure of a construct has no other one inside.** -/
theorem Replacement.root_eq {c : Context} {events : List Event}
    (h : Replacement c events (.error e)) : e.root = e := by
  cases h with
  | stuck hstuck =>
      cases hstuck with
      | unread refusal => rfl
      | mistyped hv => rfl
      | unbuilt hbuilds hclean =>
          obtain ⟨err, rfl⟩ | ⟨p, -, hcomplaint⟩ := hbuilds.complaint
          · rfl
          · exact hcomplaint.root_eq
  | refused hbuilds hclean => rfl

/-- The events tell the cause. -/
theorem Irreplaceable.replacement {events : List Event} {cause : ConvertError}
    (h : Irreplaceable host o name s events cause) :
    Replacement ⟨name, o⟩ events (.error cause) := by
  obtain ⟨source, sources, s', -, rfl, hfail⟩ := h
  have hcourse := Dialogue.course_trace host (replaceConstruct ⟨name, o⟩).run s'
  rw [hfail] at hcourse
  exact replacement_of_course hcourse

/-! ### Turns that fail -/

/-- A refused request ends an attempt. -/
theorem Attempt.held_ask_error {r : Request} {refusal : GraphError} {s' : σ}
    (h : host.respond s r = (.error refusal, s')) :
    (ask r).run.run host s = (.error (.graph refusal), s') := by
  simp only [ask, ExceptT.run_mk, Dialogue.run_ask, h]
  rfl

/-- The turn of a construct about which the host does not answer. -/
theorem turn_of_unanswered {report : Report} {refusal : GraphError}
    (h : Unanswered host o name s refusal) :
    ((convertEach o [name] report).run.run host s).1 = .error (.graph refusal) := by
  have hask := Attempt.held_ask_error (Prod.fst_eq_iff.1 h)
  rw [convertEach, (Attempt.held_bind_error hask).1]

/-- The turn of a construct that cannot be replaced. -/
theorem turn_of_irreplaceable {report : Report} {events : List Event} {cause : ConvertError}
    (h : Irreplaceable host o name s events cause) :
    ((convertEach o [name] report).run.run host s).1 = .error (.conversion name cause) := by
  obtain ⟨source, sources, s', hask, -, hfail⟩ := h
  have hwithin := (Attempt.held_within_error name (Prod.fst_eq_iff.1 hfail)).1
  rw [convertEach, (Attempt.held_bind_ok (Attempt.held_ask_ok hask).1).1]
  rw [if_neg (by simp [isIdle]), (Attempt.held_bind_error hwithin).1]

/-- **How a turn fails**: the host does not answer, or the construct cannot be replaced. -/
theorem turn_eq_error_iff {report : Report} :
    ((convertEach o [name] report).run.run host s).1 = .error e ↔
      (∃ refusal, Unanswered host o name s refusal ∧ e = .graph refusal) ∨
        ∃ events cause, Irreplaceable host o name s events cause ∧ e = .conversion name cause := by
  constructor
  swap
  · rintro (⟨refusal, hunanswered, rfl⟩ | ⟨events, cause, hirreplaceable, rfl⟩)
    · exact turn_of_unanswered hunanswered
    · exact turn_of_irreplaceable hirreplaceable
  intro h
  cases hask : host.respond s (.listIncoming ⟨name, o.input⟩) with
  | mk reply s' =>
      cases reply with
      | error refusal =>
          have hunanswered : Unanswered host o name s refusal := congrArg Prod.fst hask
          cases (turn_of_unanswered hunanswered).symm.trans h
          exact .inl ⟨refusal, hunanswered, rfl⟩
      | ok incoming =>
          have hanswer := (Attempt.held_ask_ok hask).1
          by_cases hidle : isIdle incoming = true
          · rw [convertEach, (Attempt.held_bind_ok hanswer).1, if_pos hidle] at h
            cases h
          · obtain ⟨source, sources, rfl⟩ := exists_source_of_isIdle_ne hidle
            cases hreplace : (replaceConstruct ⟨name, o⟩).run.run host s' with
            | mk outcome s'' =>
                cases outcome with
                | ok count =>
                    have hwithin : ((replaceConstruct ⟨name, o⟩).within name).run.run host s' =
                        (.ok count, s'') :=
                      Attempt.yields_within.2 hreplace
                    rw [convertEach, (Attempt.held_bind_ok hanswer).1, if_neg hidle,
                      (Attempt.held_bind_ok hwithin).1] at h
                    cases h
                | error cause =>
                    have hstuck : Irreplaceable host o name s _ cause :=
                      ⟨source, sources, s', hask, rfl, congrArg Prod.fst hreplace⟩
                    cases (turn_of_irreplaceable hstuck).symm.trans h
                    exact .inr ⟨_, cause, hstuck, rfl⟩

/-- **Going through constructs fails** in the turn of one of them. -/
theorem convertEach_eq_error_iff :
    ((convertEach o names {}).run.run host start).1 = .error e ↔
      ∃ name s, TurnBegins host o names start name s ∧
        ((∃ refusal, Unanswered host o name s refusal ∧ e = .graph refusal) ∨
          ∃ events cause, Irreplaceable host o name s events cause ∧
            e = .conversion name cause) := by
  constructor
  · intro h
    obtain ⟨before, name, after, report, s, rfl, hbefore, hfail⟩ :=
      exists_failed_turn (Prod.fst_eq_iff.1 h)
    exact ⟨name, s, ⟨before, after, report, rfl, hbefore⟩,
      turn_eq_error_iff.1 (congrArg Prod.fst hfail)⟩
  · rintro ⟨name, s, ⟨before, after, report, rfl, hbefore⟩, hfails⟩
    have hturn : ((convertEach o [name] report).run.run host s).1 = .error e :=
      turn_eq_error_iff.2 hfails
    -- The constructs before it were gone through, and those after it have no turn.
    rw [convertEach_append, (Attempt.held_bind_ok hbefore).1, ← List.singleton_append,
      convertEach_append, (Attempt.held_bind_error (Prod.fst_eq_iff.1 hturn)).1]

/-! ### Batches that fail -/

/-- A batch fails with one of the constructs, or else when the selection is emptied. -/
theorem convertAll_eq_error_iff_convertEach {st : σ}
    (hlisted : host.respond st (.listConstructs o.constructKind) = (.ok names, start)) :
    ((convertAll o).run.run host st).1 = .error e ↔
      ((convertEach o names {}).run.run host start).1 = .error e ∨
        ∃ report s refusal, (convertEach o names {}).run.run host start = (.ok report, s) ∧
          (host.respond s .clearSelection).1 = .error refusal ∧ e = .graph refusal := by
  have hlist : (convertListed o).run.run host st = (convertEach o names {}).run.run host start := by
    rw [convertListed, (Attempt.held_bind_ok (Attempt.held_ask_ok hlisted).1).1]
  cases hrun : (convertEach o names {}).run.run host start with
  | mk outcome s =>
      rw [hrun] at hlist
      cases outcome with
      | error e' =>
          rw [(held_convertAll hlist).1]
          simp
      | ok report =>
          simp only [convertAll, ExceptT.run_mk, Dialogue.bind_eq, Dialogue.run_bind, hlist,
            Dialogue.send, Dialogue.run_ask, Dialogue.run_done]
          cases hclear : (host.respond s .clearSelection).1 with
          | ok _ => simp [Dialogue.pure_eq, hclear]
          | error refusal => simp [Dialogue.pure_eq, hclear, eq_comm]

/-- **Which construct a batch blames.** After the constructs were listed, a batch fails in one of
three ways.

* The host does not tell what is connected to a construct. Then the refusal is reported, and the
  construct is not named.
* A construct is live and cannot be replaced: its script is not read, not built, or the construct is
  not deleted, as the events tell. Then it is named, and the reason inside the report is that cause.
* All constructs were gone through and the selection cannot be emptied. Then that is reported. -/
theorem convertAll_eq_error_iff {st : σ}
    (hlisted : host.respond st (.listConstructs o.constructKind) = (.ok names, start)) :
    ((convertAll o).run.run host st).1 = .error e ↔
      (∃ name s refusal, TurnBegins host o names start name s ∧
        Unanswered host o name s refusal ∧ e = .graph refusal) ∨
      (∃ name s events cause, TurnBegins host o names start name s ∧
        Irreplaceable host o name s events cause ∧ Replacement ⟨name, o⟩ events (.error cause) ∧
        e = .conversion name cause ∧ e.root = cause) ∨
      ∃ report s refusal, (convertEach o names {}).run.run host start = (.ok report, s) ∧
        (host.respond s .clearSelection).1 = .error refusal ∧ e = .graph refusal := by
  rw [convertAll_eq_error_iff_convertEach hlisted, convertEach_eq_error_iff]
  constructor
  · rintro (⟨name, s, hbegins, ⟨refusal, hfails⟩ | ⟨events, cause, hfails, rfl⟩⟩ | hcleared)
    · exact .inl ⟨name, s, refusal, hbegins, hfails⟩
    · have hreplacement := hfails.replacement
      exact .inr (.inl ⟨name, s, events, cause, hbegins, hfails, hreplacement, rfl,
        hreplacement.root_eq⟩)
    · exact .inr (.inr hcleared)
  · rintro (⟨name, s, refusal, hbegins, hfails⟩ |
      ⟨name, s, events, cause, hbegins, hfails, -, he, -⟩ | hcleared)
    · exact .inl ⟨name, s, hbegins, .inl ⟨refusal, hfails⟩⟩
    · exact .inl ⟨name, s, hbegins, .inr ⟨events, cause, hfails, he⟩⟩
    · exact .inr hcleared

end Turns

/-- The host of a scene graph that refuses the first call of a method. -/
def Graph.refusingFirst (method : Method) : Host (Graph × List Method) :=
  Graph.host.refusing [(method, 1)]

/-- A construct that the host refuses to delete is named, and one about which it does not answer is
not. -/
theorem convertAll_eq_error_iff_doubling :
    ((convertAll {}).run.run (Graph.refusingFirst .deleteNode) (Graph.doubling, [])).1 =
        .error (.conversion "e" (.graph (.host "host refused delete_node call 1"))) ∧
      ((convertAll {}).run.run (Graph.refusingFirst .listIncoming) (Graph.doubling, [])).1 =
        .error (.graph (.host "host refused list_incoming_connections call 1")) := by
  have hlisted : ∀ method ∈ [Method.deleteNode, .listIncoming],
      ((Graph.refusingFirst method).respond (Graph.doubling, []) (.listConstructs "expression")).1 =
        .ok ["e"] := by
    decide +kernel
  have hdelete := Prod.fst_eq_iff.1 (hlisted .deleteNode (by simp))
  have hincoming := Prod.fst_eq_iff.1 (hlisted .listIncoming (by simp))
  refine ⟨(convertAll_eq_error_iff hdelete).2 (.inr (.inl ?_)),
    (convertAll_eq_error_iff hincoming).2 (.inl ?_)⟩
  · have hstuck : Irreplaceable (Graph.refusingFirst .deleteNode) {} "e"
        ((Graph.refusingFirst .deleteNode).respond (Graph.doubling, [])
          (.listConstructs "expression")).2 _ (.graph (.host "host refused delete_node call 1")) :=
      ⟨⟨"ctrl", "tx"⟩, [], _, Prod.fst_eq_iff.1 (by decide +kernel), rfl, by decide +kernel⟩
    exact ⟨"e", _, _, _, ⟨[], [], {}, rfl, rfl⟩, hstuck, hstuck.replacement, rfl, rfl⟩
  · refine ⟨"e", _, .host "host refused list_incoming_connections call 1",
      ⟨[], [], {}, rfl, rfl⟩, ?_, rfl⟩
    rw [Unanswered]
    decide +kernel

end RigScript
