import RigScript.Proofs.Graph.Requests

/-!
# The journal

A scene graph enters the changes that were requested of it in a journal. This module shows that the
journal is all there is to know about them: whatever is requested of a graph, granted or refused,
the entries that were added can be requested again of the graph as it was, and give the graph as it
is. Every such request is granted, every node gets the name it got before, and the journal comes out
the same as well.

## Main definitions

* `RigScript.Change.request`: the request that a journal entry stands for
* `RigScript.Graph.replay`: making the requests of journal entries again
* `RigScript.Graph.afterRequests`: a graph of which requests were made

## Main results

* `RigScript.Graph.perform_cases`: a granted request changes nothing or adds one entry that makes
  it again
* `RigScript.Graph.replay_afterRequests`: the added entries give the graph back
* `RigScript.Graph.journal_faithful`: **the journal is faithful and refusals leave no trace**
-/

namespace RigScript

namespace Change

/-- The request that a journal entry stands for. -/
def request : Change → Request
  | createNode _ kind => .createNode kind
  | setAttribute p v => .setAttribute p v
  | connect source dest force => .connect source dest force
  | disconnect dest => .disconnect dest
  | setLocked p locked => .setLocked p locked
  | createKeyframe curve key => .createKeyframe curve key
  | setExtrapolation curve pre post => .setExtrapolation curve pre post
  | deleteNode name => .deleteNode name
  | clearSelection => .clearSelection

/-- Whether a reply is the one that was entered: a new node has to get the name it got before. -/
def confirms : (c : Change) → c.request.Reply → Bool
  | createNode name _, reply => name == (reply : String)
  | _, _ => true

end Change

namespace Graph

variable {g g' : Graph}

/-- Makes the requests of journal entries again, in order. There is no result when one of them is
refused or answered in another way. -/
def replay (g : Graph) : List Change → Option Graph
  | [] => some g
  | c :: cs =>
    match g.perform c.request with
    | .ok (reply, g') => if c.confirms reply then g'.replay cs else none
    | .error _ => none

/-- The graph after requests were made of it, in order, whether it granted them or not. -/
def afterRequests (g : Graph) (rs : List Request) : Graph :=
  rs.foldl (fun g r => (host.respond g r).2) g

/-! ### Replaying -/

/-- Entries are replayed one after the other. -/
theorem replay_append {cs ds : List Change} :
    g.replay (cs ++ ds) = (g.replay cs).bind fun g' => g'.replay ds := by
  induction cs generalizing g with
  | nil => rfl
  | cons c cs ih =>
      simp only [List.cons_append, replay]
      cases g.perform c.request with
      | error e => rfl
      | ok out =>
          obtain ⟨reply, mid⟩ := out
          by_cases hc : c.confirms reply <;> simp [hc, ih]

/-- A single entry is replayed when its request is granted and answered as before. -/
theorem replay_singleton {c : Change} {reply : c.request.Reply}
    (h : g.perform c.request = .ok (reply, g')) (hc : c.confirms reply = true) :
    g.replay [c] = some g' := by
  simp [replay, h, hc]

/-! ### One request -/

/-- Disconnecting a plug without a source changes nothing and enters nothing. -/
theorem eq_of_disconnect {dest : Plug} (h : g.perform (.disconnect dest) = .ok ((), g'))
    (hs : g.source? dest = none) : g' = g := by
  obtain ⟨-, rfl⟩ := perform_disconnect.1 h
  simp [hs, erase_of_getElem?_eq_none hs]

/-- **A granted request** leaves the graph as it is, or it adds one entry to the journal, which
stands for the request and makes the same change again. -/
theorem perform_cases {r : Request} {reply : r.Reply} (h : g.perform r = .ok (reply, g')) :
    g' = g ∨ ∃ c : Change, c.request = r ∧ g'.journal = g.journal ++ [c] ∧
      g.replay [c] = some g' := by
  cases r with
  | createNode kind =>
      obtain ⟨rfl, hg'⟩ := perform_createNode.1 h
      refine .inr ⟨.createNode (g.freshName kind) kind, rfl, by rw [hg'], ?_⟩
      exact replay_singleton h (by simp [Change.confirms])
  | setAttribute p v =>
      obtain ⟨n, -, -, -, hg'⟩ := perform_setAttribute.1 h
      exact .inr ⟨.setAttribute p v, rfl, by rw [hg'], replay_singleton h rfl⟩
  | connect source dest force =>
      obtain ⟨-, -, -, hg'⟩ := perform_connect.1 h
      exact .inr ⟨.connect source dest force, rfl, by rw [hg'], replay_singleton h rfl⟩
  | disconnect dest =>
      -- Only a connection that was there is entered.
      cases hs : g.source? dest with
      | none => exact .inl (eq_of_disconnect h hs)
      | some source =>
          obtain ⟨-, hg'⟩ := perform_disconnect.1 h
          refine .inr ⟨.disconnect dest, rfl, ?_, replay_singleton h rfl⟩
          simp [hg', hs]
  | setLocked p locked =>
      obtain ⟨n, -, hg'⟩ := perform_setLocked.1 h
      exact .inr ⟨.setLocked p locked, rfl, by rw [hg'], replay_singleton h rfl⟩
  | createKeyframe curve key =>
      obtain ⟨n, -, hg'⟩ := perform_createKeyframe.1 h
      exact .inr ⟨.createKeyframe curve key, rfl, by rw [hg'], replay_singleton h rfl⟩
  | setExtrapolation curve pre post =>
      obtain ⟨n, -, hg'⟩ := perform_setExtrapolation.1 h
      exact .inr ⟨.setExtrapolation curve pre post, rfl, by rw [hg'], replay_singleton h rfl⟩
  | deleteNode name =>
      obtain ⟨-, hg'⟩ := perform_deleteNode.1 h
      exact .inr ⟨.deleteNode name, rfl, by rw [hg'], replay_singleton h rfl⟩
  | clearSelection =>
      have hg' := perform_clearSelection.1 h
      exact .inr ⟨.clearSelection, rfl, by rw [hg'], replay_singleton h rfl⟩
  | getAttribute p | isLocked p | listConstructs p | listIncoming p =>
      exact .inl (eq_of_asks rfl h)

/-- A refused request leaves the graph as it was, its journal included. -/
theorem respond_of_error {r : Request} {e : GraphError} (h : (host.respond g r).1 = .error e) :
    (host.respond g r).2 = g := by
  rw [host_respond] at h ⊢
  cases hr : g.perform r with
  | error e' => rfl
  | ok out => simp [hr] at h

/-- The entries that one request adds give the graph after it. -/
theorem exists_replay_respond (g : Graph) (r : Request) :
    ∃ cs, (host.respond g r).2.journal = g.journal ++ cs ∧
      g.replay cs = some (host.respond g r).2 := by
  cases hr : g.perform r with
  | error e => exact ⟨[], by simp [host_respond, hr], by simp [host_respond, hr, replay]⟩
  | ok out =>
      obtain ⟨reply, g'⟩ := out
      have hg' : (host.respond g r).2 = g' := by simp [host_respond, hr]
      rw [hg']
      obtain rfl | ⟨c, -, hjournal, hreplay⟩ := perform_cases hr
      · exact ⟨[], by simp, rfl⟩
      · exact ⟨[c], hjournal, hreplay⟩

/-! ### Any requests -/

/-- **The added entries give the graph back**, whatever the journal held before. -/
theorem replay_afterRequests (g : Graph) (rs : List Request) :
    ∃ cs, (g.afterRequests rs).journal = g.journal ++ cs ∧
      g.replay cs = some (g.afterRequests rs) := by
  induction rs generalizing g with
  | nil => exact ⟨[], by simp [afterRequests], rfl⟩
  | cons r rs ih =>
      obtain ⟨cs, hcs, hreplay⟩ := exists_replay_respond g r
      obtain ⟨ds, hds, hreplay'⟩ := ih (host.respond g r).2
      refine ⟨cs ++ ds, ?_, ?_⟩
      · rw [← List.append_assoc, ← hcs]
        exact hds
      · rw [replay_append, hreplay]
        exact hreplay'

/-- **The journal is faithful.** Let any requests be made of a graph with an empty journal, granted
or refused. Then the journal can be replayed on the graph as it was: every request of it is granted,
every node gets the recorded name, and the result is the graph as it is, with its journal. A request
that is refused at any point changes nothing and enters nothing. -/
theorem journal_faithful {g : Graph} (h : g.journal = []) (rs : List Request) :
    g.replay (g.afterRequests rs).journal = some (g.afterRequests rs) ∧
      ∀ r e, (host.respond (g.afterRequests rs) r).1 = .error e →
        (host.respond (g.afterRequests rs) r).2 = g.afterRequests rs := by
  obtain ⟨cs, hcs, hreplay⟩ := replay_afterRequests g rs
  rw [h, List.nil_append] at hcs
  refine ⟨?_, fun r e he => respond_of_error he⟩
  rw [hcs, hreplay]

/-- Requests by which a node is created twice under one name, since it is deleted in between. A
write to an unknown plug is refused, and a plug without a source is disconnected. -/
def recreation : List Request :=
  [.createNode (.primitive .clamp), .setAttribute ⟨"a", "x"⟩ (.int 1),
    .disconnect ⟨"clamp1", Clamp.input⟩, .deleteNode "clamp1", .createNode (.primitive .clamp)]

/-- Three entries are left of the five requests, and they give the graph back. -/
theorem journal_faithful_recreation :
    Graph.empty.journal = [] ∧
    (Graph.empty.afterRequests recreation).journal =
      [.createNode "clamp1" (.primitive .clamp), .deleteNode "clamp1",
        .createNode "clamp1" (.primitive .clamp)] ∧
    Graph.empty.replay [.createNode "clamp1" (.primitive .clamp), .deleteNode "clamp1",
      .createNode "clamp1" (.primitive .clamp)] = some (Graph.empty.afterRequests recreation) := by
  have hjournal : (Graph.empty.afterRequests recreation).journal =
      [.createNode "clamp1" (.primitive .clamp), .deleteNode "clamp1",
        .createNode "clamp1" (.primitive .clamp)] := by
    decide +kernel
  refine ⟨rfl, hjournal, ?_⟩
  rw [← hjournal]
  exact (journal_faithful rfl recreation).1

end Graph

end RigScript
