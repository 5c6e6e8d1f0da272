import RigScript.Proofs.Program.Parsing

/-!
# Reading with a cursor

The parsers take the tokens that are left and return the tokens that are left after them. Here the
same grammar is read by routines that move a cursor over all tokens of a script. The cursor holds a
position, which steps forward until it is at the last token and stays there, and a depth, which
counts the signs, calls and brackets that were entered and not left.

Nothing in the routines makes them come to an end. They are run on fuel, which bounds how deep their
calls go, a further round of a loop being one more call; where it is used up there is no outcome. A
routine *comes to* an outcome if it has that outcome on all fuel from some amount on, and one that
goes on for ever comes to none.

Nor does anything keep the cursor inside the tokens: a token is asked for by position, and a cursor
that is asked from behind the last token, or from deeper than nesting may go, is *lost*, as is one
that leaves a level it has not entered.

## Main definitions

* `RigScript.Cursor`: a position among the tokens and a depth of nesting
* `RigScript.Cursor.Reading`, `RigScript.Cursor.outcome`: what moves a cursor, and its outcome
* `RigScript.Cursor.Routine`, `RigScript.Cursor.ComesTo`: readings on fuel, and what they come to
* `RigScript.Cursor.expression`, `RigScript.Cursor.arguments`: the routines of expressions, one for
  each stratum, and of the arguments of a call
* `RigScript.Cursor.sentence`, `RigScript.Cursor.block`, `RigScript.Cursor.segment`: the routines of
  sentences, blocks and segments
* `RigScript.Cursor.segments`: the routine of whole scripts
* `RigScript.Cursor.Closed`: token lists whose last token, and no other, is the end of the script
-/

namespace RigScript

/-- A place among the tokens of a script, and how deep the expression read there is nested. -/
structure Cursor where
  /-- The number of tokens before it. -/
  position : Nat
  /-- The number of signs, calls and brackets around it. -/
  depth : Nat
deriving DecidableEq, Repr

namespace Cursor

/-- The cursor is at a token and not nested deeper than the limit. -/
structure Inside (tokens : List Token) (c : Cursor) : Prop where
  position_lt : c.position < tokens.length
  depth_le : c.depth ≤ maxNesting

/-- Why a reading breaks off. -/
inductive Halt where
  /-- The script does not follow the grammar. -/
  | stopped (stop : Stop)
  /-- A cursor that is not inside the tokens was asked for its token, or it left a level that it
  had not entered. -/
  | lost
deriving DecidableEq, Repr

/-- Moves a cursor over the tokens of a script, and may break off or run out of fuel. -/
abbrev Reading (α : Type) : Type :=
  StateT Cursor (ExceptT Halt Option) α

/-- The outcome of a reading from a cursor; there is none where the fuel is used up. -/
def outcome {α : Type} (run : Reading α) (c : Cursor) : Option (Except Halt (α × Cursor)) :=
  (run.run c).run

/-- A reading for every amount of fuel. -/
abbrev Routine (α : Type) : Type :=
  Nat → Reading α

/-- From the cursor, the routine **comes to** `r`: on all fuel from some amount on, this is its
outcome. -/
def ComesTo {α : Type} (run : Routine α) (c : Cursor) (r : Except Halt (α × Cursor)) : Prop :=
  ∃ bound, ∀ fuel ≥ bound, outcome (run fuel) c = some r

/-- The reading where no fuel is left. -/
def exhausted {α : Type} : Reading α :=
  fun _ => none

/-! ### Routines -/

section Routines

variable (tokens : List Token)

/-- The token at the cursor. -/
def look : Reading Token := do
  let c ← get
  match tokens[c.position]? with
  | some t => if c.depth ≤ maxNesting then return t else throw .lost
  | none => throw .lost

/-- Stops at the token at the cursor. -/
def stop {α : Type} (fault : Token → SyntaxFault) : Reading α := do
  let t ← look tokens
  throw (.stopped ⟨t.start, fault t⟩)

/-- Steps over a token. The cursor stays at the last one. -/
def bump : Reading Unit := do
  let _ ← look tokens
  modify fun c =>
    if c.position + 1 < tokens.length then { c with position := c.position + 1 } else c

/-- Steps over a mark if it is at the cursor, and tells whether it was. -/
def consume (m : Mark) : Reading Bool := do
  let t ← look tokens
  if t.kind = .mark m then
    bump tokens
    return true
  else return false

/-- Steps over a mark, which has to be at the cursor. -/
def expect (m : Mark) : Reading Unit := do
  let t ← look tokens
  if t.kind = .mark m then bump tokens else stop tokens fun t => .expected (.mark m) t.kind

/-- Goes one level deeper, unless the nesting ends here. -/
def enter : Reading Unit := do
  let c ← get
  if maxNesting ≤ c.depth then stop tokens fun _ => .nestedTooDeep
  else set { c with depth := c.depth + 1 }

/-- Goes back to the level above. -/
def leave : Reading Unit := do
  let c ← get
  match c.depth with
  | 0 => throw .lost
  | d + 1 => set { c with depth := d }

/-- Reads one level deeper. -/
def nested {α : Type} (run : Reading α) : Reading α := do
  enter tokens
  let a ← run
  leave
  return a

mutual

/-- An expression of a stratum. -/
def expression : Stratum → Routine Expr
  | _, 0 => exhausted
  | .primary, fuel + 1 => do
    let t ← look tokens
    match t.kind with
    | .number v => do
      bump tokens
      return .number v
    | .path p => do
      bump tokens
      return .path p
    | .word f => do
      bump tokens
      expect tokens .openParen
      let args ← nested tokens (arguments [] fuel)
      return .call f args
    | .mark .openParen => do
      bump tokens
      let e ← nested tokens (expression .comparison fuel)
      expect tokens .closeParen
      return .brackets e
    | _ => stop tokens fun t => .unexpectedToken t.kind
  | .unary, fuel + 1 => do
    if ← consume tokens .minus then
      let e ← nested tokens (expression .unary fuel)
      return .unary .minus e
    else if ← consume tokens .plus then
      let e ← nested tokens (expression .unary fuel)
      return .unary .plus e
    else expression .primary fuel
  | s, fuel + 1 => do
    let left ← expression s.next fuel
    chain s left fuel

/-- Extends an operand by the operators of a stratum that follow. -/
def chain (s : Stratum) (left : Expr) : Routine Expr
  | 0 => exhausted
  | fuel + 1 => do
    let t ← look tokens
    match t.kind with
    | .mark m =>
      match s.operator? m with
      | some op =>
        bump tokens
        let right ← expression s.next fuel
        chain s (.binary op left right) fuel
      | none => return left
    | _ => return left

/-- The arguments of a call up to its closing bracket, after those that were read. -/
def arguments (read : List Expr) : Routine (List Expr)
  | 0 => exhausted
  | fuel + 1 => do
    let e ← expression .comparison fuel
    if ← consume tokens .comma then arguments (read ++ [e]) fuel
    else
      expect tokens .closeParen
      return read ++ [e]

end

/-- A sentence. -/
def sentence : Routine Sentence := fun fuel => do
  let t ← look tokens
  match t.kind with
  | .path p =>
    bump tokens
    expect tokens .assign
    let value ← expression tokens .comparison fuel
    return ⟨p, value⟩
  | _ => stop tokens fun t => .expectedTarget t.kind

/-- The sentences of a block up to its closing brace, after those that were read. -/
def sentences (read : List Sentence) : Routine (List Sentence)
  | 0 => exhausted
  | fuel + 1 => do
    if ← consume tokens .closeBrace then return read
    else
      let s ← sentence tokens fuel
      if ← consume tokens .semicolon then sentences (read ++ [s]) fuel
      else
        expect tokens .closeBrace
        return read ++ [s]

/-- A block of sentences between braces. -/
def block : Routine (List Sentence) := fun fuel => do
  expect tokens .openBrace
  sentences tokens [] fuel

/-- A segment. -/
def segment : Routine Segment := fun fuel => do
  if ← consume tokens .ifWord then
    let test ← expression tokens .comparison fuel
    let thenBlock ← block tokens fuel
    expect tokens .elseWord
    let elseBlock ← block tokens fuel
    return .condition test thenBlock elseBlock
  else
    let s ← sentence tokens fuel
    expect tokens .semicolon
    return .sentence s

/-- The segments up to the end of the script, after those that were read. -/
def segments (read : List Segment) : Routine (List Segment)
  | 0 => exhausted
  | fuel + 1 => do
    let t ← look tokens
    if t.kind = .finish then return read
    else
      let s ← segment tokens fuel
      segments (read ++ [s]) fuel

end Routines

/-! ### Outcomes -/

section Outcomes

variable {α β : Type} {tokens : List Token} {c c' : Cursor} {t : Token} {m : Mark}

/-- The cursor one token further on. -/
def ahead (c : Cursor) : Cursor :=
  { c with position := c.position + 1 }

/-- The cursor one level deeper. -/
def deeper (c : Cursor) : Cursor :=
  { c with depth := c.depth + 1 }

@[simp] theorem ahead_position (c : Cursor) : c.ahead.position = c.position + 1 := rfl
@[simp] theorem ahead_depth (c : Cursor) : c.ahead.depth = c.depth := rfl
@[simp] theorem deeper_position (c : Cursor) : c.deeper.position = c.position := rfl
@[simp] theorem deeper_depth (c : Cursor) : c.deeper.depth = c.depth + 1 := rfl

/-- The cursor is inside the tokens, at a given one. -/
structure At (tokens : List Token) (c : Cursor) (t : Token) : Prop where
  token : tokens[c.position]? = some t
  depth_le : c.depth ≤ maxNesting

theorem Inside.exists_at (h : c.Inside tokens) : ∃ t, c.At tokens t := by
  have hlt := h.position_lt
  exact ⟨tokens[c.position], List.getElem?_eq_getElem hlt, h.depth_le⟩

theorem At.inside (h : c.At tokens t) : c.Inside tokens :=
  ⟨(List.getElem?_eq_some_iff.1 h.token).1, h.depth_le⟩

theorem At.drop_eq (h : c.At tokens t) :
    tokens.drop c.position = t :: tokens.drop (c.position + 1) := by
  obtain ⟨hlt, rfl⟩ := List.getElem?_eq_some_iff.1 h.token
  exact List.drop_eq_getElem_cons hlt

theorem outcome_pure (a : α) : outcome (pure a) c = some (.ok (a, c)) :=
  rfl

theorem outcome_bind_ok {run : Reading α} {f : α → Reading β} {a : α}
    (h : outcome run c = some (.ok (a, c'))) : outcome (run >>= f) c = outcome (f a) c' := by
  have h' : run c = some (.ok (a, c')) := h
  simp only [outcome, StateT.run, ExceptT.run, bind, StateT.bind, ExceptT.bind, ExceptT.mk, h',
    Option.bind_some, ExceptT.bindCont]

theorem outcome_bind_error {run : Reading α} {f : α → Reading β} {e : Halt}
    (h : outcome run c = some (.error e)) : outcome (run >>= f) c = some (.error e) := by
  have h' : run c = some (.error e) := h
  simp only [outcome, StateT.run, ExceptT.run, bind, StateT.bind, ExceptT.bind, ExceptT.mk, h',
    Option.bind_some, ExceptT.bindCont, pure]

theorem ComesTo.of_outcome {run : Reading α} {r : Except Halt (α × Cursor)}
    (h : outcome run c = some r) : ComesTo (fun _ => run) c r :=
  ⟨0, fun _ _ => h⟩

/-- A call spends one unit of fuel. -/
theorem ComesTo.of_call {run : Routine α} {r : Except Halt (α × Cursor)}
    (h : ComesTo (fun fuel => run (fuel + 1)) c r) : ComesTo run c r := by
  obtain ⟨bound, hbound⟩ := h
  refine ⟨bound + 1, fun fuel hfuel => ?_⟩
  obtain ⟨fuel, rfl⟩ : ∃ k, fuel = k + 1 := ⟨fuel - 1, by omega⟩
  exact hbound fuel (by omega)

theorem ComesTo.bind_ok {run : Routine α} {f : α → Routine β} {a : α}
    {r : Except Halt (β × Cursor)} (h : ComesTo run c (.ok (a, c'))) (hf : ComesTo (f a) c' r) :
    ComesTo (fun fuel => run fuel >>= fun a => f a fuel) c r := by
  obtain ⟨bound, hbound⟩ := h
  obtain ⟨bound', hbound'⟩ := hf
  refine ⟨max bound bound', fun fuel hfuel => ?_⟩
  rw [outcome_bind_ok (hbound fuel (Nat.max_le.1 hfuel).1)]
  exact hbound' fuel (Nat.max_le.1 hfuel).2

theorem ComesTo.bind_error {run : Routine α} {f : α → Routine β} {e : Halt}
    (h : ComesTo run c (.error e)) :
    ComesTo (fun fuel => run fuel >>= fun a => f a fuel) c (.error e) := by
  obtain ⟨bound, hbound⟩ := h
  exact ⟨bound, fun fuel hfuel => outcome_bind_error (hbound fuel hfuel)⟩

theorem outcome_look (h : c.At tokens t) : outcome (look tokens) c = some (.ok (t, c)) := by
  simp [outcome, look, h.token, h.depth_le]

theorem outcome_stop (h : c.At tokens t) (fault : Token → SyntaxFault) :
    outcome (stop tokens fault : Reading α) c = some (.error (.stopped ⟨t.start, fault t⟩)) := by
  rw [stop, outcome_bind_ok (outcome_look h)]
  rfl

/-- The end of the script is the last token and no other. -/
def Closed (tokens : List Token) : Prop :=
  ∀ (i : Nat) (t : Token), tokens[i]? = some t → (t.kind = .finish ↔ i + 1 = tokens.length)

theorem closed_of_lex {src : String} (h : Token.lex src = .ok tokens) : Closed tokens := by
  intro i t ht
  obtain ⟨w, hw, hnot⟩ := Token.kinds_of_lex h
  have hlength : tokens.length = w.length + 1 := by
    rw [← List.length_map Token.kind, hw, List.length_append, List.length_singleton]
  have hkind : (w ++ [.finish])[i]? = some t.kind := by
    rw [← hw, List.getElem?_map, ht]
    rfl
  rcases Nat.lt_trichotomy i w.length with hlt | rfl | hgt
  · rw [List.getElem?_append_left hlt] at hkind
    have hne : t.kind ≠ .finish := fun hk => hnot (hk ▸ List.mem_of_getElem? hkind)
    exact iff_of_false hne (by omega)
  · rw [List.getElem?_concat_length] at hkind
    exact iff_of_true (Option.some.inj hkind).symm hlength.symm
  · rw [List.getElem?_eq_none (by simp; omega)] at hkind
    cases hkind

theorem At.ahead_inside (hclosed : Closed tokens) (h : c.At tokens t) (hk : t.kind ≠ .finish) :
    c.ahead.Inside tokens := by
  have hlt := h.inside.position_lt
  have hlast : c.position + 1 ≠ tokens.length := fun heq => hk ((hclosed _ t h.token).2 heq)
  exact ⟨by rw [ahead_position]; omega, h.depth_le⟩

theorem outcome_bump (hclosed : Closed tokens) (h : c.At tokens t) (hk : t.kind ≠ .finish) :
    outcome (bump tokens) c = some (.ok ((), c.ahead)) := by
  have hlt : c.position + 1 < tokens.length := (h.ahead_inside hclosed hk).position_lt
  rw [bump, outcome_bind_ok (outcome_look h)]
  simp [outcome, hlt, ahead]

theorem outcome_consume_true (hclosed : Closed tokens) (h : c.At tokens t)
    (hk : t.kind = .mark m) : outcome (consume tokens m) c = some (.ok (true, c.ahead)) := by
  rw [consume, outcome_bind_ok (outcome_look h), if_pos hk,
    outcome_bind_ok (outcome_bump hclosed h (by simp [hk]))]
  rfl

theorem outcome_consume_false (h : c.At tokens t) (hk : t.kind ≠ .mark m) :
    outcome (consume tokens m) c = some (.ok (false, c)) := by
  rw [consume, outcome_bind_ok (outcome_look h), if_neg hk]
  rfl

theorem outcome_enter (h : c.depth < maxNesting) :
    outcome (enter tokens) c = some (.ok ((), c.deeper)) := by
  simp [outcome, enter, Nat.not_le.2 h, deeper]

theorem outcome_enter_of_limit (h : c.At tokens t) (hlimit : maxNesting ≤ c.depth) :
    outcome (enter tokens) c = some (.error (.stopped ⟨t.start, .nestedTooDeep⟩)) := by
  have hget : outcome (get : Reading Cursor) c = some (.ok (c, c)) := rfl
  rw [enter, outcome_bind_ok hget, if_pos hlimit, outcome_stop h]

theorem outcome_leave {d : Nat} (h : c.depth = d + 1) :
    outcome leave c = some (.ok ((), { c with depth := d })) := by
  simp [outcome, leave, h]

end Outcomes

end Cursor

end RigScript
