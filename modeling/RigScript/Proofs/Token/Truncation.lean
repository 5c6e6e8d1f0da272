import RigScript.Proofs.Token.Spacing

/-!
# Cutting a script off

A script that cannot be cut into tokens is refused at one place. What stands before that place is a
script in its own right, and its tokens are those that were found before the lexer stopped: a token
ends where it does because of at most two characters after it, and if these are cut off it ends
there all the more.

## Main definitions

* `RigScript.Token.scanFrom`: the tokens found in a text, and where the lexer stopped if it did
* `RigScript.Token.scan`: the tokens found in a script

## Main results

* `RigScript.Token.lexFrom_eq_scanFrom`: the lexer succeeds with all tokens found or stops
* `RigScript.Lexeme.read_of_append`: a token is read in front of the beginning of what follows it
* `RigScript.Token.lexFrom_of_error`: the text before a fault has the tokens found before it
-/

namespace RigScript

/-! ### Tokens found -/

/-- The tokens found in a text whose first byte has the given offset, up to the end of the text or
up to the fault where the lexer stops. -/
def Token.scanFrom (offset : Nat) (cs : List Char) : List Token × Option Stop :=
  match cs with
  | [] => ([], none)
  | c :: rest =>
    if isSeparator c then scanFrom (offset + c.utf8Size) rest
    else if startsComment (c :: rest) then
      scanFrom (offset + c.utf8Size + byteLength (rest.takeWhile (· != '\n')))
        (rest.dropWhile (· != '\n'))
    else
      match _h : Lexeme.read c rest with
      | .error fault => ([], some ⟨offset, fault⟩)
      | .ok l =>
        let stop := offset + byteLength l.text
        ((⟨l.kind, offset, stop⟩ :: (scanFrom stop l.rest).1), (scanFrom stop l.rest).2)
termination_by cs.length
decreasing_by
  · simp
  · exact Nat.lt_succ_of_le (List.dropWhile_sublist _).length_le
  · exact Lexeme.length_rest_lt _h

/-- The tokens found in a script. -/
def Token.scan (src : String) : List Token :=
  (Token.scanFrom 0 src.toList).1

/-- **The lexer succeeds with all tokens found or stops.** -/
theorem Token.lexFrom_eq_scanFrom (n : Nat) (cs : List Char) :
    lexFrom n cs = match (scanFrom n cs).2 with
      | some stop => .error stop
      | none => .ok ((scanFrom n cs).1 ++ [⟨.finish, n + byteLength cs, n + byteLength cs⟩]) := by
  fun_induction scanFrom n cs with
  | case1 n => simp [lexFrom, byteLength]
  | case2 n c cs hc ih => rw [lexFrom_blank hc, ih, byteLength, Nat.add_assoc]
  | case3 n c cs hc hcomment ih =>
      have hsplit := congrArg byteLength
        (List.takeWhile_append_dropWhile (p := (· != '\n')) (l := cs))
      rw [byteLength_append] at hsplit
      rw [lexFrom, if_neg hc, if_pos hcomment, ih, byteLength, ← hsplit]
      simp only [Nat.add_assoc]
  | case4 n c cs hc hcomment fault hread =>
      rw [lexFrom, if_neg hc, if_neg hcomment]
      split <;> rename_i hr <;> rw [hread] at hr <;> cases hr
      rfl
  | case5 n c cs hc hcomment l hread stop ih =>
      rw [lexFrom, if_neg hc, if_neg hcomment]
      split <;> rename_i hr <;> rw [hread] at hr <;> cases hr
      have hsize := congrArg byteLength (Lexeme.read_eq hread)
      rw [byteLength_append] at hsize
      rw [← hsize, ← Nat.add_assoc]
      simp only [stop] at ih ⊢
      rw [ih]
      cases (scanFrom (n + byteLength l.text) l.rest).2 <;> rfl

/-! ### Tokens at the end of a text -/

/-- A run that lies within the beginning of a text is a run of that beginning. -/
theorem span_of_append {p : Char → Bool} {front rest : List Char}
    (h : ((front ++ rest).takeWhile p).length ≤ front.length) :
    front.takeWhile p = (front ++ rest).takeWhile p ∧
      front.dropWhile p ++ rest = (front ++ rest).dropWhile p := by
  induction front with
  | nil =>
      have hnil : rest.takeWhile p = [] := by simpa using h
      have hsplit := List.takeWhile_append_dropWhile (p := p) (l := rest)
      rw [hnil, List.nil_append] at hsplit
      simp [hnil, hsplit]
  | cons c front ih =>
      by_cases hc : p c = true
      · simp only [List.cons_append, List.takeWhile_cons_of_pos hc, List.dropWhile_cons_of_pos hc,
          List.length_cons, Nat.add_le_add_iff_right] at h ⊢
        obtain ⟨htake, hdrop⟩ := ih h
        exact ⟨by rw [htake], hdrop⟩
      · simp [List.takeWhile_cons_of_neg hc, List.dropWhile_cons_of_neg hc]

theorem startsWithPoint_append {p : Char → Bool} {front : List Char} (rest : List Char)
    (h : startsWithPoint p front = true) : startsWithPoint p (front ++ rest) = true := by
  obtain ⟨c, cs, rfl, hc⟩ := startsWithPoint_iff.1 h
  exact startsWithPoint_iff.2 ⟨c, cs ++ rest, rfl, hc⟩

/-- A point and the run after it that lie within the beginning of a text. -/
theorem point_of_append {p q : Char → Bool} {front rest : List Char}
    (hqp : ∀ c, q c = true → p c = true) (hpoint : startsWithPoint q (front ++ rest) = true)
    (h : ((front ++ rest).tail.takeWhile p).length < front.length) :
    startsWithPoint q front = true ∧
      front.tail.takeWhile p = (front ++ rest).tail.takeWhile p := by
  obtain ⟨c, cs, heq, hc⟩ := startsWithPoint_iff.1 hpoint
  rw [heq, List.tail_cons, List.takeWhile_cons_of_pos (hqp c hc), List.length_cons] at h
  match front with
  | x :: y :: front =>
      obtain ⟨rfl, rfl, rfl⟩ : x = '.' ∧ y = c ∧ front ++ rest = cs := by simpa using heq
      refine ⟨startsWithPoint_iff.2 ⟨y, front, rfl, hc⟩, (span_of_append ?_).1⟩
      exact Nat.le_of_lt_succ (by simpa [List.takeWhile_cons_of_pos (hqp y hc)] using h)
  | [] | [_] => simp at h

/-- A mark that lies within the beginning of a text is read there. -/
theorem Mark.read?_of_append {front rest : List Char} {m : Mark}
    (h : Mark.read? (front ++ rest) = some m) (hle : m.spelling.length ≤ front.length) :
    Mark.read? front = some m := by
  have hfront : m.spelling <+: front :=
    List.prefix_of_prefix_length_le ⟨_, Mark.spelling_append_drop h⟩ ⟨rest, rfl⟩ hle
  obtain ⟨tail, rfl⟩ := hfront
  -- only an equality sign could make another mark of this one
  have hassign : m = .assign → ∀ cs, tail ≠ '=' :: cs := by
    rintro rfl cs rfl
    simp [Mark.spelling, Mark.read?] at h
  cases m <;> simp_all [Mark.spelling, Mark.read?]

/-- **A token is read in front of the beginning of what follows it.** -/
theorem Lexeme.read_of_append {c : Char} {cs rest : List Char} {l : Lexeme}
    (h : read c (cs ++ rest) = .ok l) (hle : l.text.length ≤ (c :: cs).length) :
    ∃ after, read c cs = .ok ⟨l.kind, l.text, after⟩ := by
  simp only [read, ← List.cons_append] at h
  -- the run of word characters is part of the token
  have hspan : ((c :: cs ++ rest).takeWhile isWordChar).length ≤ (c :: cs).length →
      (c :: cs).takeWhile isWordChar = (c :: cs ++ rest).takeWhile isWordChar ∧
        (c :: cs).dropWhile isWordChar ++ rest = (c :: cs ++ rest).dropWhile isWordChar :=
    span_of_append
  have hsplit := congrArg List.length
    (List.takeWhile_append_dropWhile (p := isWordChar) (l := c :: cs))
  rw [List.length_append] at hsplit
  generalize (c :: cs ++ rest).takeWhile isWordChar = word at h hspan
  generalize (c :: cs ++ rest).dropWhile isWordChar = after at h hspan
  split at h
  case isTrue hpath =>
    cases h
    rw [List.length_append, List.length_cons] at hle
    obtain ⟨rfl, rfl⟩ := hspan (by omega)
    obtain ⟨hstart, hrun⟩ := point_of_append (p := isPathChar)
      (fun _ => isPathChar_of_isPathStart) hpath (by omega)
    simp only [read, if_pos hstart, hrun]
    exact ⟨_, rfl⟩
  case isFalse hpath =>
    split at h
    case isTrue hfraction =>
      cases h
      rw [List.length_append, List.length_cons] at hle
      obtain ⟨rfl, rfl⟩ := hspan (by omega)
      rw [Bool.and_eq_true] at hfraction
      obtain ⟨hpoint, hrun⟩ := point_of_append (p := Char.isDigit) (fun _ hc => hc) hfraction.2
        (by omega)
      have hstart := mt (startsWithPoint_append rest) hpath
      simp only [read, if_neg hstart, hfraction.1, hpoint, hrun]
      exact ⟨_, rfl⟩
    case isFalse hfraction =>
      -- with fewer characters after it, the run goes on no further
      have hrun : word.length ≤ (c :: cs).length → (c :: cs).takeWhile isWordChar = word ∧
          ¬ startsWithPoint isPathStart ((c :: cs).dropWhile isWordChar) = true ∧
          ¬ (word.all Char.isDigit &&
            startsWithPoint Char.isDigit ((c :: cs).dropWhile isWordChar)) = true := by
        intro hword
        obtain ⟨htake, rfl⟩ := hspan hword
        rw [Bool.and_eq_true] at hfraction ⊢
        exact ⟨htake, fun hp => hpath (startsWithPoint_append rest hp),
          fun hf => hfraction ⟨hf.1, startsWithPoint_append rest hf.2⟩⟩
      split at h
      case isTrue hempty =>
        split at h
        case h_1 m hm =>
          cases h
          obtain rfl := List.isEmpty_iff.1 hempty
          obtain ⟨htake, hpath, hfraction⟩ := hrun (Nat.zero_le _)
          simp only [read, htake, if_neg hpath, if_neg hfraction, Mark.read?_of_append hm hle]
          exact ⟨_, rfl⟩
        case h_2 => cases h
      case isFalse hne =>
        split at h
        case isTrue hdigits =>
          cases h
          obtain ⟨htake, hpath, hfraction⟩ := hrun hle
          simp only [read, htake, if_neg hpath, if_neg hfraction, if_neg hne, if_pos hdigits]
          exact ⟨_, rfl⟩
        case isFalse hdigits =>
          split at h
          case isTrue => cases h
          case isFalse hc =>
            cases h
            obtain ⟨htake, hpath, hfraction⟩ := hrun hle
            simp only [read, htake, if_neg hpath, if_neg hfraction, if_neg hne, if_neg hdigits,
              if_neg hc]
            exact ⟨_, rfl⟩

/-! ### The text before a fault -/

theorem startsComment_append {front : List Char} (rest : List Char)
    (h : startsComment front = true) : startsComment (front ++ rest) = true := by
  obtain ⟨line, rfl⟩ := startsComment_iff.1 h
  exact startsComment_iff.2 ⟨line ++ rest, rfl⟩

/-- A line ends where it does if what follows its line feed is cut off, or the line feed too. -/
theorem span_line {cs front rest : List Char} (h : cs.dropWhile (· != '\n') = front ++ rest) :
    (cs.takeWhile (· != '\n') ++ front).takeWhile (· != '\n') = cs.takeWhile (· != '\n') ∧
      (cs.takeWhile (· != '\n') ++ front).dropWhile (· != '\n') = front := by
  refine span_run (List.all_eq_true.1 List.all_takeWhile) fun c hc => ?_
  obtain ⟨front, rfl⟩ := List.head?_eq_some_iff.1 hc
  rcases dropWhile_line cs with hnil | ⟨tail, hline⟩
  · rw [hnil] at h
    cases h
  · rw [hline] at h
    obtain rfl : '\n' = c := (List.cons.inj h).1
    rfl

/-- **The text before a fault has the tokens found before it.** -/
theorem Token.lexFrom_of_error {n : Nat} {cs : List Char} {stop : Stop}
    (h : lexFrom n cs = .error stop) :
    ∃ front rest, cs = front ++ rest ∧ stop.offset = n + byteLength front ∧
      lexFrom n front = .ok ((scanFrom n cs).1 ++ [⟨.finish, stop.offset, stop.offset⟩]) := by
  fun_induction scanFrom n cs with
  | case1 n => simp [lexFrom] at h
  | case2 n c cs hc ih =>
      rw [lexFrom_blank hc] at h
      obtain ⟨front, rest, rfl, hoffset, hlex⟩ := ih h
      refine ⟨c :: front, rest, rfl, by rw [hoffset, byteLength, Nat.add_assoc], ?_⟩
      rw [lexFrom_blank hc, hlex]
  | case3 n c cs hc hcomment ih =>
      rw [lexFrom, if_neg hc, if_pos hcomment] at h
      obtain ⟨front, rest, hdrop, hoffset, hlex⟩ := ih h
      obtain ⟨htake, hfront⟩ := span_line hdrop
      have hcs : cs = cs.takeWhile (· != '\n') ++ (front ++ rest) := by
        rw [← hdrop, List.takeWhile_append_dropWhile]
      refine ⟨c :: (cs.takeWhile (· != '\n') ++ front), rest, by simpa using hcs, ?_, ?_⟩
      · rw [hoffset, byteLength, byteLength_append]
        omega
      · have hstarts : startsComment (c :: (cs.takeWhile (· != '\n') ++ front)) = true := by
          obtain ⟨line, heq⟩ := startsComment_iff.1 hcomment
          obtain ⟨rfl, rfl⟩ := List.cons.inj heq
          exact startsComment_iff.2 ⟨_, rfl⟩
        rw [lexFrom, if_neg hc, if_pos hstarts, htake, hfront, hlex]
  | case4 n c cs hc hcomment fault hread =>
      rw [lexFrom, if_neg hc, if_neg hcomment] at h
      split at h <;> rename_i hr <;> rw [hread] at hr <;> cases hr
      cases h
      exact ⟨[], c :: cs, rfl, rfl, by rw [lexFrom]; rfl⟩
  | case5 n c cs hc hcomment l hread start ih =>
      rw [lexFrom, if_neg hc, if_neg hcomment] at h
      split at h <;> rename_i hr <;> rw [hread] at hr <;> cases hr
      have hrest : lexFrom start l.rest = .error stop := by
        simp only at h
        split at h
        · next hlex => rw [hlex, h]
        · cases h
      obtain ⟨front, rest, hsplit, hoffset, hlex⟩ := ih hrest
      obtain ⟨x, text, htext⟩ := List.exists_cons_of_ne_nil (Lexeme.text_ne_nil hread)
      have heq := Lexeme.read_eq hread
      rw [hsplit, htext, List.cons_append, ← List.append_assoc] at heq
      obtain ⟨rfl, rfl⟩ := List.cons.inj heq
      obtain ⟨after, hread'⟩ := Lexeme.read_of_append hread (by simp [htext])
      obtain rfl : after = front := by
        have := Lexeme.read_eq hread'
        simpa [htext] using this
      refine ⟨x :: (text ++ after), rest, by simp, ?_, ?_⟩
      · rw [hoffset, ← List.cons_append, ← htext, byteLength_append, Nat.add_assoc]
      · have hstarts : ¬ startsComment (x :: (text ++ after)) = true := fun hs =>
          hcomment (startsComment_append rest hs)
        rw [lexFrom, if_neg hc, if_neg hstarts]
        split <;> rename_i hr <;> rw [hread'] at hr <;> cases hr
        simp only [start] at hlex
        simp only [hlex]
        rfl

end RigScript
