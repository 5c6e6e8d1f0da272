import RigScript.Proofs.Program.Stopping
import RigScript.Proofs.Token.Truncation

/-!
# Where scripts are refused

The error of a script that is refused points at a character of the script, or at its end, and
carries what stands from there on. If the script cannot be cut into tokens, what stands before that
character can be, into the tokens that were found. If it can, the error points at a token. The
tokens before that one start a program, and with it they start none, unless an expression nests too
deep.

## Main results

* `RigScript.syntaxError_points_at_bytes`: a syntax error points at a character and carries the rest
* `RigScript.Program.parse_stops_at_first_impossible`: a script is refused at the first token that
  no program goes on with
-/

namespace RigScript

open RigScript.Parser

/-! ### Where tokens start -/

/-- What the lexer returns is what it has found and the end of the script. -/
theorem Token.lex_eq_scan {src : String} {tokens : List Token} (h : Token.lex src = .ok tokens) :
    tokens = Token.scan src ++ [⟨.finish, src.utf8ByteSize, src.utf8ByteSize⟩] := by
  rw [Token.lex, lexFrom_eq_scanFrom, Nat.zero_add, byteLength_toList] at h
  split at h
  · cases h
  · exact (Except.ok.inj h).symm

/-- A token starts at a character of the script, and its end starts where the script ends. -/
theorem Token.exists_before {src : String} {tokens : List Token} (h : Token.lex src = .ok tokens)
    {t : Token} (ht : t ∈ tokens) : ∃ front rest, src.toList = front ++ rest ∧
      t.start = byteLength front ∧ (t.kind = .finish → rest = []) := by
  obtain ⟨body, rfl, hlaid⟩ := laid_of_lexFrom h
  rcases List.mem_append.1 ht with ht | ht
  · obtain ⟨text, after, hspells, ⟨front, hsrc, hstart⟩, -⟩ := hlaid.exists_slice t ht
    rw [Nat.zero_add] at hstart
    exact ⟨front, text ++ after, hsrc, hstart.symm, fun hk => absurd hk hspells.kind_ne_finish⟩
  · obtain rfl := List.mem_singleton.1 ht
    exact ⟨src.toList, [], (List.append_nil _).symm, Nat.zero_add _, fun _ => rfl⟩

/-- Tokens start one after the other. -/
theorem Token.starts_pairwise {src : String} {tokens : List Token}
    (h : Token.lex src = .ok tokens) : tokens.Pairwise fun t u => t.start < u.start := by
  obtain ⟨body, rfl, hlaid⟩ := laid_of_lexFrom h
  have hslice : ∀ t ∈ body, t.start < t.stop ∧ t.stop ≤ byteLength src.toList := by
    intro t ht
    obtain ⟨text, after, hspells, ⟨front, hsrc, hstart⟩, hstop⟩ := hlaid.exists_slice t ht
    have hpos := byteLength_pos hspells.ne_nil
    rw [hsrc, byteLength_append, byteLength_append]
    omega
  refine List.pairwise_append.2 ⟨hlaid.pairwise.imp_of_mem fun ht _ hle => ?_,
    List.pairwise_singleton _ _, fun t ht u hu => ?_⟩
  · exact (hslice _ ht).1.trans_le hle
  · obtain ⟨hlt, hle⟩ := hslice t ht
    rw [List.mem_singleton.1 hu, Nat.zero_add]
    exact hlt.trans_le hle

/-! ### Where the parsers of whole texts stop -/

/-- The lexer has stopped, or the parser at one of the tokens. -/
def Stop.Arises (src : String) (stop : Stop) : Prop :=
  Token.lex src = .error stop ∨
    ∃ tokens, Token.lex src = .ok tokens ∧ ∃ t ∈ tokens, stop.offset = t.start

theorem Parser.StopsAt.exists_mem {stop : Stop} {ts : List Token}
    {P : List Token.Kind → Token.Kind → Prop} (h : StopsAt stop ts P) :
    ∃ t ∈ ts, stop.offset = t.start := by
  obtain ⟨pre, t, post, rfl, hoffset, -⟩ := h
  exact ⟨t, by simp, hoffset⟩

theorem Token.finish_mem_of_lex {src : String} {tokens : List Token}
    (h : Token.lex src = .ok tokens) : .finish ∈ tokens.map Token.kind := by
  obtain ⟨w, hw, -⟩ := Token.kinds_of_lex h
  simp [hw]

theorem Program.parse_eq_error {src : String} {e : SyntaxError}
    (h : Program.parse src = .error e) : ∃ stop, e = stop.toError src ∧
      (Token.lex src = .error stop ∨
        ∃ tokens, Token.lex src = .ok tokens ∧ Segment.parseAll tokens = .error stop) := by
  unfold Program.parse at h
  split at h
  · next stop hlex =>
    cases h
    exact ⟨stop, rfl, .inl hlex⟩
  · next tokens hlex =>
    split at h
    · next stop hstop =>
      cases h
      exact ⟨stop, rfl, .inr ⟨tokens, hlex, hstop⟩⟩
    · cases h

theorem Program.stop_arises {src : String} {e : SyntaxError} (h : Program.parse src = .error e) :
    ∃ stop, e = Stop.toError src stop ∧ stop.Arises src := by
  obtain ⟨stop, rfl, hlex | ⟨tokens, hlex, hstop⟩⟩ := Program.parse_eq_error h
  · exact ⟨stop, rfl, .inl hlex⟩
  · have hstops := Segment.parseAll_stops hstop (Token.finish_mem_of_lex hlex)
    exact ⟨stop, rfl, .inr ⟨tokens, hlex, hstops.exists_mem⟩⟩

theorem Expr.stop_arises {src : String} {e : SyntaxError} (h : Expr.parse src = .error e) :
    ∃ stop, e = Stop.toError src stop ∧ stop.Arises src := by
  unfold Expr.parse at h
  split at h
  · next stop hlex =>
    cases h
    exact ⟨stop, rfl, .inl hlex⟩
  · next tokens hlex =>
    have hfinish := Token.finish_mem_of_lex hlex
    split at h
    · next stop hstop =>
      cases h
      exact ⟨stop, rfl, .inr ⟨tokens, hlex, (Expr.parser_stops hstop hfinish).exists_mem⟩⟩
    · next value rest hvalue =>
      -- the expression is followed by a token that is not the end of the script
      obtain ⟨pre, rfl, -, hrest⟩ := Expr.parser_passes.exists_append hvalue hfinish
      cases rest with
      | nil => cases hrest
      | cons t rest =>
          split at h
          · next stop hstop =>
            cases h
            unfold expectFinish at hstop
            split at hstop
            · cases hstop
            · cases hstop
              exact ⟨_, rfl, .inr ⟨_, hlex, t, by simp, rfl⟩⟩
          · cases h

/-- A text can be cut after the characters that it starts with. -/
theorem isBoundary_append (front rest : List Char) :
    isBoundary (byteLength front) (front ++ rest) = true := by
  induction front with
  | nil => rw [byteLength, List.nil_append, isBoundary]
  | cons c cs ih =>
      obtain ⟨n, hn⟩ := Nat.exists_eq_add_one.2 (byteLength_pos (List.cons_ne_nil c cs))
      have hsize : c.utf8Size ≤ n + 1 ∧ n + 1 - c.utf8Size = byteLength cs := by
        rw [byteLength] at hn
        omega
      rw [hn, List.cons_append, isBoundary, decide_eq_true hsize.1, hsize.2, ih, Bool.and_self]

/-- The error of a stop after `front` points there and carries the rest. -/
theorem Stop.toError_eq {src : String} {stop : Stop} {front rest : List Char}
    (hsrc : src.toList = front ++ rest) (hoffset : stop.offset = byteLength front) :
    stop.toError src = ⟨stop.offset, stop.fault, String.ofList rest⟩ := by
  have hle : stop.offset ≤ src.utf8ByteSize := by
    rw [← byteLength_toList, hsrc, byteLength_append, hoffset]
    exact Nat.le_add_right _ _
  rw [Stop.toError, Nat.min_eq_left hle, hoffset, hsrc, isBoundary_append, dropBytes_append,
    if_pos rfl]

/-- The error of a stop after `front` splits the script there. -/
theorem Stop.toError_splits {src : String} {stop : Stop} {front rest : List Char}
    (hsrc : src.toList = front ++ rest) (hoffset : stop.offset = byteLength front) :
    src = String.ofList front ++ (stop.toError src).remainder ∧
      (String.ofList front).utf8ByteSize = stop.offset := by
  constructor
  · rw [Stop.toError_eq hsrc hoffset, ← String.ofList_append, ← hsrc, String.ofList_toList]
  · rw [utf8ByteSize_ofList, hoffset]

/-- What stands before a stop has the tokens found before it, and one of the tokens of a script
that has any starts at the stop. -/
theorem Stop.Arises.exists_before {src : String} {stop : Stop} (h : stop.Arises src) :
    ∃ before : String, src = before ++ (stop.toError src).remainder ∧
      before.utf8ByteSize = stop.offset ∧
      (∀ stop', Token.lex src = .error stop' →
        Token.lex before = .ok (Token.scan src ++ [⟨.finish, stop.offset, stop.offset⟩])) ∧
      ∀ tokens, Token.lex src = .ok tokens →
        ∃ t ∈ tokens, t.start = stop.offset ∧ (t.kind = .finish → t.start = src.utf8ByteSize) := by
  rcases h with hlex | ⟨tokens, hlex, t, ht, hoffset⟩
  · obtain ⟨front, rest, hsrc, hoffset, hfront⟩ := Token.lexFrom_of_error hlex
    rw [Nat.zero_add] at hoffset
    obtain ⟨hsplit, hsize⟩ := Stop.toError_splits hsrc hoffset
    refine ⟨String.ofList front, hsplit, hsize, fun _ _ => ?_, fun tokens htokens => ?_⟩
    · rw [Token.lex, String.toList_ofList]
      exact hfront
    · rw [hlex] at htokens
      cases htokens
  · obtain ⟨front, rest, hsrc, hstart, hend⟩ := Token.exists_before hlex ht
    obtain ⟨hsplit, hsize⟩ := Stop.toError_splits hsrc (hoffset.trans hstart)
    refine ⟨String.ofList front, hsplit, hsize, fun stop' hstop' => ?_, fun tokens' htokens' => ?_⟩
    · rw [hlex] at hstop'
      cases hstop'
    · rw [hlex] at htokens'
      cases htokens'
      refine ⟨t, ht, hoffset.symm, fun hk => ?_⟩
      rw [hend hk, List.append_nil] at hsrc
      rw [hstart, ← hsrc, byteLength_toList]

/-- **The error of a script points where matching stopped**: no stop lies past the end of its
script. -/
theorem Stop.Arises.offset_eq {src : String} {stop : Stop} (h : stop.Arises src) :
    (stop.toError src).offset = stop.offset := by
  obtain ⟨before, hsrc, hsize, -⟩ := h.exists_before
  have hle := congrArg String.utf8ByteSize hsrc
  rw [String.utf8ByteSize_append, hsize] at hle
  exact Nat.min_eq_left (hle ▸ Nat.le_add_right _ _)

theorem Segment.offset_eq_of_parseAll {src : String} {tokens : List Token} {stop : Stop}
    (hlex : Token.lex src = .ok tokens) (hstop : Segment.parseAll tokens = .error stop) :
    (stop.toError src).offset = stop.offset :=
  have hstops := Segment.parseAll_stops hstop (Token.finish_mem_of_lex hlex)
  Stop.Arises.offset_eq (.inr ⟨tokens, hlex, hstops.exists_mem⟩)

/-! ### Refused scripts -/

/-- **Syntax errors point at the right bytes.** The offset lies in the script, at a character or at
the end, and the remainder is what stands from there on. If the script cannot be cut into tokens,
what stands before the offset can be, and its tokens are those that were found. If it can, a token
starts at the offset, and the end of the script only if the offset is its length. -/
theorem syntaxError_points_at_bytes {src : String} {e : SyntaxError}
    (h : Program.parse src = .error e ∨ Expr.parse src = .error e) :
    e.offset ≤ src.utf8ByteSize ∧ String.Pos.Raw.IsValid src ⟨e.offset⟩ ∧
      ∃ before : String, src = before ++ e.remainder ∧ before.utf8ByteSize = e.offset ∧
        (∀ stop, Token.lex src = .error stop →
          Token.lex before = .ok (Token.scan src ++ [⟨.finish, e.offset, e.offset⟩])) ∧
        ∀ tokens, Token.lex src = .ok tokens →
          tokens = Token.scan src ++ [⟨.finish, src.utf8ByteSize, src.utf8ByteSize⟩] ∧
          ∃ t ∈ tokens, t.start = e.offset ∧ (t.kind = .finish → t.start = src.utf8ByteSize) := by
  obtain ⟨stop, rfl, harises⟩ := h.elim Program.stop_arises Expr.stop_arises
  obtain ⟨before, hsrc, hsize, hscan, htoken⟩ := harises.exists_before
  refine ⟨Nat.min_le_right _ _, ?_⟩
  rw [harises.offset_eq]
  refine ⟨?_, before, hsrc, hsize, hscan, fun tokens htokens => ?_⟩
  · refine String.Pos.Raw.isValid_iff_exists_append.2 ⟨before, _, hsrc, ?_⟩
    rw [String.rawEndPos, hsize]
  · exact ⟨Token.lex_eq_scan htokens, htoken tokens htokens⟩

/-- Comments with characters of several bytes stand before a character that starts no token and
before a token that should be a bracket. -/
theorem syntaxError_points_at_bytes_after_comments :
    (Program.parse "// →\na.b = (é;" = .error ⟨14, .unexpectedCharacter 'é', "é;"⟩ ∧
      ∃ before : String, "// →\na.b = (é;" = before ++ "é;" ∧ before.utf8ByteSize = 14 ∧
        Token.lex before = .ok (Token.scan "// →\na.b = (é;" ++ [⟨.finish, 14, 14⟩])) ∧
    Expr.parse "max // →\n + a.b" =
        .error ⟨12, .expected (.mark .openParen) (.mark .plus), "+ a.b"⟩ ∧
      ∃ tokens, Token.lex "max // →\n + a.b" = .ok tokens ∧ ∃ t ∈ tokens, t.start = 12 := by
  have hstop : Token.lex "// →\na.b = (é;" = .error ⟨14, .unexpectedCharacter 'é'⟩ := by
    decide +kernel
  have hrefused : Program.parse "// →\na.b = (é;" =
      .error ⟨14, .unexpectedCharacter 'é', "é;"⟩ := by
    decide +kernel
  have hlex : Token.lex "max // →\n + a.b" = .ok [⟨.word "max", 0, 3⟩, ⟨.mark .plus, 12, 13⟩,
      ⟨.path "a.b", 14, 17⟩, ⟨.finish, 17, 17⟩] := by
    decide +kernel
  have hrefused' : Expr.parse "max // →\n + a.b" =
      .error ⟨12, .expected (.mark .openParen) (.mark .plus), "+ a.b"⟩ := by
    decide +kernel
  obtain ⟨-, -, before, hsplit, hsize, hfront, -⟩ := syntaxError_points_at_bytes (.inl hrefused)
  obtain ⟨-, -, -, -, -, -, htokens⟩ := syntaxError_points_at_bytes (.inr hrefused')
  obtain ⟨-, t, ht, hstart, -⟩ := htokens _ hlex
  exact ⟨⟨hrefused, before, hsplit, hsize, hfront _ hstop⟩, hrefused', _, hlex, t, ht, hstart⟩

/-- **A script is refused at the first token that no program goes on with**, unless an expression
of it nests too deep. One token starts at the offset of the error. Those before it start the
spelling of a program, nested as deep as may be. With it they start no such spelling, the end of the
script included. -/
theorem Program.parse_stops_at_first_impossible {src : String} {tokens : List Token}
    {e : SyntaxError} (hlex : Token.lex src = .ok tokens) (herr : Program.parse src = .error e)
    (hfault : e.fault ≠ .nestedTooDeep) :
    ∃ k, (∀ j, tokens[j]?.map Token.start = some e.offset ↔ j = k) ∧
      (∃ p w, Program.Derives p w ∧ (tokens.take k).map Token.kind <+: w) ∧
      ∀ p w, Program.Derives p w → ¬ (tokens.take (k + 1)).map Token.kind <+: w ++ [.finish] := by
  obtain ⟨stop, rfl, hstop | ⟨tokens', hlex', hstop⟩⟩ := Program.parse_eq_error herr
  · rw [hlex] at hstop
    cases hstop
  rw [hlex] at hlex'
  cases hlex'
  obtain ⟨pre, t, post, rfl, hoffset, hbreaks⟩ :=
    Segment.parseAll_stops hstop (Token.finish_mem_of_lex hlex)
  have hbreaks := hbreaks hfault
  refine ⟨pre.length, fun j => ?_, ?_, fun p w hw => ?_⟩
  · have hnodup : ((pre ++ t :: post).map Token.start).Nodup :=
      List.pairwise_map.2 ((Token.starts_pairwise hlex).imp Nat.ne_of_lt)
    have ht : ((pre ++ t :: post).map Token.start)[pre.length]? = some stop.offset := by
      simp [hoffset]
    rw [← List.getElem?_map, Segment.offset_eq_of_parseAll hlex hstop]
    refine ⟨fun hj => ?_, fun hj => hj ▸ ht⟩
    exact ((List.getElem?_inj (by simp) hnodup).1 (ht.trans hj.symm)).symm
  · obtain ⟨ss, v, hss⟩ := hbreaks.exists_derivesAll
    exact ⟨⟨ss⟩, _, hss, by simp⟩
  · rw [List.take_length_add_append, List.map_append]
    exact hbreaks.not_starts hw

/-- A bracket in an argument is not closed: up to the semicolon the tokens start a program. -/
theorem Program.parse_stops_at_first_impossible_bracket :
    ∃ tokens e, Token.lex "a.c = max(2, -(a.b;" = .ok tokens ∧
      Program.parse "a.c = max(2, -(a.b;" = .error e ∧ e.offset = 18 ∧ e.fault ≠ .nestedTooDeep ∧
      (∃ p w, Program.Derives p w ∧ (tokens.take 9).map Token.kind <+: w) ∧
      ∀ p w, Program.Derives p w → ¬ (tokens.take 10).map Token.kind <+: w ++ [.finish] := by
  have hrefused : Program.parse "a.c = max(2, -(a.b;" =
      .error ⟨18, .expected (.mark .closeParen) (.mark .semicolon), ";"⟩ := by
    decide +kernel
  have hstart : (Token.lex "a.c = max(2, -(a.b;").toOption.bind
      (fun tokens => tokens[9]?.map Token.start) = some 18 := by
    decide +kernel
  cases hlex : Token.lex "a.c = max(2, -(a.b;" with
  | error stop => rw [hlex] at hstart; cases hstart
  | ok tokens =>
      rw [hlex] at hstart
      obtain ⟨k, hk, hviable, himpossible⟩ :=
        Program.parse_stops_at_first_impossible hlex hrefused (by simp)
      obtain rfl : 9 = k := (hk 9).1 hstart
      exact ⟨tokens, _, rfl, hrefused, rfl, by simp, hviable, himpossible⟩

end RigScript
