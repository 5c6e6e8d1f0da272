import RigScript.Proofs.Program.Parsing
import RigScript.Proofs.Token.Scanning

/-!
# Spacing tokens out

How a script is spaced does not matter. Tokens written one after the other are read back, whatever
stands between them, as long as a blank comes first: the blank ends the token before it, and what
follows the blank is skipped. So a script may be laid out anew, with its tokens one space apart, and
still reads as the same program.

## Main definitions

* `RigScript.Filler`: blanks and whole line comments
* `RigScript.Separator`: a blank and then filler
* `RigScript.Token.Placed`: a token as it is written, after what sets it apart
* `RigScript.Token.slice`: the part of a script that a token covers

## Main results

* `RigScript.Token.lexFrom_filler`: filler is skipped
* `RigScript.Token.Spells.lexFrom_append`: a spelled token is read in front of a separator
* `RigScript.Token.exists_lex_spread`: tokens that are set apart are read back
* `RigScript.Token.lex_spread`: **reading inverts writing, whatever the layout**
-/

namespace RigScript

/-! ### Filler -/

/-- **Blanks and line comments** in any order, each comment with the line feed that ends it. -/
inductive Filler : List Char → Prop
  | nil : Filler []
  | blank {c : Char} {cs : List Char} : c ∈ [' ', '\t', '\n', '\x0c', '\r'] → Filler cs →
      Filler (c :: cs)
  | comment {line cs : List Char} : '\n' ∉ line → Filler cs →
      Filler ('/' :: '/' :: line ++ '\n' :: cs)

/-- **A blank and then filler**, which sets tokens apart. -/
def Separator (cs : List Char) : Prop :=
  ∃ c rest, cs = c :: rest ∧ c ∈ [' ', '\t', '\n', '\x0c', '\r'] ∧ Filler rest

theorem Separator.filler {cs : List Char} (h : Separator cs) : Filler cs := by
  obtain ⟨c, rest, rfl, hc, hrest⟩ := h
  exact .blank hc hrest

/-- What follows a separator is set apart by it. -/
theorem Separator.separated_append {cs : List Char} (h : Separator cs) (rest : List Char) :
    Separated (cs ++ rest) := by
  obtain ⟨c, cs, rfl, hc, -⟩ := h
  intro x hx
  obtain rfl : c = x := by simpa using hx
  exact isSeparator_iff.2 hc

theorem Token.lexFrom_blank {n : Nat} {c : Char} {cs : List Char} (h : isSeparator c = true) :
    lexFrom n (c :: cs) = lexFrom (n + c.utf8Size) cs := by
  rw [lexFrom, if_pos h]

/-- A comment is skipped with its line feed. -/
theorem Token.lexFrom_comment {n : Nat} {line cs : List Char} (h : '\n' ∉ line) :
    lexFrom n ('/' :: '/' :: line ++ '\n' :: cs) =
      lexFrom (n + byteLength ('/' :: '/' :: line ++ ['\n'])) cs := by
  have hrun : ∀ c ∈ '/' :: line, (c != '\n') = true := by
    intro c hc
    rcases List.mem_cons.1 hc with rfl | hc
    · rfl
    · exact bne_iff_ne.2 fun heq => h (heq ▸ hc)
  have hrest : ∀ c ∈ ('\n' :: cs).head?, (c != '\n') = false := by
    intro c hc
    obtain rfl : '\n' = c := by simpa using hc
    rfl
  obtain ⟨htake, hdrop⟩ := span_run hrun hrest
  simp only [List.cons_append] at htake hdrop ⊢
  rw [lexFrom, if_neg (by decide), if_pos (startsComment_iff.2 ⟨_, rfl⟩), htake, hdrop,
    lexFrom_blank (by decide)]
  simp only [byteLength, byteLength_append, Nat.add_assoc, Nat.add_zero]

/-- **Filler is skipped.** -/
theorem Token.lexFrom_filler {gap : List Char} (h : Filler gap) (n : Nat) (cs : List Char) :
    lexFrom n (gap ++ cs) = lexFrom (n + byteLength gap) cs := by
  induction h generalizing n with
  | nil => rfl
  | blank hc _ ih =>
      rw [List.cons_append, lexFrom_blank (isSeparator_iff.2 hc), ih, byteLength, Nat.add_assoc]
  | @comment line gap hline _ ih =>
      have hcons : '\n' :: gap ++ cs = '\n' :: (gap ++ cs) := rfl
      rw [List.append_assoc, hcons, lexFrom_comment hline, ih, Nat.add_assoc,
        ← byteLength_append, List.append_assoc, List.singleton_append]

/-! ### Tokens in front of separators -/

/-- No token starts with a blank. -/
theorem Lexeme.read_blank {c : Char} (cs : List Char) (h : isSeparator c = true) :
    read c cs = .error (.unexpectedCharacter c) := by
  simp only [isSeparator_iff, List.mem_cons, List.not_mem_nil, or_false] at h
  rcases h with rfl | rfl | rfl | rfl | rfl <;>
    simp [read, isWordChar, startsWithPoint, Mark.read?]

/-- A slash alone is a token, even before another one. -/
theorem Lexeme.read_slash (cs : List Char) :
    read '/' cs = .ok ⟨.mark .slash, ['/'], cs⟩ := by
  simp [read, isWordChar, startsWithPoint, Mark.read?, Mark.spelling]

/-- **A spelled token is read in front of a separator.** -/
theorem Token.Spells.lexFrom_append {n : Nat} {text rest : List Char} {k : Token.Kind}
    {tokens : List Token} (h : Spells text k) (hrest : Separated rest)
    (hlex : lexFrom (n + byteLength text) rest = .ok tokens) :
    lexFrom n (text ++ rest) = .ok (⟨k, n, n + byteLength text⟩ :: tokens) := by
  obtain ⟨c, cs, rfl⟩ := List.exists_cons_of_ne_nil h.ne_nil
  have hread : Lexeme.read c (cs ++ rest) = .ok ⟨k, c :: cs, rest⟩ := h.read_append hrest rfl
  have hblank : ¬ isSeparator c = true := by
    intro hc
    rw [Lexeme.read_blank _ hc] at hread
    cases hread
  have hcomment : ¬ startsComment (c :: (cs ++ rest)) = true := by
    intro hc
    obtain ⟨line, heq⟩ := startsComment_iff.1 hc
    obtain ⟨rfl, hcs⟩ := List.cons.inj heq
    -- the first slash would be the whole token, and the second one the separator
    rw [hcs, Lexeme.read_slash] at hread
    obtain rfl : '/' :: line = rest := congrArg Lexeme.rest (Except.ok.inj hread)
    exact absurd (hrest '/' rfl) (by decide)
  rw [List.cons_append, lexFrom, if_neg hblank, if_neg hcomment]
  split
  · next hfault => rw [hread] at hfault; cases hfault
  · next l hl =>
    rw [hread] at hl
    obtain rfl := Except.ok.inj hl
    simp only [hlex]

/-- A token as it is written in a script. -/
structure Token.Placed where
  /-- What stands between the token and the one before it. -/
  gap : String
  /-- The characters of the token. -/
  text : String
  /-- What the token stands for. -/
  kind : Token.Kind

namespace Token

/-- The script with the given tokens, and what stands after the last one. -/
def spread (units : List Placed) (trail : String) : String :=
  String.join (units.map fun u => u.gap ++ u.text) ++ trail

/-- A token and what stands before it come in front of the rest of a script. -/
theorem toList_spread_cons (u : Placed) (us : List Placed) (trail : String) :
    (spread (u :: us) trail).toList =
      u.gap.toList ++ (u.text.toList ++ (spread us trail).toList) := by
  simp [spread, String.toList_join]

/-- **Tokens that are set apart are read back.** The first may stand after any filler, the others
stand after a separator, and nothing or a separator stands after the last. -/
theorem exists_lex_spread {units : List Placed} {trail : String}
    (spelled : ∀ u ∈ units, Spells u.text.toList u.kind)
    (first : ∀ u ∈ units.head?, Filler u.gap.toList)
    (others : ∀ u ∈ units.tail, Separator u.gap.toList)
    (last : trail = "" ∨ Separator trail.toList) (n : Nat) :
    ∃ tokens, lexFrom n (spread units trail).toList = .ok tokens ∧
      tokens.map Token.kind = units.map Placed.kind ++ [.finish] := by
  induction units generalizing n with
  | nil =>
      have hfill : Filler trail.toList := last.elim (fun h => h ▸ .nil) Separator.filler
      have hlex := lexFrom_filler hfill n []
      rw [List.append_nil, lexFrom] at hlex
      exact ⟨_, by simpa [spread] using hlex, rfl⟩
  | cons u us ih =>
      obtain ⟨hu, hus⟩ := List.forall_mem_cons.1 spelled
      have hrest : Separated (spread us trail).toList := by
        cases us with
        | nil =>
            rcases last with rfl | hsep
            · simp [spread, Separated]
            · simpa [spread] using hsep.separated_append []
        | cons v vs =>
            rw [toList_spread_cons]
            exact (others v List.mem_cons_self).separated_append _
      obtain ⟨tokens, hlex, hkinds⟩ := ih hus
        (fun v hv => (others v (List.mem_of_mem_head? hv)).filler)
        (fun v hv => others v (List.mem_of_mem_tail hv))
        (n + byteLength u.gap.toList + byteLength u.text.toList)
      rw [toList_spread_cons, lexFrom_filler (first u rfl), hu.lexFrom_append hrest hlex]
      exact ⟨_, rfl, congrArg (u.kind :: ·) hkinds⟩

end Token

/-! ### Slices of a script -/

/-- The first `n` bytes of a text, in the UTF-8 encoding. -/
def takeBytes : (n : Nat) → List Char → List Char
  | 0, _ => []
  | _ + 1, [] => []
  | n + 1, c :: cs => c :: takeBytes (n + 1 - c.utf8Size) cs

/-- The part of a script that a token covers. -/
def Token.slice (src : String) (t : Token) : String :=
  String.ofList (takeBytes (t.stop - t.start) (dropBytes t.start src.toList))

theorem dropBytes_append (front rest : List Char) :
    dropBytes (byteLength front) (front ++ rest) = rest := by
  induction front with
  | nil => rw [byteLength, List.nil_append, dropBytes]
  | cons c cs ih =>
      obtain ⟨n, hn⟩ := Nat.exists_eq_add_one.2 (byteLength_pos (List.cons_ne_nil c cs))
      have hsize : n + 1 - c.utf8Size = byteLength cs := by
        rw [byteLength] at hn
        omega
      rw [hn, List.cons_append, dropBytes, hsize, ih]

theorem takeBytes_append (front rest : List Char) :
    takeBytes (byteLength front) (front ++ rest) = front := by
  induction front with
  | nil => rw [byteLength, List.nil_append, takeBytes]
  | cons c cs ih =>
      obtain ⟨n, hn⟩ := Nat.exists_eq_add_one.2 (byteLength_pos (List.cons_ne_nil c cs))
      have hsize : n + 1 - c.utf8Size = byteLength cs := by
        rw [byteLength] at hn
        omega
      rw [hn, List.cons_append, takeBytes, hsize, ih]

/-- The slice of a token is what stands where the token does. -/
theorem StandsAt.slice_eq {src : String} {t : Token} {text after : List Char}
    (h : StandsAt 0 src.toList t.start text after) (hstop : t.start + byteLength text = t.stop) :
    t.slice src = String.ofList text := by
  obtain ⟨before, hsrc, hstart⟩ := h
  have hsize : t.stop - t.start = byteLength text := by omega
  rw [Nat.zero_add] at hstart
  rw [Token.slice, hsize, hsrc, ← hstart, dropBytes_append, takeBytes_append]

namespace Token

/-- The tokens of a script one space apart. -/
def spaced (src : String) : List Token → List Placed
  | [] => []
  | t :: ts => ⟨"", t.slice src, t.kind⟩ :: ts.map fun u => ⟨" ", u.slice src, u.kind⟩

theorem map_kind_spaced (src : String) (ts : List Token) :
    (spaced src ts).map Placed.kind = ts.map Token.kind := by
  cases ts <;> simp [spaced]

/-- Slices joined by spaces are the tokens one space apart. -/
theorem spread_spaced (src : String) (ts : List Token) :
    spread (spaced src ts) "" = " ".intercalate (ts.map (slice src)) := by
  rw [← String.toList_inj, String.toList_intercalate]
  cases ts with
  | nil => rfl
  | cons t ts =>
      rw [spaced, toList_spread_cons]
      induction ts generalizing t with
      | nil => simp [spread, String.join]
      | cons u ts ih =>
          have hu := ih u
          simp only [List.map_cons, List.intercalate_cons_cons] at hu ⊢
          rw [toList_spread_cons, ← hu]
          simp

/-- **A script with its tokens one space apart has the same tokens**, with a space at its end or
without one. -/
theorem exists_lex_spaced {src trail : String} {tokens : List Token} (h : lex src = .ok tokens)
    (htrail : trail ∈ ["", " "]) :
    ∃ tokens', lex (" ".intercalate (tokens.dropLast.map (slice src)) ++ trail) = .ok tokens' ∧
      tokens'.map Token.kind = tokens.map Token.kind := by
  obtain ⟨body, rfl, hlaid⟩ := laid_of_lexFrom h
  have hspace : Separator [' '] := ⟨' ', [], rfl, List.mem_cons_self, .nil⟩
  have slices : ∀ t ∈ body, Spells (t.slice src).toList t.kind := by
    intro t ht
    obtain ⟨text, after, hspells, hat, hstop⟩ := hlaid.exists_slice t ht
    rwa [hat.slice_eq hstop, String.toList_ofList]
  have spelled : ∀ u ∈ spaced src body, Spells u.text.toList u.kind := by
    cases body with
    | nil => simp [spaced]
    | cons t ts => simpa [spaced] using slices
  have first : ∀ u ∈ (spaced src body).head?, Filler u.gap.toList := by
    cases body with
    | nil => simp [spaced]
    | cons t ts => simpa [spaced] using Filler.nil
  have others : ∀ u ∈ (spaced src body).tail, Separator u.gap.toList := by
    cases body with
    | nil => simp [spaced]
    | cons t ts => simpa [spaced] using fun _ _ => hspace
  have last : trail = "" ∨ Separator trail.toList := by
    rcases List.mem_pair.1 htrail with rfl | rfl
    · exact .inl rfl
    · exact .inr hspace
  obtain ⟨tokens', hlex, hkinds⟩ := exists_lex_spread spelled first others last 0
  refine ⟨tokens', ?_, by simpa [map_kind_spaced] using hkinds⟩
  rw [List.dropLast_concat, ← spread_spaced]
  simpa [lex, spread, String.append_assoc] using hlex

end Token

/-! ### Scripts -/

/-- Scripts whose tokens are of the same kinds are read as the same program. -/
theorem Program.parse_congr {src src' : String} {tokens tokens' : List Token}
    (h : Token.lex src = .ok tokens) (h' : Token.lex src' = .ok tokens')
    (kinds : tokens'.map Token.kind = tokens.map Token.kind) (p : Program) :
    Program.parse src' = .ok p ↔ Program.parse src = .ok p := by
  simp only [Program.parse_iff_derives, h, h', Except.ok.injEq, exists_and_left, exists_eq_left',
    kinds]

/-- **Reading inverts writing, whatever the layout.** Let correctly spelled tokens be written one
after the other, the first after any blanks and comments, each of the others after a blank that may
be followed by more blanks and by comments, and after the last one nothing or again such a
separator. They are read back in order, and nothing else is. So the tokens of a script can be
written one space apart: with a space for the end of the script or without one, they are read as
before, and as the same program if as any. -/
theorem Token.lex_spread :
    (∀ (units : List Placed) (trail : String), (∀ u ∈ units, Spells u.text.toList u.kind) →
      (∀ u ∈ units.head?, Filler u.gap.toList) → (∀ u ∈ units.tail, Separator u.gap.toList) →
      (trail = "" ∨ Separator trail.toList) →
      ∃ tokens, lex (spread units trail) = .ok tokens ∧
        tokens.map Token.kind = units.map Placed.kind ++ [.finish]) ∧
    ∀ (src : String) (tokens : List Token), lex src = .ok tokens → ∀ trail ∈ ["", " "],
      ∃ tokens', lex (" ".intercalate (tokens.dropLast.map (slice src)) ++ trail) = .ok tokens' ∧
        tokens'.map Token.kind = tokens.map Token.kind ∧
        ∀ p, Program.parse (" ".intercalate (tokens.dropLast.map (slice src)) ++ trail) = .ok p ↔
          Program.parse src = .ok p := by
  refine ⟨fun units trail spelled first others last =>
    exists_lex_spread spelled first others last 0, fun src tokens h trail htrail => ?_⟩
  obtain ⟨tokens', hlex, kinds⟩ := exists_lex_spaced h htrail
  exact ⟨tokens', hlex, kinds, Program.parse_congr h hlex kinds⟩

/-- Three tokens with comments before and between them, and a script without blanks that ends with
a comment. -/
theorem Token.lex_spread_commented :
    (∃ tokens, lex "//=→\na.b[0] /\t//é/\n\x0cif\r" = .ok tokens ∧
      tokens.map Token.kind = [.path "a.b[0]", .mark .slash, .mark .ifWord, .finish]) ∧
    (∃ tokens, lex "a.x=-b.y/.5;//→" = .ok tokens) ∧
    ∀ p, Program.parse "a.x = - b.y / .5 ; " = .ok p ↔
      Program.parse "a.x=-b.y/.5;//→" = .ok p := by
  have slices : (lex "a.x=-b.y/.5;//→").toOption.map
      (·.dropLast.map (slice "a.x=-b.y/.5;//→")) =
        some ["a.x", "=", "-", "b.y", "/", ".5", ";"] := by
    decide +kernel
  refine ⟨?_, ?_⟩
  · have hpath : Spells "a.b[0]".toList (.path "a.b[0]") :=
      @Spells.path ['a'] ['[', '0', ']'] 'b' (by simp) (by simp) (by simp)
    have hfirst : Filler "//=→\n".toList := @Filler.comment ['=', '→'] [] (by decide) .nil
    have hother : Separator "\t//é/\n\x0c".toList :=
      ⟨'\t', _, rfl, by decide, @Filler.comment ['é', '/'] ['\x0c'] (by decide)
        (.blank (by decide) .nil)⟩
    have hspace : Separator " ".toList := ⟨' ', [], rfl, by decide, .nil⟩
    have hlast : Separator "\r".toList := ⟨'\r', [], rfl, by decide, .nil⟩
    refine lex_spread.1 [⟨"//=→\n", "a.b[0]", _⟩, ⟨" ", "/", _⟩, ⟨"\t//é/\n\x0c", "if", _⟩] "\r"
      ?_ ?_ ?_ (.inr hlast)
    · simpa using ⟨hpath, Spells.mark .slash, Spells.mark .ifWord⟩
    · simpa using hfirst
    · simpa using ⟨hspace, hother⟩
  · cases hlex : lex "a.x=-b.y/.5;//→" with
    | error stop => rw [hlex] at slices; cases slices
    | ok tokens =>
        rw [hlex] at slices
        obtain ⟨-, -, -, same⟩ := lex_spread.2 _ tokens hlex " " (by simp)
        rw [show tokens.dropLast.map _ = _ from Option.some.inj slices] at same
        exact ⟨⟨tokens, rfl⟩, same⟩

end RigScript
