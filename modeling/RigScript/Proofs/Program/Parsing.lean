import Mathlib.Data.List.Basic
import Mathlib.Data.Set.Subsingleton
import RigScript.Proofs.Program.Expressions

/-!
# Reading scripts

The parsers of sentences, blocks, segments and programs return exactly what the grammar derives
from their tokens, up to the limit on nesting.

## Main results

* `RigScript.Token.kinds_of_lex`: the tokens of a script end with its end, which stands nowhere
  else
* `RigScript.parse_accepts_grammar`: a text is read as a program, or as an expression, exactly if
  its tokens spell it and it is not nested too deep, and an expression is the only one with its
  spelling
-/

namespace RigScript

open RigScript.Parser

/-! ### Sentences -/

namespace Sentence

theorem targetPath_reads : targetPath.Reads fun p w => w = [.path p] := by
  intro ts p rest h
  unfold targetPath at h
  split at h
  · cases h
  · next t ts' =>
    split at h
    · next hk => cases h; exact ⟨[t], rfl, by simp [hk]⟩
    · cases h

theorem targetPath_takes (p : String) : targetPath.Takes (fun _ => True) p [.path p] := by
  intro pre rest hw _
  obtain ⟨t, rfl, hk⟩ := List.map_eq_singleton_iff.1 hw
  simp [targetPath, hk]

/-- The tokens spell a sentence whose expression is not nested too deep. -/
def Spells (s : Sentence) (w : List Token.Kind) : Prop :=
  s.Derives w ∧ s.value.nest ≤ maxNesting

theorem parser_reads : Sentence.parser.Reads Spells := by
  refine targetPath_reads.bind fun path u hu => ?_
  refine (expect_reads .assign).bind fun _ v hv => ?_
  refine Expr.parser_reads.bind fun value w ⟨hd, hn⟩ => pure_reads ⟨⟨w, hd, ?_⟩, hn⟩
  simp [hu, hv]

theorem parser_takes {s : Sentence} {w : List Token.Kind} (h : Spells s w) :
    Sentence.parser.Takes Stratum.comparison.Ends s w := by
  obtain ⟨⟨v, hv, rfl⟩, hn⟩ := h
  have : Sentence.parser.Takes Stratum.comparison.Ends s
      ([.path s.target] ++ ([.mark .assign] ++ (v ++ []))) := by
    refine (targetPath_takes s.target).bind ((expect_takes .assign).bind
      (Takes.bind (Expr.parser_takes ⟨hv, hn⟩) (pure_takes _ _) ?_) ?_) ?_
    · exact fun _ hk => hk
    · exact fun _ _ => trivial
    · exact fun _ _ => trivial
  simpa using this

/-- A sentence starts with its path. -/
theorem Derives.exists_cons {s : Sentence} {w : List Token.Kind} (h : s.Derives w) :
    ∃ v, w = .path s.target :: v := by
  obtain ⟨v, -, rfl⟩ := h
  exact ⟨_, rfl⟩

/-! ### Blocks -/

/-- The tokens spell the rest of a block after its opening brace. -/
def SpellsBody (ss : List Sentence) (w : List Token.Kind) : Prop :=
  (∃ v, DerivesAll ss v ∧ w = v ++ [.mark .closeBrace]) ∧ ∀ s ∈ ss, s.value.nest ≤ maxNesting

theorem blockFrom_reads : Reads blockFrom SpellsBody := by
  intro ts ss rest h
  fun_induction blockFrom ts generalizing ss rest with
  | case1 ts hk =>
    cases h
    cases ts with
    | nil => cases hk
    | cons t ts => exact ⟨[t], rfl, ⟨[], .nil, by simpa [peek] using hk⟩, by simp⟩
  | case2 => cases h
  | case3 => cases h
  | case4 => cases h
  | case5 ts _ s t ts' hs hk ss' last hss ih =>
    cases h
    obtain ⟨pre, rfl, hd, hn⟩ := parser_reads hs
    obtain ⟨pre', rfl, ⟨v, hv, hw⟩, hall⟩ := ih hss
    exact ⟨pre ++ t :: pre', by simp, ⟨_, .cons hd hv, by simp [hk, hw]⟩,
      List.forall_mem_cons.2 ⟨hn, hall⟩⟩
  | case6 ts _ s t ts' hs _ hk =>
    cases h
    obtain ⟨pre, rfl, hd, hn⟩ := parser_reads hs
    exact ⟨pre ++ [t], by simp, ⟨_, .last hd, by simp [hk]⟩, by simpa using hn⟩
  | case7 => cases h

theorem blockFrom_last {s : Sentence} {t : Token} {ts rest : List Token}
    (hne : peek ts ≠ .mark .closeBrace) (h : Sentence.parser ts = .ok (s, t :: rest))
    (hk : t.kind = .mark .closeBrace) : blockFrom ts = .ok ([s], rest) := by
  rw [blockFrom, if_neg hne]
  split <;> rename_i hr <;> rw [h] at hr <;> cases hr
  simp [hk]

theorem blockFrom_cons {s : Sentence} {ss : List Sentence} {t : Token} {ts mid rest : List Token}
    (hne : peek ts ≠ .mark .closeBrace) (h : Sentence.parser ts = .ok (s, t :: mid))
    (hk : t.kind = .mark .semicolon) (tail : blockFrom mid = .ok (ss, rest)) :
    blockFrom ts = .ok (s :: ss, rest) := by
  rw [blockFrom, if_neg hne]
  split <;> rename_i hr <;> rw [h] at hr <;> cases hr
  simp [hk, tail]

theorem peek_ne_closeBrace {s : Sentence} {pre rest : List Token}
    (h : s.Derives (pre.map Token.kind)) : peek (pre ++ rest) ≠ .mark .closeBrace := by
  obtain ⟨v, hv⟩ := h.exists_cons
  simp [peek_append, hv]

theorem blockFrom_takes {ss : List Sentence} {w : List Token.Kind} (h : SpellsBody ss w) :
    Takes blockFrom (fun _ => True) ss w := by
  obtain ⟨⟨v, hv, rfl⟩, hall⟩ := h
  induction hv with
  | nil =>
    intro pre rest hw _
    obtain ⟨t, rfl, hk⟩ := List.map_eq_singleton_iff.1 hw
    rw [blockFrom, if_pos (by simpa [peek] using hk)]
    rfl
  | last head =>
    intro pre rest hw _
    obtain ⟨pre₁, pre₂, rfl, rfl, h₂⟩ := List.map_eq_append_iff.1 hw
    obtain ⟨t, rfl, hk⟩ := List.map_eq_singleton_iff.1 h₂
    rw [List.append_assoc]
    refine blockFrom_last (peek_ne_closeBrace head)
      (parser_takes ⟨head, hall _ List.mem_cons_self⟩ rfl ?_) hk
    exact fun op h => by cases op <;> cases hk.symm.trans h
  | cons head _ ih =>
    intro pre rest hw _
    simp only [List.append_assoc, List.cons_append] at hw
    obtain ⟨pre₁, pre₂, rfl, rfl, h₂⟩ := List.map_eq_append_iff.1 hw
    obtain ⟨t, ts, rfl, hk, hts⟩ := List.map_eq_cons_iff.1 h₂
    obtain ⟨hn, hall⟩ := List.forall_mem_cons.1 hall
    rw [List.append_assoc]
    refine blockFrom_cons (peek_ne_closeBrace head) (parser_takes ⟨head, hn⟩ rfl ?_) hk
      (ih hall hts trivial)
    exact fun op h => by cases op <;> cases hk.symm.trans h

/-- The tokens spell a block whose expressions are not nested too deep. -/
def SpellsBlock (ss : List Sentence) (w : List Token.Kind) : Prop :=
  DerivesBlock ss w ∧ ∀ s ∈ ss, s.value.nest ≤ maxNesting

theorem block_reads : Sentence.block.Reads SpellsBlock := by
  refine (expect_reads .openBrace).bind fun _ u hu => blockFrom_reads.mono ?_
  rintro ss w ⟨⟨v, hv, rfl⟩, hn⟩
  exact ⟨⟨v, hv, by simp [hu]⟩, hn⟩

theorem block_takes {ss : List Sentence} {w : List Token.Kind} (h : SpellsBlock ss w) :
    Sentence.block.Takes (fun _ => True) ss w := by
  obtain ⟨⟨v, hv, rfl⟩, hn⟩ := h
  exact (expect_takes .openBrace).bind (f := fun _ => blockFrom)
    (blockFrom_takes ⟨⟨v, hv, rfl⟩, hn⟩) fun _ _ => trivial

end Sentence

/-! ### Segments -/

namespace Segment

/-- The tokens spell a segment whose expressions are not nested too deep. -/
def Spells (s : Segment) (w : List Token.Kind) : Prop :=
  s.Derives w ∧ ∀ e ∈ s.exprs, e.nest ≤ maxNesting

theorem conditionParser_reads :
    conditionParser.Reads fun s w => Spells s (.mark .ifWord :: w) := by
  refine Expr.parser_reads.bind fun test u ⟨ht, htn⟩ => ?_
  refine Sentence.block_reads.bind fun thenBlock v ⟨hv, hvn⟩ => ?_
  refine (expect_reads .elseWord).bind fun _ k hk => ?_
  refine Sentence.block_reads.bind fun elseBlock w ⟨hw, hwn⟩ => pure_reads ⟨?_, ?_⟩
  · simpa [hk] using Derives.condition ht hv hw
  · simp only [exprs, List.forall_mem_cons, List.forall_mem_append, List.forall_mem_map]
    exact ⟨htn, hvn, hwn⟩

theorem sentenceParser_reads : sentenceParser.Reads Spells := by
  refine Sentence.parser_reads.bind fun s u ⟨hs, hn⟩ => ?_
  refine (expect_reads .semicolon).bind fun _ v hv => pure_reads ⟨?_, by simpa [exprs] using hn⟩
  simpa [hv] using Derives.sentence hs

theorem parser_reads : Segment.parser.Reads Spells := by
  intro ts s rest h
  unfold Segment.parser at h
  split at h
  · next hk =>
    cases ts with
    | nil => cases hk
    | cons t ts =>
      obtain ⟨pre, hts, hs⟩ := conditionParser_reads h
      obtain rfl : ts = pre ++ rest := hts
      have hk : t.kind = .mark .ifWord := hk
      exact ⟨t :: pre, rfl, by simpa [hk] using hs⟩
  · exact sentenceParser_reads h

theorem conditionParser_takes {test : Expr} {thenBlock elseBlock : List Sentence}
    {u v w : List Token.Kind} (ht : Stratum.Spells maxNesting .comparison test u)
    (hv : Sentence.SpellsBlock thenBlock v) (hw : Sentence.SpellsBlock elseBlock w) :
    conditionParser.Takes (fun _ => True) (.condition test thenBlock elseBlock)
      (u ++ (v ++ ([.mark .elseWord] ++ (w ++ [])))) := by
  refine (Expr.parser_takes ht).bind ((Sentence.block_takes hv).bind
    ((expect_takes .elseWord).bind ((Sentence.block_takes hw).bind (pure_takes _ _) ?_) ?_) ?_) ?_
  · exact fun _ _ => trivial
  · exact fun _ _ => trivial
  · exact fun _ _ => trivial
  · obtain ⟨v', -, rfl⟩ := hv.1
    exact fun _ _ op h => by cases op <;> cases h

theorem sentenceParser_takes {s : Sentence} {w : List Token.Kind} (h : s.Spells w) :
    sentenceParser.Takes (fun _ => True) (.sentence s) (w ++ ([.mark .semicolon] ++ [])) := by
  refine (Sentence.parser_takes h).bind ((expect_takes .semicolon).bind (pure_takes _ _) ?_) ?_
  · exact fun _ _ => trivial
  · exact fun _ _ op h => by cases op <;> cases h

theorem parser_takes {s : Segment} {w : List Token.Kind} (h : Spells s w) :
    Segment.parser.Takes (fun _ => True) s w := by
  intro pre rest hw _
  obtain ⟨hs, hn⟩ := h
  cases hs with
  | sentence hs =>
    obtain ⟨v, hv⟩ := hs.exists_cons
    have hne : peek (pre ++ rest) ≠ .mark .ifWord := by simp [peek_append, hw, hv]
    rw [Segment.parser, if_neg hne]
    exact sentenceParser_takes ⟨hs, hn _ List.mem_cons_self⟩ (by simpa using hw) trivial
  | condition ht hv hw' =>
    simp only [exprs, List.forall_mem_cons, List.forall_mem_append, List.forall_mem_map] at hn
    obtain ⟨htn, hvn, hwn⟩ := hn
    obtain ⟨t, ts, rfl, hk, hts⟩ := List.map_eq_cons_iff.1 hw
    rw [Segment.parser, if_pos (by simpa [peek] using hk)]
    exact conditionParser_takes ⟨ht, htn⟩ ⟨hv, hvn⟩ ⟨hw', hwn⟩ (by simpa using hts) trivial

/-- A segment starts with a token other than the end of the script. -/
theorem peek_ne_finish {s : Segment} {pre rest : List Token}
    (h : s.Derives (pre.map Token.kind)) : peek (pre ++ rest) ≠ .finish := by
  rw [peek_append]
  cases hw : pre.map Token.kind with
  | nil =>
    rw [hw] at h
    generalize hnil : ([] : List Token.Kind) = w at h
    cases h <;> simp at hnil
  | cons k v =>
    rintro rfl
    exact Segment.finish_notMem_of_derives h (hw ▸ List.mem_cons_self)

/-- Segments are read up to the end of the script. -/
theorem derivesAll_of_parseAll {ts : List Token} {ss : List Segment} (h : parseAll ts = .ok ss) :
    ∃ pre rest, ts = pre ++ rest ∧ peek rest = .finish ∧ DerivesAll ss (pre.map Token.kind) ∧
      ∀ s ∈ ss, ∀ e ∈ s.exprs, e.nest ≤ maxNesting := by
  fun_induction parseAll ts generalizing ss with
  | case1 ts hk => cases h; exact ⟨[], ts, rfl, hk, .nil, by simp⟩
  | case2 => cases h
  | case3 => cases h
  | case4 ts _ s mid hs ss' hss ih =>
    cases h
    obtain ⟨pre, rfl, hd, hn⟩ := parser_reads hs
    obtain ⟨pre', rest, rfl, hk, hall, hns⟩ := ih hss
    exact ⟨pre ++ pre', rest, by simp, hk, by simpa using .cons hd hall,
      List.forall_mem_cons.2 ⟨hn, hns⟩⟩

theorem parseAll_cons {s : Segment} {ss : List Segment} {ts rest : List Token}
    (hne : peek ts ≠ .finish) (h : Segment.parser ts = .ok (s, rest))
    (tail : parseAll rest = .ok ss) : parseAll ts = .ok (s :: ss) := by
  rw [parseAll, if_neg hne]
  split <;> rename_i hr <;> rw [h] at hr <;> cases hr
  simp [tail]

theorem parseAll_of_derivesAll {ss : List Segment} {w : List Token.Kind} (h : DerivesAll ss w)
    (shallow : ∀ s ∈ ss, ∀ e ∈ s.exprs, e.nest ≤ maxNesting) {pre rest : List Token}
    (hw : pre.map Token.kind = w) (hk : peek rest = .finish) :
    parseAll (pre ++ rest) = .ok ss := by
  induction h generalizing pre with
  | nil =>
    obtain rfl := List.map_eq_nil_iff.1 hw
    rw [List.nil_append, parseAll, if_pos hk]
  | cons head _ ih =>
    obtain ⟨pre₁, pre₂, rfl, rfl, h₂⟩ := List.map_eq_append_iff.1 hw
    obtain ⟨hn, hns⟩ := List.forall_mem_cons.1 shallow
    rw [List.append_assoc]
    exact parseAll_cons (peek_ne_finish head) (parser_takes ⟨head, hn⟩ rfl trivial) (ih hns h₂)

end Segment

/-! ### The end of a script -/

theorem Lexeme.kind_ne_finish {c : Char} {cs : List Char} {l : Lexeme} (h : read c cs = .ok l) :
    l.kind ≠ .finish := by
  have word (text : List Char) : Token.Kind.ofWord text ≠ .finish := by
    unfold Token.Kind.ofWord
    split
    · simp
    · split <;> simp
  simp only [read] at h
  split at h
  case isTrue => cases h; simp
  case isFalse =>
    split at h
    case isTrue => cases h; simp
    case isFalse =>
      split at h
      case isTrue =>
        split at h
        case h_1 => cases h; simp
        case h_2 => cases h
      case isFalse =>
        split at h
        case isTrue => cases h; simp
        case isFalse =>
          split at h
          case isTrue => cases h
          case isFalse => cases h; exact word _

theorem Token.kinds_of_lexFrom {offset : Nat} {cs : List Char} {tokens : List Token}
    (h : Token.lexFrom offset cs = .ok tokens) :
    ∃ w, tokens.map Token.kind = w ++ [.finish] ∧ .finish ∉ w := by
  fun_induction Token.lexFrom offset cs generalizing tokens with
  | case1 => cases h; exact ⟨[], rfl, by simp⟩
  | case2 _ _ _ _ ih => exact ih h
  | case3 _ _ _ _ _ ih => exact ih h
  | case4 => cases h
  | case5 => cases h
  | case6 offset c cs _ _ l hl _ tokens' hts =>
    rename_i ih
    cases h
    obtain ⟨w, hw, hnot⟩ := ih hts
    exact ⟨l.kind :: w, by simp [hw], by simpa [hnot] using (Lexeme.kind_ne_finish hl).symm⟩

/-- The tokens of a script end with its end, which stands nowhere else. -/
theorem Token.kinds_of_lex {src : String} {tokens : List Token} (h : Token.lex src = .ok tokens) :
    ∃ w, tokens.map Token.kind = w ++ [.finish] ∧ .finish ∉ w :=
  Token.kinds_of_lexFrom h

/-- What is read up to the end of a script is all of it but the end. -/
theorem Token.kinds_eq_of_peek {src : String} {pre rest : List Token}
    (h : Token.lex src = .ok (pre ++ rest)) (hpre : .finish ∉ pre.map Token.kind)
    (hrest : peek rest = .finish) :
    (pre ++ rest).map Token.kind = pre.map Token.kind ++ [.finish] := by
  obtain ⟨w, hw, hnot⟩ := Token.kinds_of_lex h
  rw [List.map_append] at hw ⊢
  cases rest with
  | nil =>
    -- Nothing is left, so the end would have been read as part of the script.
    have : .finish ∈ pre.map Token.kind := by
      rw [List.map_nil, List.append_nil] at hw
      simp [hw]
    exact absurd this hpre
  | cons t ts =>
    have hk : t.kind = .finish := hrest
    rw [List.map_cons, hk] at hw ⊢
    rw [← ((List.append_cons_inj_of_notMem hnot List.not_mem_nil).1 hw.symm).2.2]

/-! ### Whole texts -/

theorem Program.parse_eq_ok_iff (src : String) (p : Program) :
    Program.parse src = .ok p ↔
      ∃ tokens, Token.lex src = .ok tokens ∧ Segment.parseAll tokens = .ok p.segments := by
  unfold Program.parse
  constructor
  · intro h
    split at h
    · cases h
    · next tokens hl =>
      split at h
      · cases h
      · next ss hs => cases h; exact ⟨tokens, hl, hs⟩
  · rintro ⟨tokens, hl, hs⟩
    simp [hl, hs]

theorem Expr.parse_eq_ok_iff (src : String) (e : Expr) :
    Expr.parse src = .ok e ↔ ∃ tokens rest, Token.lex src = .ok tokens ∧
      Expr.parser tokens = .ok (e, rest) ∧ peek rest = .finish := by
  unfold Expr.parse expectFinish
  constructor
  · intro h
    split at h
    · cases h
    · next tokens hl =>
      split at h
      · cases h
      · next e' rest he =>
        by_cases hk : peek rest = .finish
        · rw [if_pos hk] at h
          cases h
          exact ⟨tokens, rest, hl, he, hk⟩
        · rw [if_neg hk] at h
          cases h
  · rintro ⟨tokens, rest, hl, he, hk⟩
    simp [hl, he, hk]

/-- A text is read as the program that its tokens, up to the end, spell. -/
theorem Program.parse_iff_derives (src : String) (p : Program) :
    Program.parse src = .ok p ↔
      ∃ tokens w, Token.lex src = .ok tokens ∧ tokens.map Token.kind = w ++ [.finish] ∧
        p.Derives w ∧ ∀ e ∈ p.exprs, e.nest ≤ maxNesting := by
  rw [Program.parse_eq_ok_iff]
  constructor
  · rintro ⟨tokens, hl, hs⟩
    obtain ⟨pre, rest, rfl, hk, hd, hn⟩ := Segment.derivesAll_of_parseAll hs
    have hd : p.Derives (pre.map Token.kind) := hd
    have kinds := Token.kinds_eq_of_peek hl (Program.finish_notMem_of_derives hd) hk
    refine ⟨_, _, hl, kinds, hd, fun e he => ?_⟩
    obtain ⟨s, hs, he⟩ := List.mem_flatMap.1 he
    exact hn s hs e he
  · rintro ⟨tokens, w, hl, hw, hd, hn⟩
    obtain ⟨pre, rest, rfl, hpre, hrest⟩ := List.map_eq_append_iff.1 hw
    obtain ⟨t, rfl, hk⟩ := List.map_eq_singleton_iff.1 hrest
    refine ⟨_, hl, Segment.parseAll_of_derivesAll hd (fun s hs e he => ?_) hpre hk⟩
    exact hn e (List.mem_flatMap.2 ⟨s, hs, he⟩)

/-- A text is read as the expression that its tokens, up to the end, spell. -/
theorem Expr.parse_iff_derives (src : String) (e : Expr) :
    Expr.parse src = .ok e ↔
      ∃ tokens w, Token.lex src = .ok tokens ∧ tokens.map Token.kind = w ++ [.finish] ∧
        Expr.Derives .comparison e w ∧ e.nest ≤ maxNesting := by
  rw [Expr.parse_eq_ok_iff]
  constructor
  · rintro ⟨tokens, rest, hl, hp, hk⟩
    obtain ⟨pre, rfl, hd, hn⟩ := Expr.parser_reads hp
    have kinds := Token.kinds_eq_of_peek hl (Expr.finish_notMem_of_derives hd) hk
    exact ⟨_, _, hl, kinds, hd, hn⟩
  · rintro ⟨tokens, w, hl, hw, hd, hn⟩
    obtain ⟨pre, rest, rfl, hpre, hrest⟩ := List.map_eq_append_iff.1 hw
    obtain ⟨t, rfl, hk⟩ := List.map_eq_singleton_iff.1 hrest
    have finish : Stratum.comparison.Ends (peek [t]) := fun op h => nomatch hk.symm.trans h
    exact ⟨_, [t], hl, Expr.parser_takes ⟨hd, hn⟩ hpre finish, hk⟩

/-- **The parser accepts its grammar and nothing else.** A text is read as a program exactly if
its tokens, up to the end, spell that program and no expression of it nests signs, calls and
brackets more than 128 deep. The same holds of reading a text as an expression. At no depth do two
expressions of a stratum have one spelling. -/
theorem parse_accepts_grammar :
    (∀ (src : String) (p : Program), Program.parse src = .ok p ↔
      ∃ tokens w, Token.lex src = .ok tokens ∧ tokens.map Token.kind = w ++ [.finish] ∧
        p.Derives w ∧ ∀ e ∈ p.exprs, e.nest ≤ 128) ∧
    (∀ (src : String) (e : Expr), Expr.parse src = .ok e ↔
      ∃ tokens w, Token.lex src = .ok tokens ∧ tokens.map Token.kind = w ++ [.finish] ∧
        Expr.Derives .comparison e w ∧ e.nest ≤ 128) ∧
    ∀ (s : Stratum) (w : List Token.Kind), {e | Expr.Derives s e w}.Subsingleton :=
  ⟨Program.parse_iff_derives, Expr.parse_iff_derives, fun _ _ _ h _ h' => h.unique h'⟩

end RigScript
