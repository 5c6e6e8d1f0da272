import Mathlib.Data.Nat.Digits.Defs
import RigScript.Token.Lexer

/-!
# What tokens cover

The tokens of a script are slices of it. A slice determines its token: the spellings of paths,
numbers, words and marks have no member in common, and a slice read on its own gives the token
again. Between the slices there are only blanks and line comments, so no byte of a script is lost.

`Token.Spells` says which texts spell a token, without saying how one is found. `Token.Laid` says
how a text is laid out: tokens, blanks and comments one after the other, each beginning where the
last one ended. The lexer lays out every text that it accepts, and the rest is read off the layout.

## Main definitions

* `RigScript.Token.Spells`: the texts that spell a token
* `RigScript.Token.Laid`: a text laid out as tokens, blanks and comments
* `RigScript.StandsAt`: where a slice of a text stands

## Main results

* `RigScript.Lexeme.spells`: what is read as a token spells it
* `RigScript.Token.Spells.read_append`: a text that spells a token is read as that token
* `RigScript.Token.Spells.unique`: a text spells at most one token
* `RigScript.Token.laid_of_lexFrom`: the lexer lays out the text
* `RigScript.Token.Laid.accounted`: every byte belongs to a token, a blank or a comment
* `RigScript.Token.lex_covers`: **no byte of a script is lost or misread**
-/

namespace RigScript

/-! ### Spellings -/

/-- The double nearest to a decimal fraction: all its digits as a number, divided by a power of
ten. -/
def Token.decimal (whole fraction : List Char) : Float :=
  Float.ofScientific
    (Nat.ofDigits 10 ((whole ++ fraction).reverse.map fun d => d.toNat - '0'.toNat)) true
    fraction.length

/-- **The text spells a token.** -/
inductive Token.Spells : List Char → Token.Kind → Prop
  /-- Letters, digits and underscores, a point, a letter or underscore, and then letters, digits,
  underscores, brackets and points. -/
  | path {node attr : List Char} {c : Char} : (∀ x ∈ node, x.isAlphanum ∨ x = '_') →
      c.isAlpha ∨ c = '_' → (∀ x ∈ attr, x.isAlphanum ∨ x ∈ ['_', '[', ']', '.']) →
      Spells (node ++ '.' :: c :: attr) (.path (String.ofList (node ++ '.' :: c :: attr)))
  /-- Digits. -/
  | whole {digits : List Char} : digits ≠ [] → (∀ d ∈ digits, d.isDigit) →
      Spells digits (.number (decimal digits []))
  /-- Digits, a point and digits, of which the first may be missing. -/
  | fraction {whole fraction : List Char} : (∀ d ∈ whole, d.isDigit) → fraction ≠ [] →
      (∀ d ∈ fraction, d.isDigit) →
      Spells (whole ++ '.' :: fraction) (.number (decimal whole fraction))
  /-- A letter or underscore, and then letters, digits and underscores, save the keywords. -/
  | word {c : Char} {rest : List Char} : c.isAlpha ∨ c = '_' →
      (∀ x ∈ rest, x.isAlphanum ∨ x = '_') → c :: rest ≠ ['i', 'f'] →
      c :: rest ≠ ['e', 'l', 's', 'e'] → Spells (c :: rest) (.word (String.ofList (c :: rest)))
  /-- The characters of a mark. -/
  | mark (m : Mark) : Spells m.spelling (.mark m)

/-- A word is a keyword or a name. -/
theorem Token.Spells.ofWord {c : Char} {rest : List Char} (hc : c.isAlpha ∨ c = '_')
    (hrest : ∀ x ∈ rest, x.isAlphanum ∨ x = '_') : Spells (c :: rest) (.ofWord (c :: rest)) := by
  unfold Token.Kind.ofWord
  split
  case isTrue h => rw [h]; exact .mark .ifWord
  case isFalse hif =>
    split
    case isTrue h => rw [h]; exact .mark .elseWord
    case isFalse helse => exact .word hc hrest hif helse

theorem isWordChar_iff {c : Char} : isWordChar c = true ↔ c.isAlphanum ∨ c = '_' := by
  simp [isWordChar]

theorem isPathStart_iff {c : Char} : isPathStart c = true ↔ c.isAlpha ∨ c = '_' := by
  simp [isPathStart]

theorem isPathChar_iff {c : Char} :
    isPathChar c = true ↔ c.isAlphanum ∨ c ∈ ['_', '[', ']', '.'] := by
  simp [isPathChar, isWordChar, or_assoc]

/-- A letter or underscore may stand anywhere in a word. -/
theorem isWordChar_of_isPathStart {c : Char} (h : isPathStart c = true) : isWordChar c = true := by
  rw [isPathStart_iff] at h
  rw [isWordChar_iff, Char.isAlphanum, Bool.or_eq_true]
  tauto

theorem isPathChar_of_isPathStart {c : Char} (h : isPathStart c = true) : isPathChar c = true := by
  simp only [isPathChar, isWordChar_of_isPathStart h, Bool.true_or]

theorem isWordChar_of_isDigit {c : Char} (h : c.isDigit = true) : isWordChar c = true := by
  rw [isWordChar_iff, Char.isAlphanum, h, Bool.or_true]
  exact .inl rfl

/-- A digit is no letter and no underscore. -/
theorem isPathStart_of_isDigit {c : Char} (h : c.isDigit = true) : isPathStart c = false := by
  simp only [Char.isDigit, Bool.and_eq_true, decide_eq_true_eq, UInt32.le_iff_toNat_le,
    ge_iff_le] at h
  have h9 : '9'.val.toNat = 57 := rfl
  have hA : 'A'.val.toNat = 65 := rfl
  rw [Bool.eq_false_iff, ne_eq, isPathStart_iff]
  rintro (hc | rfl)
  · have hc : (decide (c.val ≥ 'A'.val ∧ c.val ≤ 'Z'.val) ||
        (decide (c.val ≥ 'a'.val) && decide (c.val ≤ 'z'.val))) = true := hc
    simp only [Bool.or_eq_true, Bool.and_eq_true, decide_eq_true_eq, UInt32.le_iff_toNat_le,
      ge_iff_le] at hc
    have ha : 'a'.val.toNat = 97 := rfl
    omega
  · exact absurd h.2 (by decide)

theorem floatOfDigits_eq (whole fraction : List Char) :
    floatOfDigits whole fraction = Token.decimal whole fraction := by
  have hdigits : ∀ ds : List Char, natOfDigits ds =
      Nat.ofDigits 10 (ds.reverse.map fun d => d.toNat - '0'.toNat) := by
    intro ds
    rw [natOfDigits, Nat.ofDigits_eq_foldr, List.foldr_map, List.foldr_reverse]
    simp [Nat.add_comm]
  rw [floatOfDigits, Token.decimal, hdigits]

/-- A point and a character of a class stand at the front of a text. -/
theorem startsWithPoint_iff {p : Char → Bool} {cs : List Char} :
    startsWithPoint p cs = true ↔ ∃ c rest, cs = '.' :: c :: rest ∧ p c = true := by
  unfold startsWithPoint
  split
  · next c rest => simp
  · next h =>
    simp only [Bool.false_eq_true, false_iff, not_exists, not_and]
    rintro c rest rfl
    exact absurd rfl (h c rest)

/-! ### Reading and spelling -/

/-- **What is read as a token spells it.** -/
theorem Lexeme.spells {c : Char} {cs : List Char} {l : Lexeme} (h : read c cs = .ok l) :
    Token.Spells l.text l.kind := by
  have hword : ∀ x ∈ (c :: cs).takeWhile isWordChar, isWordChar x = true :=
    List.all_eq_true.1 List.all_takeWhile
  simp only [read] at h
  split at h
  case isTrue hp =>
    cases h
    obtain ⟨x, rest, hafter, hx⟩ := startsWithPoint_iff.1 hp
    simp only [hafter, List.tail_cons,
      List.takeWhile_cons_of_pos (isPathChar_of_isPathStart hx)]
    exact .path (fun y hy => isWordChar_iff.1 (hword y hy)) (isPathStart_iff.1 hx)
      fun y hy => isPathChar_iff.1 (List.all_eq_true.1 List.all_takeWhile y hy)
  case isFalse =>
    split at h
    case isTrue hd =>
      cases h
      rw [Bool.and_eq_true, List.all_eq_true] at hd
      obtain ⟨x, rest, hafter, hx⟩ := startsWithPoint_iff.1 hd.2
      simp only [hafter, List.tail_cons, floatOfDigits_eq]
      refine .fraction hd.1 ?_ (List.all_eq_true.1 List.all_takeWhile)
      rw [List.takeWhile_cons_of_pos hx]
      exact List.cons_ne_nil _ _
    case isFalse =>
      split at h
      case isTrue =>
        split at h
        case h_1 m hm => cases h; exact .mark m
        case h_2 => cases h
      case isFalse hne =>
        rw [List.isEmpty_iff] at hne
        split at h
        case isTrue hd =>
          cases h
          rw [floatOfDigits_eq]
          exact .whole hne (List.all_eq_true.1 hd)
        case isFalse =>
          split at h
          case isTrue => cases h
          case isFalse hc =>
            cases h
            -- the run is not empty, so the first character of the text is its first character
            have hcw : isWordChar c = true := by
              by_contra hcw
              exact hne (List.takeWhile_cons_of_neg hcw)
            have hstart : c.isAlpha ∨ c = '_' := by
              rw [isWordChar_iff, Char.isAlphanum, Bool.eq_false_iff.2 hc, Bool.or_false] at hcw
              exact hcw
            rw [List.takeWhile_cons_of_pos hcw] at hword ⊢
            exact .ofWord hstart fun x hx => isWordChar_iff.1 (hword x (List.mem_cons_of_mem c hx))

theorem isSeparator_iff {c : Char} :
    isSeparator c = true ↔ c ∈ [' ', '\t', '\n', '\x0c', '\r'] := by
  simp [isSeparator, or_assoc]

/-- No token goes on with a separator. -/
theorem not_isPathChar_of_isSeparator {c : Char} (h : isSeparator c = true) :
    isPathChar c = false ∧ c ≠ '=' := by
  simp only [isSeparator_iff, List.mem_cons, List.not_mem_nil, or_false] at h
  rcases h with rfl | rfl | rfl | rfl | rfl <;> decide

/-- The text is empty or a separator stands at its front. -/
def Separated (cs : List Char) : Prop :=
  ∀ c ∈ cs.head?, isSeparator c = true

/-- A run of characters of a class ends before a character outside it. -/
theorem span_run {p : Char → Bool} {run rest : List Char} (hrun : ∀ c ∈ run, p c = true)
    (hrest : ∀ c ∈ rest.head?, p c = false) :
    (run ++ rest).takeWhile p = run ∧ (run ++ rest).dropWhile p = rest := by
  rw [List.takeWhile_append_of_pos hrun, List.dropWhile_append_of_pos hrun]
  cases rest with
  | nil => simp
  | cons c rest => simp [hrest c rfl]

/-- The run of word characters before a point. -/
theorem span_point {run : List Char} (rest : List Char) (hrun : ∀ c ∈ run, isWordChar c = true) :
    (run ++ '.' :: rest).takeWhile isWordChar = run ∧
      (run ++ '.' :: rest).dropWhile isWordChar = '.' :: rest :=
  span_run hrun fun _ hc => Option.mem_some_iff.1 hc ▸ rfl

theorem Separated.span {p : Char → Bool} {run rest : List Char} (h : Separated rest)
    (hp : ∀ c, isPathChar c = false → p c = false) (hrun : ∀ c ∈ run, p c = true) :
    (run ++ rest).takeWhile p = run ∧ (run ++ rest).dropWhile p = rest :=
  span_run hrun fun c hc => hp c (not_isPathChar_of_isSeparator (h c hc)).1

theorem Separated.startsWithPoint {p : Char → Bool} {cs : List Char} (h : Separated cs) :
    startsWithPoint p cs = false := by
  rw [Bool.eq_false_iff, ne_eq, startsWithPoint_iff]
  rintro ⟨c, rest, rfl, -⟩
  exact absurd (h '.' rfl) (by decide)

/-- Characters that are in no path are in no word. -/
theorem isWordChar_of_not_isPathChar (c : Char) (h : isPathChar c = false) :
    isWordChar c = false := by
  simp only [isPathChar, Bool.or_eq_false_iff] at h
  exact h.1.1.1

theorem isDigit_of_not_isPathChar (c : Char) (h : isPathChar c = false) : c.isDigit = false := by
  by_contra hd
  rw [Bool.not_eq_false] at hd
  exact absurd (isWordChar_of_isDigit hd) (by rw [isWordChar_of_not_isPathChar c h]; simp)

/-- A word before a separator is read as a keyword or a name. -/
theorem Lexeme.read_word {c : Char} {cs rest : List Char} (hc : isPathStart c = true)
    (hcs : ∀ x ∈ cs, isWordChar x = true) (hrest : Separated rest) :
    read c (cs ++ rest) = .ok ⟨.ofWord (c :: cs), c :: cs, rest⟩ := by
  have hdigit : c.isDigit = false := by
    by_contra hd
    rw [Bool.not_eq_false] at hd
    exact absurd hc (by rw [isPathStart_of_isDigit hd]; simp)
  obtain ⟨htake, hdrop⟩ := hrest.span isWordChar_of_not_isPathChar
    (List.forall_mem_cons.2 ⟨isWordChar_of_isPathStart hc, hcs⟩)
  rw [List.cons_append] at htake hdrop
  simp [read, htake, hdrop, hrest.startsWithPoint, hdigit]

/-- No word and no point stands at the front of a punctuation mark. -/
theorem Mark.span_spelling {m : Mark} (hif : m ≠ .ifWord) (helse : m ≠ .elseWord)
    (rest : List Char) :
    (m.spelling ++ rest).takeWhile isWordChar = [] ∧
      (m.spelling ++ rest).dropWhile isWordChar = m.spelling ++ rest ∧
      ∀ p, startsWithPoint p (m.spelling ++ rest) = false := by
  cases m <;> simp_all [Mark.spelling, isWordChar, startsWithPoint]

/-- A punctuation mark is read before a separator. -/
theorem Mark.read?_spelling_append {m : Mark} {rest : List Char} (hif : m ≠ .ifWord)
    (helse : m ≠ .elseWord) (hrest : Separated rest) :
    Mark.read? (m.spelling ++ rest) = some m := by
  -- a mark that is a part of another one goes on with an equality sign
  have heq : ∀ cs, rest ≠ '=' :: cs := by
    rintro cs rfl
    exact (not_isPathChar_of_isSeparator (hrest '=' rfl)).2 rfl
  cases m <;> simp_all [Mark.spelling, Mark.read?]

/-- **A text that spells a token is read as that token before a separator.** -/
theorem Token.Spells.read_append {text rest cs : List Char} {c : Char} {k : Token.Kind}
    (h : Spells text k) (hrest : Separated rest) (heq : text ++ rest = c :: cs) :
    Lexeme.read c cs = .ok ⟨k, text, rest⟩ := by
  cases h with
  | @path node attr x hnode hx hattr =>
      obtain ⟨htake, hdrop⟩ := span_point (x :: attr ++ rest) fun y hy =>
        isWordChar_iff.2 (hnode y hy)
      rw [show node ++ '.' :: (x :: attr ++ rest) = c :: cs by simpa using heq] at htake hdrop
      have hpath : ∀ y ∈ x :: attr, isPathChar y = true :=
        List.forall_mem_cons.2 ⟨isPathChar_of_isPathStart (isPathStart_iff.2 hx),
          fun y hy => isPathChar_iff.2 (hattr y hy)⟩
      obtain ⟨hattrs, hafter⟩ := hrest.span (fun _ hy => hy) hpath
      simp only [Lexeme.read, htake, hdrop, List.tail_cons, hattrs, hafter]
      exact if_pos (startsWithPoint_iff.2 ⟨x, attr ++ rest, rfl, isPathStart_iff.2 hx⟩)
  | whole hne hdigits =>
      obtain ⟨htake, hdrop⟩ := hrest.span isWordChar_of_not_isPathChar
        fun y hy => isWordChar_of_isDigit (hdigits y hy)
      rw [heq] at htake hdrop
      simp only [Lexeme.read, htake, hdrop, hrest.startsWithPoint, List.all_eq_true.2 hdigits,
        List.isEmpty_iff, hne, floatOfDigits_eq]
      simp
  | @fraction whole fraction hwhole hne hfraction =>
      obtain ⟨htake, hdrop⟩ := span_point (fraction ++ rest) fun y hy =>
        isWordChar_of_isDigit (hwhole y hy)
      rw [show whole ++ '.' :: (fraction ++ rest) = c :: cs by simpa using heq] at htake hdrop
      obtain ⟨hdigits, hafter⟩ := hrest.span isDigit_of_not_isPathChar hfraction
      obtain ⟨d, ds, rfl⟩ := List.exists_cons_of_ne_nil hne
      have hd : d.isDigit = true := hfraction d List.mem_cons_self
      simp only [Lexeme.read, htake, hdrop, List.tail_cons, hdigits, hafter, floatOfDigits_eq]
      simp [startsWithPoint, isPathStart_of_isDigit hd, hd, List.all_eq_true.2 hwhole]
  | @word x xs hx hxs hif helse =>
      rw [List.cons_append] at heq
      obtain ⟨rfl, rfl⟩ := List.cons.inj heq
      rw [Lexeme.read_word (isPathStart_iff.2 hx) (fun y hy => isWordChar_iff.2 (hxs y hy)) hrest,
        Kind.ofWord]
      rw [if_neg (show _ ≠ Mark.ifWord.spelling from hif),
        if_neg (show _ ≠ Mark.elseWord.spelling from helse)]
  | mark m =>
      by_cases hkey : m = .ifWord ∨ m = .elseWord
      · rcases hkey with rfl | rfl
        all_goals
          obtain ⟨rfl, rfl⟩ := List.cons.inj heq
          exact Lexeme.read_word rfl (List.all_eq_true.1 rfl) hrest
      · rw [not_or] at hkey
        obtain ⟨htake, hdrop, hpoint⟩ := Mark.span_spelling hkey.1 hkey.2 rest
        have hread := Mark.read?_spelling_append hkey.1 hkey.2 hrest
        rw [heq] at htake hdrop hpoint hread
        have hafter : (c :: cs).drop m.spelling.length = rest := by rw [← heq, List.drop_left]
        simp only [Lexeme.read, htake, hdrop, hpoint, hread, hafter]
        simp

theorem Token.Spells.ne_nil {text : List Char} {k : Token.Kind} (h : Spells text k) :
    text ≠ [] := by
  cases h with
  | path | fraction | word => simp
  | whole hne => exact hne
  | mark m => exact m.spelling_ne_nil

theorem Token.Spells.kind_ne_finish {text : List Char} {k : Token.Kind} (h : Spells text k) :
    k ≠ .finish := by
  cases h <;> simp

/-- **A text spells at most one token.** -/
theorem Token.Spells.unique {text : List Char} {k k' : Token.Kind} (h : Spells text k)
    (h' : Spells text k') : k = k' := by
  obtain ⟨c, cs, rfl⟩ := List.exists_cons_of_ne_nil h.ne_nil
  have hnil : Separated [] := by simp [Separated]
  have hread := h.read_append hnil (List.append_nil _)
  rw [h'.read_append hnil (List.append_nil _)] at hread
  exact (congrArg Lexeme.kind (Except.ok.inj hread)).symm

/-! ### Layout -/

/-- **A text whose first byte has the given offset is laid out as tokens**, with blanks and line
comments between them. -/
inductive Token.Laid : Nat → List Char → List Token → Prop
  | nil (n : Nat) : Laid n [] []
  /-- A blank, then the rest of the text. -/
  | blank {n : Nat} {c : Char} {cs : List Char} {ts : List Token} :
      c ∈ [' ', '\t', '\n', '\x0c', '\r'] → Laid (n + byteLength [c]) cs ts → Laid n (c :: cs) ts
  /-- A comment up to the end of its line or of the text, then the rest of the text. -/
  | comment {n : Nat} {line cs : List Char} {ts : List Token} : '\n' ∉ line →
      (cs = [] ∨ ∃ rest, cs = '\n' :: rest) → Laid (n + byteLength ('/' :: '/' :: line)) cs ts →
      Laid n ('/' :: '/' :: line ++ cs) ts
  /-- A token, then the rest of the text. -/
  | token {n : Nat} {text cs : List Char} {k : Token.Kind} {ts : List Token} : Spells text k →
      Laid (n + byteLength text) cs ts →
      Laid n (text ++ cs) (⟨k, n, n + byteLength text⟩ :: ts)

@[simp]
theorem byteLength_append (as bs : List Char) :
    byteLength (as ++ bs) = byteLength as + byteLength bs := by
  induction as with
  | nil => simp [byteLength]
  | cons a as ih => simp only [List.cons_append, byteLength, ih, Nat.add_assoc]

theorem byteLength_pos {cs : List Char} (h : cs ≠ []) : 0 < byteLength cs := by
  obtain ⟨c, cs, rfl⟩ := List.exists_cons_of_ne_nil h
  have hc := c.utf8Size_pos
  rw [byteLength]
  omega

/-- A string takes as many bytes as its characters. -/
theorem utf8ByteSize_ofList (cs : List Char) : (String.ofList cs).utf8ByteSize = byteLength cs := by
  induction cs with
  | nil => rfl
  | cons c cs ih =>
      rw [byteLength, ← ih, ← List.singleton_append, String.ofList_append,
        String.utf8ByteSize_append]
      simp

theorem byteLength_toList (s : String) : byteLength s.toList = s.utf8ByteSize := by
  rw [← utf8ByteSize_ofList, String.ofList_toList]

theorem startsComment_iff {cs : List Char} :
    startsComment cs = true ↔ ∃ rest, cs = '/' :: '/' :: rest := by
  unfold startsComment
  split
  · next rest => simp
  · next h =>
    simp only [Bool.false_eq_true, false_iff, not_exists]
    rintro rest rfl
    exact absurd rfl (h rest)

/-- After its line a text is at its end or at a line feed. -/
theorem dropWhile_line (cs : List Char) :
    cs.dropWhile (· != '\n') = [] ∨ ∃ rest, cs.dropWhile (· != '\n') = '\n' :: rest := by
  induction cs with
  | nil => exact .inl rfl
  | cons c cs ih =>
      by_cases hc : c = '\n'
      · exact .inr ⟨cs, by rw [hc]; rfl⟩
      · have hdrop : (c :: cs).dropWhile (· != '\n') = cs.dropWhile (· != '\n') :=
          List.dropWhile_cons_of_pos (bne_iff_ne.2 hc)
        rwa [hdrop]

/-- **The lexer lays out the text**, and ends it with a token that covers no byte. -/
theorem Token.laid_of_lexFrom {n : Nat} {cs : List Char} {ts : List Token}
    (h : lexFrom n cs = .ok ts) :
    ∃ body, ts = body ++ [⟨.finish, n + byteLength cs, n + byteLength cs⟩] ∧ Laid n cs body := by
  fun_induction lexFrom n cs generalizing ts with
  | case1 n => exact ⟨[], by simpa [byteLength] using h.symm, .nil n⟩
  | case2 n c cs hc ih =>
      obtain ⟨body, rfl, hlaid⟩ := ih h
      refine ⟨body, by simp [byteLength, Nat.add_assoc], .blank (isSeparator_iff.1 hc) ?_⟩
      simpa [byteLength] using hlaid
  | case3 n c cs _ hc ih =>
      obtain ⟨rest, heq⟩ := startsComment_iff.1 hc
      obtain ⟨rfl, rfl⟩ := List.cons.inj heq
      obtain ⟨body, rfl, hlaid⟩ := ih h
      have hsplit : '/' :: '/' :: rest =
          '/' :: '/' :: rest.takeWhile (· != '\n') ++ rest.dropWhile (· != '\n') := by
        rw [List.cons_append, List.cons_append, List.takeWhile_append_dropWhile]
      have htake : ('/' :: rest).takeWhile (· != '\n') = '/' :: rest.takeWhile (· != '\n') := rfl
      have hdrop : ('/' :: rest).dropWhile (· != '\n') = rest.dropWhile (· != '\n') := rfl
      rw [htake, hdrop, Nat.add_assoc] at hlaid
      rw [htake, hdrop, hsplit]
      refine ⟨body, ?_, .comment ?_ (dropWhile_line rest) hlaid⟩
      · simp only [byteLength_append, byteLength, Nat.add_assoc]
      · intro hmem
        exact absurd (List.all_eq_true.1 List.all_takeWhile _ hmem) (by decide)
  | case4 | case5 => cases h
  | case6 n c cs _ _ l hread stop tokens hrest =>
      rename_i ih
      obtain ⟨body, rfl, hlaid⟩ := ih hrest
      rw [← Lexeme.read_eq hread, ← Except.ok.inj h]
      refine ⟨⟨l.kind, n, stop⟩ :: body, ?_, .token (Lexeme.spells hread) hlaid⟩
      rw [byteLength_append, ← Nat.add_assoc]
      rfl

/-! ### Slices -/

/-- **The slice stands at an offset of the text**, whose first byte has the offset `n`, and the
text goes on with `after`. -/
def StandsAt (n : Nat) (cs : List Char) (start : Nat) (slice after : List Char) : Prop :=
  ∃ before, cs = before ++ (slice ++ after) ∧ n + byteLength before = start

namespace StandsAt

variable {n start : Nat} {cs slice after : List Char}

/-- The slice at the front of a text. -/
theorem front (n : Nat) (slice after : List Char) : StandsAt n (slice ++ after) n slice after :=
  ⟨[], rfl, rfl⟩

/-- Where a slice stands does not depend on the texts in front of the one it was found in. -/
theorem prepend (front : List Char) (h : StandsAt (n + byteLength front) cs start slice after) :
    StandsAt n (front ++ cs) start slice after := by
  obtain ⟨before, rfl, rfl⟩ := h
  exact ⟨front ++ before, by simp, by rw [byteLength_append, Nat.add_assoc]⟩

theorem le_start (h : StandsAt n cs start slice after) : n ≤ start := by
  obtain ⟨before, -, rfl⟩ := h
  exact Nat.le_add_right n _

/-- A slice of a script, with the strings around it. -/
theorem exists_string {src : String} (h : StandsAt 0 src.toList start slice after) :
    ∃ before : String, src = before ++ String.ofList slice ++ String.ofList after ∧
      before.utf8ByteSize = start := by
  obtain ⟨before, heq, hstart⟩ := h
  refine ⟨String.ofList before, ?_, ?_⟩
  · rw [← String.ofList_append, ← String.ofList_append, List.append_assoc, ← heq,
      String.ofList_toList]
  · rw [utf8ByteSize_ofList, ← hstart, Nat.zero_add]

end StandsAt

/-- The byte at the offset `i` is a blank. -/
def BlankAt (n : Nat) (cs : List Char) (i : Nat) : Prop :=
  ∃ c after, c ∈ [' ', '\t', '\n', '\x0c', '\r'] ∧ StandsAt n cs i [c] after

/-- The byte at the offset `i` belongs to a comment, which meets none of the tokens and goes to the
end of its line or of the text. -/
def CommentAt (n : Nat) (cs : List Char) (ts : List Token) (i : Nat) : Prop :=
  ∃ start line after, StandsAt n cs start ('/' :: '/' :: line) after ∧ '\n' ∉ line ∧
    (after = [] ∨ ∃ rest, after = '\n' :: rest) ∧ start ≤ i ∧
    i < start + byteLength ('/' :: '/' :: line) ∧
    ∀ t ∈ ts, t.stop ≤ start ∨ start + byteLength ('/' :: '/' :: line) ≤ t.start

namespace Token.Laid

variable {n : Nat} {cs : List Char} {ts : List Token}

theorem le_start (h : Laid n cs ts) : ∀ t ∈ ts, n ≤ t.start := by
  induction h with
  | nil => simp
  | blank _ _ ih | comment _ _ _ ih => exact fun t ht => Nat.le_of_add_right_le (ih t ht)
  | token _ _ ih =>
      rintro t (_ | ⟨_, ht⟩)
      · exact le_rfl
      · exact Nat.le_of_add_right_le (ih t ht)

/-- Every token ends before the next one starts. -/
theorem pairwise (h : Laid n cs ts) : ts.Pairwise fun t u => t.stop ≤ u.start := by
  induction h with
  | nil => exact .nil
  | blank _ _ ih | comment _ _ _ ih => exact ih
  | token _ hrest ih => exact .cons hrest.le_start ih

/-- **A token covers a slice that spells it.** -/
theorem exists_slice (h : Laid n cs ts) : ∀ t ∈ ts, ∃ text after, Spells text t.kind ∧
    StandsAt n cs t.start text after ∧ t.start + byteLength text = t.stop := by
  induction h with
  | nil => simp
  | @blank n c cs ts _ _ ih =>
      intro t ht
      obtain ⟨text, after, hspells, hat, hstop⟩ := ih t ht
      exact ⟨text, after, hspells, hat.prepend [c], hstop⟩
  | @comment n line cs ts _ _ _ ih =>
      intro t ht
      obtain ⟨text, after, hspells, hat, hstop⟩ := ih t ht
      exact ⟨text, after, hspells, hat.prepend ('/' :: '/' :: line), hstop⟩
  | @token n text cs k ts hspells _ ih =>
      rintro t (_ | ⟨_, ht⟩)
      · exact ⟨text, cs, hspells, .front n text cs, rfl⟩
      · obtain ⟨text', after, hspells', hat, hstop⟩ := ih t ht
        exact ⟨text', after, hspells', hat.prepend text, hstop⟩

end Token.Laid

/-- The byte at the offset `i` belongs to a token, a blank or a comment. -/
def Accounted (n : Nat) (cs : List Char) (ts : List Token) (i : Nat) : Prop :=
  (∃ t ∈ ts, t.start ≤ i ∧ i < t.stop) ∨ BlankAt n cs i ∨ CommentAt n cs ts i

theorem Accounted.prepend {n i : Nat} {cs : List Char} {ts : List Token} (front : List Char)
    (h : Accounted (n + byteLength front) cs ts i) : Accounted n (front ++ cs) ts i := by
  rcases h with htoken | ⟨c, after, hc, hat⟩ | ⟨start, line, after, hat, hcomment⟩
  · exact .inl htoken
  · exact .inr (.inl ⟨c, after, hc, hat.prepend front⟩)
  · exact .inr (.inr ⟨start, line, after, hat.prepend front, hcomment⟩)

/-- A token in front of a text meets none of its comments. -/
theorem Accounted.cons {n i : Nat} {cs : List Char} {ts : List Token} {t : Token}
    (h : Accounted n cs ts i) (ht : t.stop ≤ n) : Accounted n cs (t :: ts) i := by
  rcases h with ⟨u, hu, hspan⟩ | hblank | ⟨start, line, after, hat, hline, hend, hle, hlt, hmeets⟩
  · exact .inl ⟨u, List.mem_cons_of_mem t hu, hspan⟩
  · exact .inr (.inl hblank)
  · exact .inr (.inr ⟨start, line, after, hat, hline, hend, hle, hlt,
      List.forall_mem_cons.2 ⟨.inl (ht.trans hat.le_start), hmeets⟩⟩)

theorem byteLength_blank {c : Char} (h : c ∈ [' ', '\t', '\n', '\x0c', '\r']) :
    byteLength [c] = 1 := by
  simp only [List.mem_cons, List.not_mem_nil, or_false] at h
  rcases h with rfl | rfl | rfl | rfl | rfl <;> rfl

/-- **Every byte belongs to a token, a blank or a comment.** -/
theorem Token.Laid.accounted {n : Nat} {cs : List Char} {ts : List Token} (h : Laid n cs ts)
    {i : Nat} (hle : n ≤ i) (hlt : i < n + byteLength cs) : Accounted n cs ts i := by
  induction h with
  | nil => exact absurd hlt (Nat.not_lt.2 hle)
  | @blank n c cs ts hc _ ih =>
      have hone := byteLength_blank hc
      rw [← List.singleton_append] at hlt ⊢
      rw [byteLength_append, ← Nat.add_assoc] at hlt
      by_cases hi : i = n
      · exact .inr (.inl ⟨c, cs, hc, hi ▸ .front n [c] cs⟩)
      · exact (ih (by omega) hlt).prepend [c]
  | @comment n line cs ts hline hend hrest ih =>
      rw [byteLength_append, ← Nat.add_assoc] at hlt
      by_cases hi : i < n + byteLength ('/' :: '/' :: line)
      · exact .inr (.inr ⟨n, line, cs, .front n _ cs, hline, hend, hle, hi,
          fun t ht => .inr (hrest.le_start t ht)⟩)
      · exact (ih (Nat.not_lt.1 hi) hlt).prepend _
  | @token n text cs k ts _ hrest ih =>
      rw [byteLength_append, ← Nat.add_assoc] at hlt
      by_cases hi : i < n + byteLength text
      · exact .inl ⟨_, List.mem_cons_self, hle, hi⟩
      · exact ((ih (Nat.not_lt.1 hi) hlt).cons le_rfl).prepend text

/-! ### Scripts -/

/-- **No byte of a script is lost or misread.** The last token is the end of the script, and no
other one is. The tokens before it cover slices that are not empty, one after the other, and a slice
spells its token and no other. A byte outside the slices is a blank, or it belongs to a comment that
starts with two slashes, goes to the end of its line or of the script and meets no slice. -/
theorem Token.lex_covers {src : String} {tokens : List Token} (h : Token.lex src = .ok tokens) :
    ∃ body, tokens = body ++ [⟨.finish, src.utf8ByteSize, src.utf8ByteSize⟩] ∧
      (∀ t ∈ body, t.kind ≠ .finish ∧ t.start < t.stop ∧
        ∃ before slice after : String, src = before ++ slice ++ after ∧
          before.utf8ByteSize = t.start ∧ (before ++ slice).utf8ByteSize = t.stop ∧
          ∀ k, Spells slice.toList k ↔ k = t.kind) ∧
      body.Pairwise (fun t u => t.stop ≤ u.start) ∧
      ∀ i < src.utf8ByteSize, (∃ t ∈ body, t.start ≤ i ∧ i < t.stop) ∨
        (∃ (before : String) (c : Char) (after : String),
          src = before ++ String.singleton c ++ after ∧ before.utf8ByteSize = i ∧
          c ∈ [' ', '\t', '\n', '\x0c', '\r']) ∨
        ∃ before comment after : String, src = before ++ comment ++ after ∧
          before.utf8ByteSize ≤ i ∧ i < (before ++ comment).utf8ByteSize ∧
          (∃ line, comment.toList = '/' :: '/' :: line ∧ '\n' ∉ line) ∧
          (after = "" ∨ ∃ rest, after.toList = '\n' :: rest) ∧
          ∀ t ∈ body, t.stop ≤ before.utf8ByteSize ∨
            (before ++ comment).utf8ByteSize ≤ t.start := by
  obtain ⟨body, rfl, hlaid⟩ := laid_of_lexFrom h
  rw [Nat.zero_add, byteLength_toList]
  refine ⟨body, rfl, fun t ht => ?_, hlaid.pairwise, fun i hi => ?_⟩
  · obtain ⟨text, after, hspells, hat, hstop⟩ := hlaid.exists_slice t ht
    have hpos := byteLength_pos hspells.ne_nil
    obtain ⟨before, hsrc, hstart⟩ := hat.exists_string
    refine ⟨hspells.kind_ne_finish, by omega, before, String.ofList text, String.ofList after, hsrc,
      hstart, ?_, fun k => ?_⟩
    · rw [String.utf8ByteSize_append, utf8ByteSize_ofList, hstart, hstop]
    · rw [String.toList_ofList]
      exact ⟨fun hk => hk.unique hspells, fun hk => hk ▸ hspells⟩
  · rw [← byteLength_toList, ← Nat.zero_add (byteLength _)] at hi
    rcases hlaid.accounted (Nat.zero_le i) hi with htoken | ⟨c, after, hc, hat⟩ |
      ⟨start, line, after, hat, hline, hend, hle, hlt, hmeets⟩
    · exact .inl htoken
    · obtain ⟨before, hsrc, hstart⟩ := hat.exists_string
      exact .inr (.inl ⟨before, c, String.ofList after, hsrc, hstart, hc⟩)
    · obtain ⟨before, hsrc, rfl⟩ := hat.exists_string
      have hsize : (before ++ String.ofList ('/' :: '/' :: line)).utf8ByteSize =
          before.utf8ByteSize + byteLength ('/' :: '/' :: line) := by
        rw [String.utf8ByteSize_append, utf8ByteSize_ofList]
      refine .inr (.inr ⟨before, _, String.ofList after, hsrc, hle, hsize ▸ hlt,
        ⟨line, String.toList_ofList, hline⟩, ?_, hsize ▸ hmeets⟩)
      rcases hend with rfl | ⟨rest, rfl⟩
      · exact .inl rfl
      · exact .inr ⟨rest, String.toList_ofList⟩

/-- A script with a comment between its lines and one at its end, which holds characters of several
bytes. -/
theorem Token.lex_covers_commented :
    ∃ tokens, Token.lex "a_1.tx[0] = .5 // =\n\t- max(1.b) //→é" = .ok tokens ∧
      tokens.map (fun t => (t.start, t.stop)) =
        [(0, 9), (10, 11), (12, 14), (21, 22), (23, 26), (26, 27), (27, 30), (30, 31), (39, 39)] ∧
      ∃ body, tokens = body ++ [⟨.finish, 39, 39⟩] ∧
        body.Pairwise (fun t u => t.stop ≤ u.start) ∧
        ∀ t ∈ body, ∃ before slice after : String,
          "a_1.tx[0] = .5 // =\n\t- max(1.b) //→é" = before ++ slice ++ after ∧
            before.utf8ByteSize = t.start ∧ (before ++ slice).utf8ByteSize = t.stop ∧
            ∀ k, Spells slice.toList k ↔ k = t.kind := by
  have hspans : (Token.lex "a_1.tx[0] = .5 // =\n\t- max(1.b) //→é").toOption.map
      (·.map fun t => (t.start, t.stop)) = some [(0, 9), (10, 11), (12, 14), (21, 22), (23, 26),
        (26, 27), (27, 30), (30, 31), (39, 39)] := by
    decide +kernel
  cases hlex : Token.lex "a_1.tx[0] = .5 // =\n\t- max(1.b) //→é" with
  | error stop => rw [hlex] at hspans; cases hspans
  | ok tokens =>
      rw [hlex] at hspans
      obtain ⟨body, htokens, hslices, hordered, -⟩ := Token.lex_covers hlex
      refine ⟨tokens, rfl, Option.some.inj hspans, body, htokens, hordered, fun t ht => ?_⟩
      exact (hslices t ht).2.2

end RigScript
