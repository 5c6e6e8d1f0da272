import RigScript.SyntaxError

/-!
# Reading tokens

A script is cut into tokens from left to right. Blanks and line comments separate tokens and are
skipped. At any other character the longest run of word characters decides: followed by a point
and a letter it starts a path, made of digits it starts a number, otherwise it is a keyword or a
word; without such a run a mark has to stand there.

## Main definitions

* `RigScript.Lexeme`: one token's kind, the characters that spell it, and those after it
* `RigScript.Lexeme.read`: the token at the front of a text
* `RigScript.Token.lex`: the tokens of a script

## Main results

* `RigScript.Lexeme.read_eq`: the characters of a token and those after it make up the text
* `RigScript.Lexeme.text_ne_nil`: a token has at least one character
-/

namespace RigScript

/-- Characters that separate tokens. -/
def isSeparator (c : Char) : Bool :=
  c == ' ' || c == '\t' || c == '\n' || c == '\x0c' || c == '\r'

/-- Characters of words: ASCII letters and digits, and the underscore. -/
def isWordChar (c : Char) : Bool :=
  c.isAlphanum || c == '_'

/-- Characters that may follow the point of a path. -/
def isPathStart (c : Char) : Bool :=
  c.isAlpha || c == '_'

/-- Characters of the attribute part of a path. -/
def isPathChar (c : Char) : Bool :=
  isWordChar c || c == '[' || c == ']' || c == '.'

/-- Whether a point and then a character of the given class stand at the front of a text. -/
def startsWithPoint (p : Char → Bool) : List Char → Bool
  | '.' :: c :: _ => p c
  | _ => false

/-- The number that a run of digits denotes. -/
def natOfDigits (digits : List Char) : Nat :=
  digits.foldl (fun n d => 10 * n + (d.toNat - '0'.toNat)) 0

/-- The double nearest to `whole.fraction`, both runs of digits. -/
def floatOfDigits (whole fraction : List Char) : Float :=
  Float.ofScientific (natOfDigits (whole ++ fraction)) true fraction.length

/-- The kind of a token spelled by a run of word characters that starts with no digit. -/
def Token.Kind.ofWord (text : List Char) : Token.Kind :=
  if text = Mark.ifWord.spelling then .mark .ifWord
  else if text = Mark.elseWord.spelling then .mark .elseWord
  else .word (String.ofList text)

/-- The punctuation mark at the front of a text, and its two-character ones first. -/
def Mark.read? : List Char → Option Mark
  | '=' :: '=' :: _ => some .equal
  | '!' :: '=' :: _ => some .unequal
  | '(' :: _ => some .openParen
  | ')' :: _ => some .closeParen
  | '\x7b' :: _ => some .openBrace
  | '\x7d' :: _ => some .closeBrace
  | ',' :: _ => some .comma
  | ';' :: _ => some .semicolon
  | '=' :: _ => some .assign
  | '+' :: _ => some .plus
  | '-' :: _ => some .minus
  | '*' :: _ => some .star
  | '/' :: _ => some .slash
  | '%' :: _ => some .percent
  | _ => none

/-- A token at the front of a text. -/
structure Lexeme where
  /-- What the token stands for. -/
  kind : Token.Kind
  /-- The characters that spell it. -/
  text : List Char
  /-- The characters after it. -/
  rest : List Char
deriving Repr

namespace Lexeme

/-- The token at the front of `c :: cs`, where `c` is no separator and no comment starts. -/
def read (c : Char) (cs : List Char) : Except SyntaxFault Lexeme :=
  let word := (c :: cs).takeWhile isWordChar
  let after := (c :: cs).dropWhile isWordChar
  if startsWithPoint isPathStart after then
    let text := word ++ '.' :: after.tail.takeWhile isPathChar
    .ok ⟨.path (String.ofList text), text, after.tail.dropWhile isPathChar⟩
  else if word.all Char.isDigit && startsWithPoint Char.isDigit after then
    let fraction := after.tail.takeWhile Char.isDigit
    .ok ⟨.number (floatOfDigits word fraction), word ++ '.' :: fraction,
      after.tail.dropWhile Char.isDigit⟩
  else if word.isEmpty then
    match Mark.read? (c :: cs) with
    | some m => .ok ⟨.mark m, m.spelling, (c :: cs).drop m.spelling.length⟩
    | none => .error (.unexpectedCharacter c)
  else if word.all Char.isDigit then .ok ⟨.number (floatOfDigits word []), word, after⟩
  else if c.isDigit then .error (.invalidWord (String.ofList word))
  else .ok ⟨.ofWord word, word, after⟩

end Lexeme

/-! ### Progress of the reader -/

/-- A text that starts with a point and a character of a class has that point at its head. -/
theorem eq_cons_of_startsWithPoint {p : Char → Bool} {cs : List Char}
    (h : startsWithPoint p cs = true) : cs = '.' :: cs.tail := by
  unfold startsWithPoint at h
  split at h
  · rfl
  · cases h

/-- The spelling of a mark stands at the front of the text it was read from. -/
theorem Mark.spelling_append_drop {cs : List Char} {m : Mark} (h : Mark.read? cs = some m) :
    m.spelling ++ cs.drop m.spelling.length = cs := by
  unfold Mark.read? at h
  split at h <;> simp only [Option.some.injEq, reduceCtorEq] at h <;> subst h <;> rfl

/-- Every mark has a spelling. -/
theorem Mark.spelling_ne_nil (m : Mark) : m.spelling ≠ [] := by
  cases m <;> simp [Mark.spelling]

namespace Lexeme

/-- The characters of a token and the characters after it make up the text it was read from. -/
theorem read_eq {c : Char} {cs : List Char} {l : Lexeme} (h : read c cs = .ok l) :
    l.text ++ l.rest = c :: cs := by
  have split_word : (c :: cs).takeWhile isWordChar ++ (c :: cs).dropWhile isWordChar = c :: cs :=
    List.takeWhile_append_dropWhile
  simp only [read] at h
  split at h
  case isTrue hp =>
    cases h
    simp only [List.append_assoc, List.cons_append, List.takeWhile_append_dropWhile]
    rw [← eq_cons_of_startsWithPoint hp, split_word]
  case isFalse =>
    split at h
    case isTrue hd =>
      cases h
      simp only [Bool.and_eq_true] at hd
      simp only [List.append_assoc, List.cons_append, List.takeWhile_append_dropWhile]
      rw [← eq_cons_of_startsWithPoint hd.2, split_word]
    case isFalse =>
      split at h
      case isTrue =>
        split at h
        case h_1 m hm => cases h; exact Mark.spelling_append_drop hm
        case h_2 => cases h
      case isFalse =>
        split at h
        case isTrue => cases h; exact split_word
        case isFalse =>
          split at h
          case isTrue => cases h
          case isFalse => cases h; exact split_word

/-- A token has at least one character. -/
theorem text_ne_nil {c : Char} {cs : List Char} {l : Lexeme} (h : read c cs = .ok l) :
    l.text ≠ [] := by
  simp only [read] at h
  split at h
  case isTrue => cases h; simp
  case isFalse =>
    split at h
    case isTrue => cases h; simp
    case isFalse =>
      split at h
      case isTrue =>
        split at h
        case h_1 m hm => cases h; exact m.spelling_ne_nil
        case h_2 => cases h
      case isFalse hw =>
        have hw' : (c :: cs).takeWhile isWordChar ≠ [] := by simpa using hw
        split at h
        case isTrue => cases h; exact hw'
        case isFalse =>
          split at h
          case isTrue => cases h
          case isFalse => cases h; exact hw'

/-- Reading a token leaves a shorter text. -/
theorem length_rest_lt {c : Char} {cs : List Char} {l : Lexeme} (h : read c cs = .ok l) :
    l.rest.length < (c :: cs).length := by
  have hlen := congrArg List.length (read_eq h)
  have hpos := List.length_pos_iff.2 (text_ne_nil h)
  rw [List.length_append] at hlen
  omega

end Lexeme

/-! ### The tokens of a script -/

/-- The number of bytes of a text in the UTF-8 encoding. -/
def byteLength : List Char → Nat
  | [] => 0
  | c :: cs => c.utf8Size + byteLength cs

/-- Whether a line comment starts at the front of a text. -/
def startsComment : List Char → Bool
  | '/' :: '/' :: _ => true
  | _ => false

/-- The tokens of a text whose first byte has the given offset. A comment runs up to the end of
its line, which is a separator in turn. -/
def Token.lexFrom (offset : Nat) (cs : List Char) : Except Stop (List Token) :=
  match cs with
  | [] => .ok [⟨.finish, offset, offset⟩]
  | c :: rest =>
    if isSeparator c then lexFrom (offset + c.utf8Size) rest
    else if startsComment (c :: rest) then
      lexFrom (offset + c.utf8Size + byteLength (rest.takeWhile (· != '\n')))
        (rest.dropWhile (· != '\n'))
    else
      match _h : Lexeme.read c rest with
      | .error fault => .error ⟨offset, fault⟩
      | .ok l =>
        let stop := offset + byteLength l.text
        match lexFrom stop l.rest with
        | .error e => .error e
        | .ok tokens => .ok (⟨l.kind, offset, stop⟩ :: tokens)
termination_by cs.length
decreasing_by
  · simp
  · exact Nat.lt_succ_of_le (List.dropWhile_sublist _).length_le
  · exact Lexeme.length_rest_lt _h

/-- The tokens of a script, of which the last is its end. -/
def Token.lex (src : String) : Except Stop (List Token) :=
  Token.lexFrom 0 src.toList

end RigScript
