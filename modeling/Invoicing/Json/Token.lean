import Invoicing.Json.Number
import Invoicing.Json.Text

set_option autoImplicit false

/-! # Tokens

The lexemes of a JSON text. Numbers and quoted texts are kept as they are written, and whoever reads one
decides what it means. -/

namespace Invoicing.Json

inductive Token where
  | openBrace
  | closeBrace
  | openBracket
  | closeBracket
  | colon
  | comma
  | null
  | bool (b : Bool)
  | number (lexeme : List Char)
  | text (body : List Char)
deriving DecidableEq, Repr

namespace Token

/-- The spelling of a token. -/
def spelling : Token → List Char
  | openBrace => ['{']
  | closeBrace => ['}']
  | openBracket => ['[']
  | closeBracket => [']']
  | colon => [':']
  | comma => [',']
  | null => ['n', 'u', 'l', 'l']
  | bool true => ['t', 'r', 'u', 'e']
  | bool false => ['f', 'a', 'l', 's', 'e']
  | number lexeme => lexeme
  | text body => '"' :: body ++ ['"']

/-- The characters that may stand between tokens. -/
def isBlank (c : Char) : Bool := c == ' ' || c == '\t' || c == '\n' || c == '\r'

/-- The tokens of one character. -/
def ofChar? : Char → Option Token
  | '{' => some openBrace
  | '}' => some closeBrace
  | '[' => some openBracket
  | ']' => some closeBracket
  | ':' => some colon
  | ',' => some comma
  | _ => none

/-- The tokens that are words. -/
def word? : List Char → Option (Token × List Char)
  | 'n' :: 'u' :: 'l' :: 'l' :: rest => some (null, rest)
  | 't' :: 'r' :: 'u' :: 'e' :: rest => some (bool true, rest)
  | 'f' :: 'a' :: 'l' :: 's' :: 'e' :: rest => some (bool false, rest)
  | _ => none

/-- A word, a number or a quoted text at the head, and what follows it. -/
def lexeme? : List Char → Option (Token × List Char)
  | '"' :: rest => (Text.body? [] rest).map fun (body, rest) => (text body, rest)
  | c :: rest =>
    if c.isDigit || c == '-' then
      if Number.isLexeme (c :: rest.takeWhile Number.isPart) then
        some (number (c :: rest.takeWhile Number.isPart), rest.dropWhile Number.isPart)
      else none
    else word? (c :: rest)
  | [] => none

theorem length_of_word? {cs rest : List Char} {t : Token} (h : word? cs = some (t, rest)) :
    rest.length < cs.length := by
  unfold word? at h
  split at h <;> simp_all <;> omega

theorem length_dropWhile_le (p : Char → Bool) (cs : List Char) :
    (cs.dropWhile p).length ≤ cs.length := (List.dropWhile_sublist p).length_le

theorem length_of_lexeme? {cs rest : List Char} {t : Token} (h : lexeme? cs = some (t, rest)) :
    rest.length < cs.length := by
  unfold lexeme? at h
  split at h
  · next r =>
    obtain ⟨⟨body, r'⟩, hb, heq⟩ := Option.map_eq_some_iff.1 h
    cases heq
    have := Text.length_of_body? hb
    simp only [List.length_cons]
    omega
  · next c r _ =>
    split at h
    · split at h
      · cases h
        have := length_dropWhile_le Number.isPart r
        simp only [List.length_cons]
        omega
      · cases h
    · exact length_of_word? h
  · cases h

/-- The tokens of a text, after the tokens `done` in reverse. -/
def scan (done : List Token) (cs : List Char) : Option (List Token) :=
  match cs with
  | [] => some done.reverse
  | c :: rest =>
    if isBlank c then scan done rest
    else match ofChar? c with
      | some t => scan (t :: done) rest
      | none =>
        match h : lexeme? (c :: rest) with
        | some (t, rest') =>
          have : rest'.length < rest.length + 1 := length_of_lexeme? h
          scan (t :: done) rest'
        | none => none
termination_by cs.length

end Token

end Invoicing.Json
