import Invoicing.Json.Token

set_option autoImplicit false

/-! # Trees

`Json` is the tree of a text. Its leaves are lexemes and the members of its objects stand in the order of the
text, repeated keys included: which of them count is for the reader to say. Reading a text takes one
pass with a stack of the open arrays and objects, so any nesting is accepted. -/

namespace Invoicing

/-- A JSON text, read as far as its shape. -/
inductive Json where
  | null
  | bool (b : Bool)
  | number (lexeme : List Char)
  | text (body : List Char)
  | array (elements : List Json)
  | object (members : List (List Char × Json))
deriving Inhabited

namespace Json

/-! ## Writing -/

mutual

/-- The tokens of a tree. -/
def tokens : Json → List Token
  | null => [.null]
  | bool b => [.bool b]
  | number lexeme => [.number lexeme]
  | text body => [.text body]
  | array elements => .openBracket :: elementTokens elements
  | object members => .openBrace :: memberTokens members

/-- The tokens of the elements that are left, up to the closing bracket. -/
def elementTokens : List Json → List Token
  | [] => [.closeBracket]
  | [v] => v.tokens ++ [.closeBracket]
  | v :: rest => v.tokens ++ .comma :: elementTokens rest

/-- The tokens of the members that are left, up to the closing brace. -/
def memberTokens : List (List Char × Json) → List Token
  | [] => [.closeBrace]
  | [(key, v)] => .text key :: .colon :: (v.tokens ++ [.closeBrace])
  | (key, v) :: rest => .text key :: .colon :: (v.tokens ++ .comma :: memberTokens rest)

end

/-- The text of a tree, without blanks. -/
def render (j : Json) : String := String.ofList (j.tokens.flatMap Token.spelling)

/-! ## Reading -/

/-- An array or object that is still open, with what it holds so far in reverse. -/
inductive Frame where
  | array (done : List Json)
  | object (done : List (List Char × Json)) (key : List Char)

/-- Reads tokens into the innermost open frame. `found` is the value that has just ended; without one,
a value has to come next. -/
def build (found : Option Json) (frames : List Frame) (ts : List Token) : Option Json :=
  match ts, found, frames with
  | [], some v, [] => some v
  -- A value begins.
  | .null :: ts, none, fs => build (some .null) fs ts
  | .bool b :: ts, none, fs => build (some (.bool b)) fs ts
  | .number lexeme :: ts, none, fs => build (some (.number lexeme)) fs ts
  | .text body :: ts, none, fs => build (some (.text body)) fs ts
  | .openBracket :: .closeBracket :: ts, none, fs => build (some (.array [])) fs ts
  | .openBracket :: ts, none, fs => build none (.array [] :: fs) ts
  | .openBrace :: .closeBrace :: ts, none, fs => build (some (.object [])) fs ts
  | .openBrace :: .text key :: .colon :: ts, none, fs => build none (.object [] key :: fs) ts
  -- A value has ended inside an array or an object.
  | .comma :: ts, some v, .array done :: fs => build none (.array (v :: done) :: fs) ts
  | .closeBracket :: ts, some v, .array done :: fs => build (some (.array (v :: done).reverse)) fs ts
  | .comma :: .text key' :: .colon :: ts, some v, .object done key :: fs =>
    build none (.object ((key, v) :: done) key' :: fs) ts
  | .closeBrace :: ts, some v, .object done key :: fs =>
    build (some (.object ((key, v) :: done).reverse)) fs ts
  | _, _, _ => none

/-- The tree of a text: one value, with nothing but blanks around it. -/
def parse? (s : String) : Option Json := (Token.scan [] s.toList).bind (build none [])

end Json

end Invoicing
