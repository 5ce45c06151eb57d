import Invoicing.Decimal.Shortest
import Invoicing.Dict
import Invoicing.Json.Tree

set_option autoImplicit false

/-! # Values without a schema

A value of which no schema is known is kept in one form for all its spellings: object keys in order, the last
of a repeated key, texts escaped only where they have to be, whole numbers of 64 bits as they are and all
other numbers as the shortest decimal of their binary fraction. -/

namespace Invoicing.Json

namespace Number

/-- Takes digits into a significand as long as it stays below `2 ^ 64`, and returns the rest. -/
def absorb (significand : Nat) : List Char → Nat × List Char
  | [] => (significand, [])
  | c :: rest =>
    let next := 10 * significand + (c.toNat - '0'.toNat)
    if next < 2 ^ 64 then absorb next rest else (significand, c :: rest)

/-- The exponent that a lexeme's end spells, `0` where there is none. -/
def exponent : List Char → Int
  | _ :: '-' :: digits => -(Nat.ofDigitChars 10 digits 0 : Int)
  | _ :: '+' :: digits => Nat.ofDigitChars 10 digits 0
  | _ :: digits => Nat.ofDigitChars 10 digits 0
  | [] => 0

/-- The one spelling of a number. Digits that do not fit a significand of 64 bits count only for the
magnitude. -/
def canonical? (lexeme : List Char) : Option (List Char) :=
  let digits := skipSign lexeme
  let negative := lexeme ≠ digits
  let whole := digits.takeWhile Char.isDigit
  let tail := digits.dropWhile Char.isDigit
  let (significand, excess) := absorb 0 whole
  if tail = [] ∧ excess = [] ∧ (negative → 0 < significand ∧ significand ≤ 2 ^ 63) then some lexeme
  else
    let fraction := match tail with
      | '.' :: rest => rest.takeWhile Char.isDigit
      | _ => []
    let tail := match tail with
      | '.' :: rest => rest.dropWhile Char.isDigit
      | _ => tail
    -- Whole digits that were left out scale up, and digits of the fraction that were taken scale down.
    let (significand, dropped) := absorb significand fraction
    let scale : Int := excess.length - (fraction.length - dropped.length : Nat) + exponent tail
    (Decimal.Binary64.ofDecimal? significand scale).map fun x =>
      (if negative then ['-'] else []) ++ x.shortest.render

end Number

/-- The text of a quoted leaf. -/
def text? : Json → Option String
  | text body => (Text.unescape? body).map String.ofList
  | _ => none

/-- The leaf of a text. -/
def ofText (s : String) : Json := text (Text.escape s.toList)

/-- The one form of a value that nests at most `levels` deep. -/
def canonical? : Nat → Json → Option Json
  | _, null => some null
  | _, bool b => some (bool b)
  | _, number lexeme => (Number.canonical? lexeme).map number
  | _, text body => (text body).text?.map ofText
  | 0, _ => none
  | levels + 1, array elements => (elements.mapM (canonical? levels)).map array
  | levels + 1, object members => do
    let entries ← members.mapM fun (key, v) => do
      return ((← (text key).text?), (← canonical? levels v))
    return object ((Dict.ofList entries).entries.map fun (key, v) => (Text.escape key.toList, v))

end Invoicing.Json
