import Invoicing.Text.CaseTable

set_option autoImplicit false

/-! # Lower case

The lower case of a whole text. Two letters do not stand for themselves alone: a capital I with a dot becomes two
characters, and a capital sigma has a form of its own at the end of a word. -/

namespace Invoicing.LowerCase

/-- Is the first character that is not passed over one with case? -/
def meetsCased (cs : List Char) : Bool :=
  match cs.dropWhile CaseTable.isIgnorable with
  | c :: _ => CaseTable.isCased c
  | [] => false

/-- The lower case of a character between the characters `before`, in reverse, and `after`. -/
def lowerChar (before : List Char) (c : Char) (after : List Char) : List Char :=
  if c.toNat < 0x80 then [c.toLower]
  else if c = '\u0130' then ['i', '\u0307']
  else if c = '\u03a3' then
    if meetsCased before && !meetsCased after then ['\u03c2'] else ['\u03c3']
  else [Char.ofNat (CaseTable.lower c.toNat)]

/-- The lower case of the characters after `before`, which stands in reverse. -/
def lowerFrom (before : List Char) : List Char → List Char
  | [] => []
  | c :: after => lowerChar before c after ++ lowerFrom (c :: before) after

/-- The lower case of a text. -/
def lower (s : String) : String := String.ofList (lowerFrom [] s.toList)

end Invoicing.LowerCase
