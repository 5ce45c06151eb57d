import Invoicing.Text.Hex

set_option autoImplicit false

/-! # Quoted text

`escape` writes the body of a quoted text and `unescape?` reads one (`unescape?_escape`). A reader that
does not need the text checks only the shape of its escapes (`body?`), so that an escape which denotes
no character is an error for the one and not for the other. -/

namespace Invoicing.Json.Text

/-! ## Writing -/

/-- The low control characters without a letter of their own, as a four-digit escape. -/
def escapeCode (n : Nat) : List Char :=
  ['\\', 'u', '0', '0', Nat.digitChar (n / 16), Nat.digitChar (n % 16)]

/-- A character of the body: quotes, backslashes and control characters are escaped, all others
stand for themselves. -/
def escapeChar (c : Char) : List Char :=
  if c = '"' then ['\\', '"']
  else if c = '\\' then ['\\', '\\']
  else if c = '\x08' then ['\\', 'b']
  else if c = '\x0c' then ['\\', 'f']
  else if c = '\n' then ['\\', 'n']
  else if c = '\r' then ['\\', 'r']
  else if c = '\t' then ['\\', 't']
  else if c.toNat < 0x20 then escapeCode c.toNat
  else [c]

/-- The body of a quoted text. -/
def escape (cs : List Char) : List Char := cs.flatMap escapeChar

/-! ## Shape -/

/-- The letters that may follow a backslash. -/
def isShortEscape (c : Char) : Bool :=
  c == '"' || c == '\\' || c == '/' || c == 'b' || c == 'f' || c == 'n' || c == 'r' || c == 't'

/-- The body up to the closing quote and what follows it, after the characters `done` in reverse.
Control characters have to be escaped, and escapes have to be complete. -/
def body? (done : List Char) : List Char → Option (List Char × List Char)
  | '"' :: rest => some (done.reverse, rest)
  | '\\' :: 'u' :: a :: b :: c :: d :: rest =>
    if [a, b, c, d].all Hex.isDigit then body? (d :: c :: b :: a :: 'u' :: '\\' :: done) rest else none
  | '\\' :: c :: rest => if isShortEscape c then body? (c :: '\\' :: done) rest else none
  | c :: rest => if c.toNat < 0x20 then none else body? (c :: done) rest
  | [] => none

theorem length_of_body? {done cs body rest : List Char} (h : body? done cs = some (body, rest)) :
    rest.length < cs.length := by
  fun_induction body? done cs <;> simp_all <;> omega

/-! ## Reading -/

/-- The number that four digits spell. -/
def code? (a b c d : Char) : Option Nat := do
  let a ← Hex.value? a
  let b ← Hex.value? b
  let c ← Hex.value? c
  let d ← Hex.value? d
  return ((a * 16 + b) * 16 + c) * 16 + d

/-- The character that a letter after a backslash stands for. -/
def shortEscape? (c : Char) : Option Char :=
  if c = '"' ∨ c = '\\' ∨ c = '/' then some c
  else if c = 'b' then some '\x08'
  else if c = 'f' then some '\x0c'
  else if c = 'n' then some '\n'
  else if c = 'r' then some '\r'
  else if c = 't' then some '\t'
  else none

/-- The first of two code units that stand together for one character. -/
def isHighHalf (n : Nat) : Bool := 0xD800 ≤ n && n < 0xDC00

/-- The second of two code units that stand together for one character. -/
def isLowHalf (n : Nat) : Bool := 0xDC00 ≤ n && n < 0xE000

/-- The text that a body spells, after the characters `done` in reverse. Half of a pair of code units
that stands alone spells none. -/
def unescapeFrom? (done : List Char) : List Char → Option (List Char)
  | [] => some done.reverse
  | '\\' :: 'u' :: a :: b :: c :: d :: rest =>
    match code? a b c d with
    | none => none
    | some n =>
      if isLowHalf n then none
      else if isHighHalf n then
        -- Two escapes spell one character.
        match rest with
        | '\\' :: 'u' :: a' :: b' :: c' :: d' :: rest' =>
          match code? a' b' c' d' with
          | none => none
          | some n' =>
            if isLowHalf n' then
              unescapeFrom? (Char.ofNat (0x10000 + (n - 0xD800) * 0x400 + (n' - 0xDC00)) :: done) rest'
            else none
        | _ => none
      else unescapeFrom? (Char.ofNat n :: done) rest
  | '\\' :: c :: rest =>
    match shortEscape? c with
    | none => none
    | some c' => unescapeFrom? (c' :: done) rest
  | c :: rest => if c = '\\' then none else unescapeFrom? (c :: done) rest

/-- The text that a body spells. -/
def unescape? (cs : List Char) : Option (List Char) := unescapeFrom? [] cs

/-! ## Reading after writing -/

theorem code?_escapeCode : ∀ n < 0x20,
    code? '0' '0' (Nat.digitChar (n / 16)) (Nat.digitChar (n % 16)) = some n := by decide

theorem unescapeFrom?_escapeCode (done rest : List Char) {n : Nat} (h : n < 0x20) :
    unescapeFrom? done (escapeCode n ++ rest) = unescapeFrom? (Char.ofNat n :: done) rest := by
  have hlow : isLowHalf n = false := by simp [isLowHalf]; omega
  have hhigh : isHighHalf n = false := by simp [isHighHalf]; omega
  simp only [escapeCode, List.cons_append, List.nil_append, unescapeFrom?]
  rw [code?_escapeCode n h]
  simp [hlow, hhigh]

theorem unescapeFrom?_escapeChar (done rest : List Char) (c : Char) :
    unescapeFrom? done (escapeChar c ++ rest) = unescapeFrom? (c :: done) rest := by
  unfold escapeChar
  -- The seven characters with an escape of one letter.
  iterate 7
    split
    · next h => subst h; rfl
  split
  · next h => rw [unescapeFrom?_escapeCode done rest h, Char.ofNat_toNat]
  · next hslash _ _ _ _ _ _ =>
    rw [List.cons_append, List.nil_append, unescapeFrom?.eq_4 _ _ _ (by simp_all) (by simp_all),
      if_neg hslash]

theorem unescapeFrom?_escape (done cs : List Char) :
    unescapeFrom? done (escape cs) = some (done.reverse ++ cs) := by
  induction cs generalizing done with
  | nil => simp [escape, unescapeFrom?]
  | cons c cs ih =>
    rw [escape, List.flatMap_cons, unescapeFrom?_escapeChar, ← escape, ih]
    simp

@[simp] theorem unescape?_escape (cs : List Char) : unescape? (escape cs) = some cs := by
  simp [unescape?, unescapeFrom?_escape]

end Invoicing.Json.Text
