import Invoicing.Bytes
import Invoicing.Dict
import Invoicing.Text.Utf8

set_option autoImplicit false

/-! # Records

Values as bytes: numbers of 64 bits lowest byte first, texts and lists after their length, maps as lists of pairs.
A reader takes a value off the front of a byte string and leaves the rest, so a record may be followed by
anything (`Record.decode?`). A length is one number of 64 bits as well (`Record.encodeLength_of_lt`). The layout ends there,
and no text or list that fits into memory is longer. That a longer one has a record too, whose length goes on in further
words, is no part of the layout but an addition made here, so that every value is read back
(`Record.readLength?_encodeLength`). -/

namespace Invoicing

/-- A type whose values can be written as bytes and read back. -/
class Record (α : Type) where
  encode : α → List UInt8
  /-- The value at the front and what follows it. -/
  read? : List UInt8 → Option (α × List UInt8)

namespace Record

variable {α β : Type}

/-- The value of a record; bytes after it are ignored. -/
def decode? [Record α] (bs : List UInt8) : Option α := (read? bs).map Prod.fst

/-! ## Numbers -/

def readUInt64? (bs : List UInt8) : Option (UInt64 × List UInt8) :=
  if 8 ≤ bs.length then some ((Bytes.toNatLE (bs.take 8)).toUInt64, bs.drop 8) else none

instance : Record UInt64 := ⟨fun n => Bytes.ofNatLE 8 n.toNat, readUInt64?⟩

/-! ## Lengths -/

/-- The largest number of a word. -/
def fullWord : Nat := 2 ^ 64 - 1

/-- A length as one word of 64 bits, if it is smaller than `fullWord`. The words before it that a larger length gets, each of
them `fullWord`, are not in the layout of records, which has one word. No text or list in memory is that long. -/
def encodeLength (n : Nat) : List UInt8 :=
  (List.replicate (n / fullWord) (Bytes.ofNatLE 8 fullWord)).flatten ++ Bytes.ofNatLE 8 (n % fullWord)

/-- The length at the front. After a word that is `fullWord` it goes on in the next one, which again is not in the layout.
There such a word is a length beyond all bytes; here it stands for no smaller one, so that a text or a list with it is
refused as well, unless `2 ^ 64 - 1` bytes follow. -/
def readLength? : List UInt8 → Option (Nat × List UInt8)
  | a :: b :: c :: d :: e :: f :: g :: h :: rest =>
    let n := Bytes.toNatLE [a, b, c, d, e, f, g, h]
    if n = fullWord then (readLength? rest).map fun (m, rest) => (fullWord + m, rest)
    else some (n, rest)
  | _ => none

/-! ## Texts -/

def encodeText (s : String) : List UInt8 :=
  let bytes := Utf8.encode s
  encodeLength bytes.length ++ bytes

def readText? (bs : List UInt8) : Option (String × List UInt8) := do
  let (length, rest) ← readLength? bs
  if length ≤ rest.length then
    return (← Utf8.decode? (rest.take length), rest.drop length)
  else none

instance : Record String := ⟨encodeText, readText?⟩

/-! ## Lists and maps -/

/-- Reads a number of values. Every value takes at least one byte, so a count beyond the bytes that are
there ends in failure. -/
def readMany? (read? : List UInt8 → Option (α × List UInt8)) :
    Nat → List UInt8 → Option (List α × List UInt8)
  | 0, bs => some ([], bs)
  | n + 1, bs => do
    let (a, rest) ← read? bs
    let (as, rest) ← readMany? read? n rest
    return (a :: as, rest)

def encodeList [Record α] (as : List α) : List UInt8 :=
  encodeLength as.length ++ as.flatMap encode

def readList? [Record α] (bs : List UInt8) : Option (List α × List UInt8) := do
  let (count, rest) ← readLength? bs
  readMany? read? count rest

instance [Record α] : Record (List α) := ⟨encodeList, readList?⟩

def readPair? [Record α] [Record β] (bs : List UInt8) : Option ((α × β) × List UInt8) := do
  let (a, rest) ← read? bs
  let (b, rest) ← read? rest
  return ((a, b), rest)

instance [Record α] [Record β] : Record (α × β) := ⟨fun e => encode e.1 ++ encode e.2, readPair?⟩

/-- A map is read from entries in any order; of a repeated key the last entry stays. -/
instance [Record β] : Record (Dict String β) where
  encode d := encode d.entries
  read? bs := (read? bs : Option (List (String × β) × List UInt8)).map fun (es, rest) =>
    (Dict.ofList es, rest)

/-! ## Reading after writing -/

theorem readUInt64?_encode (n : UInt64) (rest : List UInt8) :
    readUInt64? (encode n ++ rest) = some (n, rest) := by
  have hlen : (Bytes.ofNatLE 8 n.toNat).length = 8 := Bytes.length_ofNatLE ..
  have hlt : n.toNat < 256 ^ 8 := n.toNat_lt
  simp only [readUInt64?, encode, List.length_append, hlen, Nat.le_add_right, if_true,
    List.take_append_of_le_length (Nat.le_of_eq hlen.symm), List.take_of_length_le (Nat.le_of_eq hlen),
    Bytes.toNatLE_ofNatLE hlt, Nat.toUInt64_eq, UInt64.ofNat_toNat]
  rw [List.drop_append_of_le_length (Nat.le_of_eq hlen.symm), List.drop_of_length_le (Nat.le_of_eq hlen),
    List.nil_append]

theorem readLength?_word {w : Nat} (hw : w < 2 ^ 64) (rest : List UInt8) :
    readLength? (Bytes.ofNatLE 8 w ++ rest) =
      if w = fullWord then (readLength? rest).map fun (m, rest) => (fullWord + m, rest)
      else some (w, rest) := by
  have hread : Bytes.toNatLE (Bytes.ofNatLE 8 w) = w := Bytes.toNatLE_ofNatLE (by simpa using hw)
  simp only [Bytes.ofNatLE] at hread ⊢
  simp only [List.cons_append, List.nil_append, readLength?, hread]

theorem readLength?_encodeLength (n : Nat) (rest : List UInt8) :
    readLength? (encodeLength n ++ rest) = some (n, rest) := by
  -- Each full word that is read adds as much to the number that the words after it spell.
  have hwords (words w : Nat) (hw : w < fullWord) :
      readLength? ((List.replicate words (Bytes.ofNatLE 8 fullWord)).flatten ++ Bytes.ofNatLE 8 w ++ rest) =
        some (fullWord * words + w, rest) := by
    induction words with
    | zero =>
      have hlt : w < 2 ^ 64 := Nat.lt_trans hw (by decide)
      simp [readLength?_word hlt, Nat.ne_of_lt hw]
    | succ words ih =>
      rw [List.replicate_succ, List.flatten_cons, List.append_assoc, List.append_assoc,
        readLength?_word (by decide), if_pos rfl, ← List.append_assoc, ih]
      simp [Nat.mul_succ, Nat.add_comm, Nat.add_left_comm]
  rw [encodeLength, hwords _ _ (Nat.mod_lt _ (by decide)), Nat.div_add_mod]

theorem encodeLength_of_lt {n : Nat} (h : n < fullWord) : encodeLength n = Bytes.ofNatLE 8 n := by
  simp [encodeLength, Nat.div_eq_of_lt h, Nat.mod_eq_of_lt h]

end Record

end Invoicing
