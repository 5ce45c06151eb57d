import Invoicing.Record

set_option autoImplicit false

/-! # Records read back

Every value is read back from its record, whatever bytes follow it (`Record.decode?_encode_append`). The law is a class, so
that the record of a list, a pair or a map needs nothing but the laws of its parts. -/

namespace Invoicing

/-- A type whose values are read back from what is written, whatever follows it. -/
class LawfulRecord (α : Type) [Record α] : Prop where
  read?_encode (a : α) (rest : List UInt8) : Record.read? (Record.encode a ++ rest) = some (a, rest)

namespace Record

variable {α β : Type}

theorem decode?_encode_append [Record α] [LawfulRecord α] (a : α) (rest : List UInt8) :
    decode? (encode a ++ rest) = some a := by
  rw [decode?, LawfulRecord.read?_encode, Option.map_some]

@[simp] theorem decode?_encode [Record α] [LawfulRecord α] (a : α) : decode? (encode a) = some a := by
  simpa using decode?_encode_append a []

instance : LawfulRecord UInt64 := ⟨readUInt64?_encode⟩

/-- A text is cut off after as many bytes as its length says. -/
theorem readText?_encodeText (s : String) (rest : List UInt8) :
    readText? (encodeText s ++ rest) = some (s, rest) := by
  have hle : (Utf8.encode s).length ≤ (Utf8.encode s ++ rest).length := by simp
  simp only [encodeText, readText?, List.append_assoc, readLength?_encodeLength, Option.bind_eq_bind,
    Option.bind_some, if_pos hle, List.take_left, List.drop_left, Utf8.decode?_encode]
  rfl

instance : LawfulRecord String := ⟨readText?_encodeText⟩

theorem readMany?_flatMap_encode [Record α] [LawfulRecord α] (as : List α) (rest : List UInt8) :
    readMany? read? as.length (as.flatMap encode ++ rest) = some (as, rest) := by
  induction as with
  | nil => rfl
  | cons a as ih =>
    simp only [List.length_cons, List.flatMap_cons, List.append_assoc, readMany?]
    rw [LawfulRecord.read?_encode]
    simp only [Option.bind_eq_bind, Option.bind_some, ih]
    rfl

instance [Record α] [LawfulRecord α] : LawfulRecord (List α) where
  read?_encode as rest := by
    show readList? (encodeList as ++ rest) = some (as, rest)
    rw [encodeList, readList?, List.append_assoc, readLength?_encodeLength]
    exact readMany?_flatMap_encode as rest

instance [Record α] [Record β] [LawfulRecord α] [LawfulRecord β] : LawfulRecord (α × β) where
  read?_encode e rest := by
    show readPair? (encode e.1 ++ encode e.2 ++ rest) = some (e, rest)
    rw [readPair?, List.append_assoc, LawfulRecord.read?_encode]
    simp only [Option.bind_eq_bind, Option.bind_some, LawfulRecord.read?_encode]
    rfl

instance [Record β] [LawfulRecord β] : LawfulRecord (Dict String β) where
  read?_encode d rest := by
    show (read? (encode d.entries ++ rest) : Option (List (String × β) × List UInt8)).map
      (fun (es, rest) => (Dict.ofList es, rest)) = some (d, rest)
    simp only [LawfulRecord.read?_encode, Option.map_some, Dict.ofList_entries]

end Record

end Invoicing
