import Invoicing.Proofs.Record

set_option autoImplicit false

/-! # Records and the bytes that spell them

What is read from the front of a byte string is what was written there (`Record.decode?_eq_some_iff`), so a value has one
spelling only. That holds of numbers, texts, pairs and lists, but not of maps, whose entries may stand in any order
(`Record.decode?_dict_eq_some_iff`). A count or a length beyond the bytes that follow spells nothing, however large it is. -/

namespace Invoicing

/-- A type whose values are written in one way only: what is read was written there. -/
class CanonicalRecord (α : Type) [Record α] : Prop extends LawfulRecord α where
  eq_encode_append {bs rest : List UInt8} {a : α} : Record.read? bs = some (a, rest) → bs = Record.encode a ++ rest

namespace Record

variable {α β : Type} {bs rest : List UInt8}

theorem read?_eq_some_iff [Record α] [CanonicalRecord α] {a : α} :
    read? bs = some (a, rest) ↔ bs = encode a ++ rest := by
  constructor
  · exact CanonicalRecord.eq_encode_append
  · rintro rfl
    exact LawfulRecord.read?_encode a rest

/-- Bytes spell a value exactly if they start with the bytes that are written for it. -/
theorem decode?_eq_some_iff [Record α] [CanonicalRecord α] {a : α} : decode? bs = some a ↔ encode a <+: bs := by
  rw [decode?, Option.map_eq_some_iff]
  constructor
  · rintro ⟨⟨a', rest⟩, hread, rfl⟩
    exact ⟨rest, (read?_eq_some_iff.1 hread).symm⟩
  · rintro ⟨rest, rfl⟩
    exact ⟨(a, rest), LawfulRecord.read?_encode a rest, rfl⟩

/-! ## Numbers and lengths -/

instance : CanonicalRecord UInt64 where
  eq_encode_append {bs rest n} h := by
    change readUInt64? bs = some (n, rest) at h
    unfold readUInt64? at h
    split at h
    · next hle =>
      obtain ⟨rfl, rfl⟩ := Prod.mk.inj (Option.some.inj h)
      have hlength : (bs.take 8).length = 8 := List.length_take_of_le hle
      have hlt := Bytes.toNatLE_lt (bs.take 8)
      have hword := Bytes.ofNatLE_toNatLE (bs.take 8)
      rw [hlength] at hlt hword
      show bs = Bytes.ofNatLE 8 (Bytes.toNatLE (bs.take 8)).toUInt64.toNat ++ bs.drop 8
      rw [Nat.toUInt64_eq, UInt64.toNat_ofNat_of_lt' hlt, hword, List.take_append_drop]
    · cases h

theorem encodeLength_add_fullWord (n : Nat) :
    encodeLength (fullWord + n) = Bytes.ofNatLE 8 fullWord ++ encodeLength n := by
  have hpos : 0 < fullWord := by decide
  simp [encodeLength, Nat.add_div_left _ hpos, List.replicate_succ]

theorem readLength?_eq_some_iff {n : Nat} : readLength? bs = some (n, rest) ↔ bs = encodeLength n ++ rest := by
  constructor
  · intro h
    fun_induction readLength? bs generalizing n with
    | case1 b₀ b₁ b₂ b₃ b₄ b₅ b₆ b₇ bs w hfull =>
      rename_i ih
      obtain ⟨⟨m, bs'⟩, hread, heq⟩ := Option.map_eq_some_iff.1 h
      cases heq
      have hword : Bytes.ofNatLE 8 fullWord = [b₀, b₁, b₂, b₃, b₄, b₅, b₆, b₇] :=
        hfull ▸ Bytes.ofNatLE_toNatLE [b₀, b₁, b₂, b₃, b₄, b₅, b₆, b₇]
      rw [ih hread, encodeLength_add_fullWord, hword]
      simp
    | case2 b₀ b₁ b₂ b₃ b₄ b₅ b₆ b₇ bs w =>
      rename_i hfull
      cases h
      have hlt := Bytes.toNatLE_lt [b₀, b₁, b₂, b₃, b₄, b₅, b₆, b₇]
      have hn : Bytes.toNatLE [b₀, b₁, b₂, b₃, b₄, b₅, b₆, b₇] < fullWord := by
        simp only [fullWord, List.length_cons, List.length_nil] at hfull hlt ⊢
        omega
      have hword := Bytes.ofNatLE_toNatLE [b₀, b₁, b₂, b₃, b₄, b₅, b₆, b₇]
      rw [encodeLength_of_lt hn]
      simp only [List.length_cons, List.length_nil] at hword
      simp [hword]
    | case3 => cases h
  · rintro rfl
    exact readLength?_encodeLength n rest

/-! ## Texts, pairs and lists -/

theorem readText?_eq_some {s : String} (h : readText? bs = some (s, rest)) : bs = encodeText s ++ rest := by
  simp only [readText?, Option.bind_eq_bind, Option.bind_eq_some_iff, Prod.exists] at h
  obtain ⟨n, bs', hlength, h⟩ := h
  rw [readLength?_eq_some_iff.1 hlength]
  split at h
  · next hle =>
    simp only [Option.bind_eq_some_iff, Option.pure_def, Option.some.injEq, Prod.mk.injEq] at h
    obtain ⟨s', hdecode, rfl, rfl⟩ := h
    have hbytes := Utf8.encode_of_decode? hdecode
    have hn : (Utf8.encode s').length = n := by rw [hbytes, List.length_take_of_le hle]
    simp only [encodeText]
    rw [hn, hbytes, List.append_assoc, List.take_append_drop]
  · cases h

instance : CanonicalRecord String := ⟨readText?_eq_some⟩

theorem readMany?_eq_some [Record α] [CanonicalRecord α] {n : Nat} {as : List α}
    (h : readMany? read? n bs = some (as, rest)) : as.length = n ∧ bs = as.flatMap encode ++ rest := by
  induction n generalizing bs as with
  | zero =>
    simp only [readMany?, Option.some.injEq, Prod.mk.injEq] at h
    obtain ⟨rfl, rfl⟩ := h
    simp
  | succ n ih =>
    simp only [readMany?, Option.bind_eq_bind, Option.bind_eq_some_iff, Prod.exists, Option.pure_def,
      Option.some.injEq, Prod.mk.injEq] at h
    obtain ⟨a, bs', hfirst, as', rest', hmore, rfl, rfl⟩ := h
    obtain ⟨hlength, hbs'⟩ := ih hmore
    rw [read?_eq_some_iff] at hfirst
    simp [hfirst, hbs', hlength]

instance [Record α] [CanonicalRecord α] : CanonicalRecord (List α) where
  eq_encode_append {bs rest as} h := by
    change readList? bs = some (as, rest) at h
    simp only [readList?, Option.bind_eq_bind, Option.bind_eq_some_iff, Prod.exists] at h
    obtain ⟨n, bs', hlength, hmany⟩ := h
    obtain ⟨rfl, rfl⟩ := readMany?_eq_some hmany
    show bs = encodeList as ++ rest
    rw [readLength?_eq_some_iff.1 hlength, encodeList, List.append_assoc]

instance [Record α] [Record β] [CanonicalRecord α] [CanonicalRecord β] : CanonicalRecord (α × β) where
  eq_encode_append {bs rest e} h := by
    change readPair? bs = some (e, rest) at h
    simp only [readPair?, Option.bind_eq_bind, Option.bind_eq_some_iff, Prod.exists, Option.pure_def,
      Option.some.injEq, Prod.mk.injEq, read?_eq_some_iff] at h
    obtain ⟨a, _, rfl, b, _, rfl, rfl, rfl⟩ := h
    exact (List.append_assoc _ _ _).symm

theorem decode?_dict [Record β] (bs : List UInt8) :
    (decode? bs : Option (Dict String β)) = (decode? bs : Option (List (String × β))).map Dict.ofList := by
  simp only [decode?, Option.map_map]
  show ((read? bs : Option (List (String × β) × List UInt8)).map _).map _ = _
  rw [Option.map_map]
  rfl

/-- A map is spelled by any list of entries that makes it up: of a repeated key the last entry stays. -/
theorem decode?_dict_eq_some_iff [Record β] [CanonicalRecord β] {d : Dict String β} :
    decode? bs = some d ↔ ∃ entries : List (String × β), encode entries <+: bs ∧ d = Dict.ofList entries := by
  rw [decode?_dict, Option.map_eq_some_iff]
  simp only [decode?_eq_some_iff, eq_comm (b := d)]

/-! ## Counts and lengths beyond the bytes -/

/-- A word before the bytes is read as a length that is at least its number, and leaves at most these bytes. -/
theorem le_of_readLength? {w n : Nat} {bs' : List UInt8} (hw : w < 2 ^ 64)
    (h : readLength? (Bytes.ofNatLE 8 w ++ bs) = some (n, bs')) : w ≤ n ∧ bs'.length ≤ bs.length := by
  rw [readLength?_word hw] at h
  split at h
  · next hfull =>
    obtain ⟨⟨m, bs''⟩, hread, heq⟩ := Option.map_eq_some_iff.1 h
    cases heq
    rw [readLength?_eq_some_iff.1 hread]
    simp
    omega
  · cases h
    simp

/-- A text whose length goes beyond the bytes is none. -/
theorem readText?_eq_none {w : Nat} (hw : w < 2 ^ 64) (hbeyond : bs.length < w) :
    readText? (Bytes.ofNatLE 8 w ++ bs) = none := by
  rw [readText?]
  cases hread : readLength? (Bytes.ofNatLE 8 w ++ bs) with
  | none => rfl
  | some r =>
    obtain ⟨n, bs'⟩ := r
    obtain ⟨hle, hshort⟩ := le_of_readLength? hw hread
    exact if_neg (by omega)

theorem le_length_encodeLength (n : Nat) : 8 ≤ (encodeLength n).length := by
  simp [encodeLength, Bytes.length_ofNatLE]

theorem mul_length_le_length_flatMap [Record α] {size : Nat} (hsize : ∀ a : α, size ≤ (encode a).length)
    (as : List α) : size * as.length ≤ (as.flatMap encode).length := by
  induction as with
  | nil => simp
  | cons a as ih =>
    have hfirst := hsize a
    simp only [List.length_cons, List.flatMap_cons, List.length_append, Nat.mul_succ]
    omega

theorem readMany?_append [Record α] [LawfulRecord α] (done : List α) (n : Nat) (bs : List UInt8) :
    readMany? read? (done.length + n) (done.flatMap encode ++ bs) =
      (readMany? read? n bs).map fun (as, rest) => (done ++ as, rest) := by
  induction done with
  | nil => simp
  | cons a done ih =>
    rw [List.length_cons, Nat.add_right_comm, List.flatMap_cons, List.append_assoc, readMany?,
      LawfulRecord.read?_encode]
    simp only [Option.bind_eq_bind, Option.bind_some, ih]
    cases (readMany? read? n bs : Option (List α × List UInt8)) with
    | none => rfl
    | some r => rfl

/-- The bytes of a list end before what they declare does. There are too few of them for the number of items, where each
takes at least `size` bytes, or for the text at the start of the item that follows the items `done`. -/
inductive Overlong (α : Type) [Record α] (size : Nat) : List UInt8 → Prop
  | items {count : Nat} {bs : List UInt8} (hcount : count < 2 ^ 64) (hbeyond : bs.length < size * count) :
      Overlong α size (Bytes.ofNatLE 8 count ++ bs)
  | text {count length : Nat} {done : List α} {bs : List UInt8} (hdone : done.length < count)
      (hlength : length < 2 ^ 64) (hbeyond : bs.length < length) :
      Overlong α size (encodeLength count ++ (done.flatMap encode ++ (Bytes.ofNatLE 8 length ++ bs)))

/-- A list that ends before what it declares is none. -/
theorem Overlong.decode?_eq_none [Record α] [CanonicalRecord α] {size : Nat}
    (hsize : ∀ a : α, size ≤ (encode a).length)
    (htext : ∀ bs, readText? bs = none → (read? bs : Option (α × List UInt8)) = none) (h : Overlong α size bs) :
    (decode? bs : Option (List α)) = none := by
  have hread : (readList? bs : Option (List α × List UInt8)) = none := by
    cases h with
    | @items count bs hcount hbeyond =>
      rw [Option.eq_none_iff_forall_ne_some]
      rintro ⟨as, rest⟩ hread
      simp only [readList?, Option.bind_eq_bind, Option.bind_eq_some_iff, Prod.exists] at hread
      obtain ⟨n, bs', hlength, hmany⟩ := hread
      obtain ⟨hle, hshort⟩ := le_of_readLength? hcount hlength
      obtain ⟨rfl, rfl⟩ := readMany?_eq_some hmany
      have hitems := mul_length_le_length_flatMap hsize as
      have hcount' : size * count ≤ size * as.length := Nat.mul_le_mul_left size hle
      rw [List.length_append] at hshort
      omega
    | @text count length done bs hdone hlength hbeyond =>
      obtain ⟨k, rfl⟩ := Nat.exists_eq_add_of_lt hdone
      rw [readList?, readLength?_encodeLength]
      show readMany? read? (done.length + (k + 1)) _ = none
      rw [readMany?_append, readMany?, htext _ (readText?_eq_none hlength hbeyond)]
      rfl
  exact congrArg (Option.map Prod.fst) hread

theorem le_length_encode_text (s : String) : 8 ≤ (encode s).length := by
  show 8 ≤ (encodeText s).length
  have := le_length_encodeLength (Utf8.encode s).length
  rw [encodeText, List.length_append]
  omega

theorem decode?_list_eq_none (h : Overlong String 8 bs) : (decode? bs : Option (List String)) = none :=
  h.decode?_eq_none le_length_encode_text fun _ => id

theorem decode?_dict_eq_none (h : Overlong (String × UInt64) 16 bs) :
    (decode? bs : Option (Dict String UInt64)) = none := by
  have hentries : (decode? bs : Option (List (String × UInt64))) = none := by
    refine h.decode?_eq_none ?_ ?_
    · intro e
      have hkey := le_length_encode_text e.1
      show 16 ≤ (encode e.1 ++ Bytes.ofNatLE 8 e.2.toNat).length
      rw [List.length_append, Bytes.length_ofNatLE]
      omega
    · intro bs hnone
      show readPair? bs = none
      simp only [readPair?]
      rw [show (read? bs : Option (String × List UInt8)) = none from hnone]
      rfl
  rw [decode?_dict, hentries, Option.map_none]

end Record

end Invoicing
