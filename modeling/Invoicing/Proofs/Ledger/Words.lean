import Invoicing.Proofs.Ledger

set_option autoImplicit false

/-! # Log data and what it spells

The data of a log spells a transfer exactly if it starts with the four words of that transfer
(`Conversion.decode?_eq_some_iff`, `Transfer.decode?_eq_some_iff`). It spells none if a word is missing or an address is
not filled up with zeros, and for no other reason (`Word.words_roundTrip`). -/

namespace Invoicing

/-! ## Words -/

namespace Word

variable {bs rest : List UInt8}

theorem amount?_eq_some_iff {a : Amount} : amount? bs = some (a, rest) ↔ bs = ofAmount a ++ rest := by
  constructor
  · intro h
    unfold amount? at h
    split at h
    · next hle =>
      obtain ⟨rfl, rfl⟩ := Prod.mk.inj (Option.some.inj h)
      have hlength : (bs.take size).length = size := List.length_take_of_le hle
      have hword := Bytes.ofNatBE_toNatBE (bs.take size)
      rw [hlength] at hword
      rw [ofAmount, hword, List.take_append_drop]
    · cases h
  · rintro rfl
    exact amount?_append a rest

theorem address?_eq_some_iff {a : Address} : address? bs = some (a, rest) ↔ bs = ofAddress a ++ rest := by
  constructor
  · intro h
    unfold address? at h
    split at h
    · next hle =>
      split at h
      · next hpadding =>
        obtain ⟨rfl, rfl⟩ := Prod.mk.inj (Option.some.inj h)
        have hfirst : (bs.take size).take padding.length = padding := by
          rw [List.take_take, Nat.min_eq_left (by decide), hpadding]
        symm
        calc padding ++ (bs.take size).drop padding.length ++ bs.drop size
            = (bs.take size).take padding.length ++ (bs.take size).drop padding.length ++ bs.drop size := by rw [hfirst]
          _ = bs := by rw [List.take_append_drop, List.take_append_drop]
      · cases h
    · cases h
  · rintro rfl
    exact address?_append a rest

theorem exists_ofAmount (bs : List UInt8) (h : 32 ≤ bs.length) :
    ∃ a rest, bs = ofAmount a ++ rest ∧ bs.length = 32 + rest.length := by
  have hword := amount?_eq_some_iff.1 (dif_pos h)
  refine ⟨_, _, hword, ?_⟩
  rw [List.length_drop, size]
  omega

theorem exists_ofAddress (bs : List UInt8) (h : 32 ≤ bs.length) (hzero : ∀ b ∈ bs.take 12, b = 0) :
    ∃ a rest, bs = ofAddress a ++ rest ∧ bs.length = 32 + rest.length := by
  have hpadding : bs.take padding.length = padding := by
    refine List.eq_replicate_iff.2 ⟨?_, hzero⟩
    rw [List.length_take]
    exact Nat.min_eq_left (Nat.le_trans (by decide) h)
  have hword := address?_eq_some_iff.1 ((dif_pos h).trans (if_pos hpadding))
  refine ⟨_, _, hword, ?_⟩
  rw [List.length_drop, size]
  omega

theorem drop_ofAmount (a : Amount) (rest : List UInt8) : (ofAmount a ++ rest).drop 32 = rest :=
  List.drop_left' (length_ofAmount a)

theorem eq_zero_of_mem_ofAddress {a : Address} {b : UInt8} (hb : b ∈ (ofAddress a ++ rest).take 12) : b = 0 := by
  have hlength : padding.length = 12 := List.length_replicate
  rw [ofAddress, List.append_assoc, ← hlength, List.take_left] at hb
  exact List.eq_of_mem_replicate hb

/-- Values are written as a row of four words, with addresses at some positions. Data spells a value exactly if it starts
with the words of the value, and it spells one unless it is too short or an address is not filled up with zeros. -/
structure RoundTrip {α : Type} (encode : α → List UInt8) (decode? : List UInt8 → Option α) (addresses : List Nat) :
    Prop where
  decode?_encode_append (t : α) (rest : List UInt8) : decode? (encode t ++ rest) = some t
  encode_eq_take (data : List UInt8) (t : α) : decode? data = some t → encode t = data.take 128
  decode?_eq_none_iff (data : List UInt8) :
    decode? data = none ↔ data.length < 128 ∨ ∃ i ∈ addresses, ∃ b ∈ (data.drop (32 * i)).take 12, b ≠ 0

/-- It is enough to know what is spelled by some words, and that nothing else keeps data from spelling a value. -/
theorem RoundTrip.of {α : Type} {encode : α → List UInt8} {decode? : List UInt8 → Option α} {addresses : List Nat}
    (hread : ∀ data t, decode? data = some t ↔ ∃ rest, data = encode t ++ rest)
    (hlength : ∀ t, (encode t).length = 128)
    (hzero : ∀ t rest, ∀ i ∈ addresses, ∀ b ∈ ((encode t ++ rest).drop (32 * i)).take 12, b = 0)
    (hexists : ∀ data, 128 ≤ data.length → (∀ i ∈ addresses, ∀ b ∈ (data.drop (32 * i)).take 12, b = 0) →
      ∃ t rest, data = encode t ++ rest) : RoundTrip encode decode? addresses where
  decode?_encode_append t rest := (hread _ t).2 ⟨rest, rfl⟩
  encode_eq_take data t h := by
    obtain ⟨rest, rfl⟩ := (hread data t).1 h
    rw [← hlength t, List.take_left]
  decode?_eq_none_iff data := by
    constructor
    · intro hnone
      by_cases hshort : data.length < 128
      · exact .inl hshort
      · refine .inr (Classical.byContradiction fun hclean => ?_)
        simp only [not_exists, not_and, Decidable.not_not, ne_eq] at hclean
        obtain ⟨t, rest, hdata⟩ := hexists data (Nat.not_lt.1 hshort) hclean
        rw [(hread data t).2 ⟨rest, hdata⟩] at hnone
        cases hnone
    · intro hbad
      cases hdecode : decode? data with
      | none => rfl
      | some t =>
        obtain ⟨rest, rfl⟩ := (hread data t).1 hdecode
        rcases hbad with hshort | ⟨i, hi, b, hb, hne⟩
        · rw [List.length_append, hlength] at hshort
          omega
        · exact absurd (hzero t rest i hi b hb) hne

end Word

/-! ## Logs -/

open Word

variable {data : List UInt8}

namespace Conversion

theorem decode?_eq_some_iff {c : Conversion} : decode? data = some c ↔ ∃ rest, data = c.encode ++ rest := by
  obtain ⟨amount, currency, feeAmount, maxRateTimespan⟩ := c
  simp only [decode?, encode, Option.bind_eq_bind, Option.bind_eq_some_iff, Prod.exists, amount?_eq_some_iff,
    address?_eq_some_iff, Option.pure_def, Option.some.injEq, mk.injEq, List.append_assoc]
  constructor
  · rintro ⟨_, _, rfl, _, _, rfl, _, _, rfl, _, rest, rfl, rfl, rfl, rfl, rfl⟩
    exact ⟨rest, rfl⟩
  · rintro ⟨rest, rfl⟩
    exact ⟨_, _, rfl, _, _, rfl, _, _, rfl, _, rest, rfl, rfl, rfl, rfl, rfl⟩

theorem length_encode (c : Conversion) : c.encode.length = 128 := by
  simp [encode, length_ofAmount, length_ofAddress, size]

theorem exists_encode (h : 128 ≤ data.length) (hcurrency : ∀ b ∈ (data.drop 32).take 12, b = 0) :
    ∃ (c : Conversion) (rest : List UInt8), data = c.encode ++ rest := by
  obtain ⟨amount, data, rfl, h₁⟩ := exists_ofAmount data (by omega)
  rw [drop_ofAmount] at hcurrency
  obtain ⟨currency, data, rfl, h₂⟩ := exists_ofAddress data (by omega) hcurrency
  obtain ⟨feeAmount, data, rfl, h₃⟩ := exists_ofAmount data (by omega)
  obtain ⟨maxRateTimespan, rest, rfl, -⟩ := exists_ofAmount data (by omega)
  exact ⟨⟨amount, currency, feeAmount, maxRateTimespan⟩, rest, by simp [encode]⟩

theorem roundTrip : RoundTrip encode decode? [1] := by
  refine .of (fun _ _ => decode?_eq_some_iff) length_encode ?_ ?_
  · intro c rest i hi b hb
    rw [List.mem_singleton.1 hi, encode, List.append_assoc, List.append_assoc, List.append_assoc, Nat.mul_one,
      drop_ofAmount] at hb
    exact eq_zero_of_mem_ofAddress hb
  · intro data hlength hzero
    exact exists_encode hlength (hzero 1 (List.mem_singleton_self 1))

end Conversion

namespace Transfer

theorem decode?_eq_some_iff {t : Transfer} : decode? data = some t ↔ ∃ rest, data = t.encode ++ rest := by
  obtain ⟨recipient, amount, feeAmount, feeAddress⟩ := t
  simp only [decode?, encode, Option.bind_eq_bind, Option.bind_eq_some_iff, Prod.exists, amount?_eq_some_iff,
    address?_eq_some_iff, Option.pure_def, Option.some.injEq, mk.injEq, List.append_assoc]
  constructor
  · rintro ⟨_, _, rfl, _, _, rfl, _, _, rfl, _, rest, rfl, rfl, rfl, rfl, rfl⟩
    exact ⟨rest, rfl⟩
  · rintro ⟨rest, rfl⟩
    exact ⟨_, _, rfl, _, _, rfl, _, _, rfl, _, rest, rfl, rfl, rfl, rfl, rfl⟩

theorem length_encode (t : Transfer) : t.encode.length = 128 := by
  simp [encode, length_ofAmount, length_ofAddress, size]

theorem exists_encode (h : 128 ≤ data.length) (hrecipient : ∀ b ∈ data.take 12, b = 0)
    (hfeeAddress : ∀ b ∈ (data.drop 96).take 12, b = 0) :
    ∃ (t : Transfer) (rest : List UInt8), data = t.encode ++ rest := by
  obtain ⟨recipient, data, rfl, h₁⟩ := exists_ofAddress data (by omega) hrecipient
  obtain ⟨amount, data, rfl, h₂⟩ := exists_ofAmount data (by omega)
  obtain ⟨feeAmount, data, rfl, h₃⟩ := exists_ofAmount data (by omega)
  have hbefore : (ofAddress recipient ++ ofAmount amount ++ ofAmount feeAmount).length = 96 := by
    simp [length_ofAmount, length_ofAddress, size]
  rw [← List.append_assoc, ← List.append_assoc, List.drop_left' hbefore] at hfeeAddress
  obtain ⟨feeAddress, rest, rfl, -⟩ := exists_ofAddress data (by omega) hfeeAddress
  exact ⟨⟨recipient, amount, feeAmount, feeAddress⟩, rest, by simp [encode]⟩

theorem roundTrip : RoundTrip encode decode? [0, 3] := by
  refine .of (fun _ _ => decode?_eq_some_iff) length_encode ?_ ?_
  · intro t rest i hi b hb
    simp only [List.mem_cons, List.not_mem_nil, or_false] at hi
    rcases hi with rfl | rfl
    · rw [encode, List.append_assoc, List.append_assoc, List.append_assoc, Nat.mul_zero, List.drop_zero] at hb
      exact eq_zero_of_mem_ofAddress hb
    · have hbefore : (ofAddress t.recipient ++ ofAmount t.amount ++ ofAmount t.feeAmount).length = 96 := by
        simp [length_ofAmount, length_ofAddress, size]
      rw [encode, List.append_assoc, List.drop_left' hbefore] at hb
      exact eq_zero_of_mem_ofAddress hb
  · intro data hlength hzero
    exact exists_encode hlength (hzero 0 (by simp)) (hzero 3 (by simp))

end Transfer

/-- **What the data of a log spells.** Both kinds of transfers are read back from what was written, whatever bytes follow.
What is read is written at the start of the data, word for word. Data spells no transfer exactly if it has fewer than
128 bytes or one of the first twelve bytes of an address is set: the currency in the second word of a conversion, and the
addresses in the first and the last word of a transfer. -/
theorem Word.words_roundTrip :
    RoundTrip Conversion.encode Conversion.decode? [1] ∧ RoundTrip Transfer.encode Transfer.decode? [0, 3] :=
  ⟨Conversion.roundTrip, Transfer.roundTrip⟩

end Invoicing
