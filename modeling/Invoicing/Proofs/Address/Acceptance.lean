import Invoicing.Proofs.Address
import Invoicing.Proofs.LowerCase

set_option autoImplicit false

/-! # Which texts are addresses

A text is valid exactly if it is `0x` and forty digits, all letters in one case or each in the case that EIP-55 gives it
(`Address.validity_exact`). EIP-55 looks at the digest of the digits in lowercase, and so the spelling with the checksum
is the same for all spellings of an address. -/

namespace Invoicing

/-! ## The case of letters -/

namespace Letter

/-- A character that is not plain has no other case here. -/
theorem toUpper_of_not_plain {c : Char} (h : ¬ c.toNat < 0x80) : c.toUpper = c := by
  refine dif_neg fun hlower => h ?_
  have hle : c.toNat ≤ 'z'.toNat := UInt32.le_iff_toNat_le.1 hlower.2
  exact Nat.lt_of_le_of_lt hle (by decide)

theorem toLower_toUpper (c : Char) : c.toUpper.toLower = c.toLower := by
  by_cases hc : c.toNat < 0x80
  · have hplain : ∀ n < 0x80, (Char.ofNat n).toUpper.toLower = (Char.ofNat n).toLower := by decide
    have h := hplain c.toNat hc
    rwa [Char.ofNat_toNat] at h
  · rw [toUpper_of_not_plain hc]

theorem toUpper_toLower (c : Char) : c.toLower.toUpper = c.toUpper :=
  LowerCase.apply_toLower Char.toUpper (by decide) c

theorem toLower_eq_self_iff (c : Char) : c.toLower = c ↔ c.isUpper = false := by
  unfold Char.toLower Char.isUpper
  split
  · next h => simpa [Char.ext_iff] using h
  · next h => simpa using h

theorem toUpper_eq_self_iff (c : Char) : c.toUpper = c ↔ c.isLower = false := by
  unfold Char.toUpper Char.isLower
  split
  · next h => simpa [Char.ext_iff] using h
  · next h => simpa using h

theorem eq_map_iff {f : Char → Char} {cs : List Char} : cs = cs.map f ↔ ∀ c ∈ cs, f c = c := by
  induction cs with
  | nil => simp
  | cons c cs ih => simp [← ih, eq_comm (a := c)]

end Letter

namespace Hex

theorem isDigit_iff {c : Char} :
    isDigit c = true ↔ ('0' ≤ c ∧ c ≤ '9') ∨ ('a' ≤ c ∧ c ≤ 'f') ∨ ('A' ≤ c ∧ c ≤ 'F') := by
  by_cases hdecimal : '0' ≤ c ∧ c ≤ '9'
  · simp [isDigit, value?, hdecimal]
  · by_cases hlower : 'a' ≤ c ∧ c ≤ 'f'
    · simp [isDigit, value?, hdecimal, hlower]
    · simp [isDigit, value?, hdecimal, hlower]

theorem isDigit_toLower (c : Char) : isDigit c.toLower = isDigit c :=
  LowerCase.apply_toLower isDigit (by decide) c

theorem all_isDigit_map_toLower (cs : List Char) : (cs.map Char.toLower).all isDigit = cs.all isDigit := by
  simp [List.all_map, Function.comp_def, isDigit_toLower]

end Hex

/-- A bit of some bytes. The bits are counted from the highest of the first byte on. -/
def Bytes.bit (bs : List UInt8) (i : Nat) : Bool := (bs.getD (i / 8) 0).toNat.testBit (7 - i % 8)

namespace Address

/-- Digits are in a single case exactly if they are their own spelling in it. -/
theorem isMixedCase_eq_false_iff {digits : List Char} :
    isMixedCase digits = false ↔ digits = digits.map Char.toLower ∨ digits = digits.map Char.toUpper := by
  simp only [isMixedCase, Bool.and_eq_false_iff, List.any_eq_false, Bool.not_eq_true, Letter.eq_map_iff,
    Letter.toLower_eq_self_iff, Letter.toUpper_eq_self_iff]
  exact or_comm

/-! ## The spelling of EIP-55 -/

/-- A letter is a capital if the bit at four times its place is set in the digest of the digits in lowercase. -/
def eip55 (digits : List Char) : List Char :=
  let digest := Keccak.digestText (String.ofList (digits.map Char.toLower))
  digits.mapIdx fun i c => if Bytes.bit digest.bytes (4 * i) then c.toUpper else c.toLower

/-- A digit of a digest is at least eight exactly if its first bit is set. -/
theorem le_nibbles_iff (bs : List UInt8) (i : Nat) (hi : i < (nibbles bs).length) :
    8 ≤ (nibbles bs)[i] ↔ Bytes.bit bs (4 * i) = true := by
  induction bs generalizing i with
  | nil => simp [nibbles] at hi
  | cons b bs ih =>
    have hb : b.toNat < 256 := b.toNat_lt
    -- The first two digits are the halves of the first byte.
    rcases i with _ | _ | i
    · simp [nibbles, Bytes.bit, Nat.testBit_eq_decide_div_mod_eq]
      omega
    · simp [nibbles, Bytes.bit, Nat.testBit_eq_decide_div_mod_eq]
      omega
    · have hnext : 4 * (i + 2) = 4 * i + 8 := by omega
      have hi' : i < (nibbles bs).length := by simpa [nibbles] using hi
      simpa [nibbles, Bytes.bit, hnext] using ih i hi'

theorem checksumDigits_eq_eip55 {digits : List Char} (h : digits.length ≤ 64) :
    checksumDigits digits = eip55 digits := by
  refine List.ext_getElem ?_ ?_
  · simp [checksumDigits, eip55, length_nibbles, Octets.length_eq]
    omega
  · intro i hi hi'
    simp only [checksumDigits, eip55, List.getElem_zipWith, List.getElem_mapIdx, List.getElem_map, le_nibbles_iff,
      Letter.toUpper_toLower]

/-- Only the digits in lowercase matter. -/
theorem checksumDigits_congr {digits digits' : List Char} (h : digits.map Char.toLower = digits'.map Char.toLower) :
    checksumDigits digits = checksumDigits digits' := by
  simp only [checksumDigits, h]

theorem map_toLower_eip55 (digits : List Char) : (eip55 digits).map Char.toLower = digits.map Char.toLower := by
  refine List.ext_getElem (by simp [eip55]) ?_
  intro i hi hi'
  simp only [eip55, List.getElem_map, List.getElem_mapIdx]
  split
  · exact Letter.toLower_toUpper _
  · exact LowerCase.toLower_toLower _

/-! ## What is an address -/

/-- The mark, and after it forty digits whose letters may have any case. -/
structure Spelled (s : String) (digits : List Char) : Prop where
  toList_eq : s.toList = '0' :: 'x' :: digits
  length_eq : digits.length = 40
  isDigit : ∀ c ∈ digits, ('0' ≤ c ∧ c ≤ '9') ∨ ('a' ≤ c ∧ c ≤ 'f') ∨ ('A' ≤ c ∧ c ≤ 'F')

variable {s : String} {digits : List Char}

theorem spelled_iff :
    Spelled s digits ↔ s.toList = '0' :: 'x' :: digits ∧ digits.length = 40 ∧ digits.all Hex.isDigit = true := by
  simp only [List.all_eq_true, Hex.isDigit_iff]
  constructor
  · intro h
    exact ⟨h.toList_eq, h.length_eq, h.isDigit⟩
  · rintro ⟨htext, hlength, hdigits⟩
    exact ⟨htext, hlength, hdigits⟩

theorem digits?_eq_some_iff : digits? s = some digits ↔ Spelled s digits := by
  rw [spelled_iff]
  unfold digits?
  split
  · next digits' hs =>
    simp only [Option.ite_none_right_eq_some, Option.some.injEq, hs, List.cons.injEq, true_and]
    constructor
    · rintro ⟨h, rfl⟩
      exact ⟨rfl, h⟩
    · rintro ⟨rfl, h⟩
      exact ⟨h, rfl⟩
  · next hs =>
    constructor
    · intro h
      cases h
    · rintro ⟨htext, _⟩
      exact absurd htext (hs digits)

/-- The digits may change their case. -/
theorem Spelled.of_map_toLower {t : String} {digits' : List Char} (h : Spelled s digits)
    (htext : t.toList = '0' :: 'x' :: digits') (hlower : digits'.map Char.toLower = digits.map Char.toLower) :
    Spelled t digits' := by
  rw [spelled_iff] at h ⊢
  obtain ⟨-, hlength, hdigits⟩ := h
  refine ⟨htext, ?_, ?_⟩
  · simpa [hlength] using congrArg List.length hlower
  · rw [← Hex.all_isDigit_map_toLower, hlower, Hex.all_isDigit_map_toLower, hdigits]

theorem Spelled.checksum?_eq (h : Spelled s digits) :
    checksum? s = some (String.ofList ('0' :: 'x' :: eip55 digits)) := by
  have hlength : digits.length ≤ 64 := by simp [h.length_eq]
  rw [checksum?, digits?_eq_some_iff.2 h, Option.map_some, checksumDigits_eq_eip55 hlength]

theorem checksum?_eq_some_iff {t : String} :
    checksum? s = some t ↔ ∃ digits, Spelled s digits ∧ t.toList = '0' :: 'x' :: eip55 digits := by
  constructor
  · intro h
    obtain ⟨digits, hdigits, -⟩ := Option.map_eq_some_iff.1 h
    have hs := digits?_eq_some_iff.1 hdigits
    rw [hs.checksum?_eq] at h
    cases h
    exact ⟨digits, hs, String.toList_ofList⟩
  · rintro ⟨digits, hs, ht⟩
    rw [hs.checksum?_eq, ← ht, String.ofList_toList]

theorem Spelled.isValid_iff (h : Spelled s digits) :
    isValid s = true ↔
      digits = digits.map Char.toLower ∨ digits = digits.map Char.toUpper ∨ digits = eip55 digits := by
  have hsame : checksum? s = some s ↔ digits = eip55 digits := by
    rw [h.checksum?_eq, Option.some.injEq, ← String.toList_inj, String.toList_ofList, h.toList_eq]
    simp [eq_comm]
  rw [isValid, digits?_eq_some_iff.2 h]
  simp only [Bool.or_eq_true, Bool.not_eq_true', beq_iff_eq, hsame, isMixedCase_eq_false_iff, or_assoc]

theorem isValid_iff :
    isValid s = true ↔ ∃ digits, Spelled s digits ∧
      (digits = digits.map Char.toLower ∨ digits = digits.map Char.toUpper ∨ digits = eip55 digits) := by
  constructor
  · intro h
    cases hdigits : digits? s with
    | none => simp [isValid, hdigits] at h
    | some digits =>
      have hs := digits?_eq_some_iff.1 hdigits
      exact ⟨digits, hs, hs.isValid_iff.1 h⟩
  · rintro ⟨digits, hs, hcase⟩
    exact hs.isValid_iff.2 hcase

/-! ## Spellings of one address -/

theorem Spelled.eip55_congr {t : String} {digits' : List Char} (h : Spelled s digits) (h' : Spelled t digits')
    (hlower : digits'.map Char.toLower = digits.map Char.toLower) : eip55 digits' = eip55 digits := by
  have hlength : digits.length ≤ 64 := by simp [h.length_eq]
  have hlength' : digits'.length ≤ 64 := by simp [h'.length_eq]
  rw [← checksumDigits_eq_eip55 hlength, ← checksumDigits_eq_eip55 hlength', checksumDigits_congr hlower]

/-- What differs from an address at most in the case of its digits is an address. -/
theorem Spelled.respell {t : String} (h : Spelled s digits) (hsame : same s t = true)
    (hmark : t.toList.take 2 = s.toList.take 2) :
    ∃ digits', Spelled t digits' ∧ digits'.map Char.toLower = digits.map Char.toLower := by
  simp only [same, beq_iff_eq, h.toList_eq] at hsame hmark
  have htext : t.toList = '0' :: 'x' :: t.toList.drop 2 := by
    rw [← List.take_append_drop 2 t.toList, hmark]
    rfl
  rw [htext] at hsame
  have hlower : (t.toList.drop 2).map Char.toLower = digits.map Char.toLower := by simpa [eq_comm] using hsame
  exact ⟨_, h.of_map_toLower htext hlower, hlower⟩

theorem checksum?_of_same {t u : String} (h : checksum? s = some u) (hsame : same s t = true)
    (hmark : t.toList.take 2 = s.toList.take 2) : checksum? t = some u := by
  obtain ⟨digits, hs, hu⟩ := checksum?_eq_some_iff.1 h
  obtain ⟨digits', ht, hlower⟩ := hs.respell hsame hmark
  rw [checksum?_eq_some_iff]
  exact ⟨digits', ht, hs.eip55_congr ht hlower ▸ hu⟩

/-- The spelling with the checksum is one of the same address, and it is its own spelling with the checksum. -/
theorem checksum?_sound {t : String} (h : checksum? s = some t) :
    same s t = true ∧ checksum? t = some t ∧ isValid t = true := by
  obtain ⟨digits, hs, htext⟩ := checksum?_eq_some_iff.1 h
  have hlower := map_toLower_eip55 digits
  have ht := hs.of_map_toLower htext hlower
  have hfixed : eip55 (eip55 digits) = eip55 digits := hs.eip55_congr ht hlower
  refine ⟨?_, ?_, ?_⟩
  · simp [same, hs.toList_eq, htext, hlower]
  · rw [checksum?_eq_some_iff]
    exact ⟨_, ht, hfixed.symm ▸ htext⟩
  · rw [ht.isValid_iff]
    exact .inr (.inr hfixed.symm)

/-- **Acceptance is exact.** A text is valid exactly if it is the mark and forty digits, in lowercase, in uppercase or in the
spelling of EIP-55. The spelling with the checksum is that of EIP-55, and there is one exactly for the mark and forty digits of
any case. Texts that differ only in the case of the letters after the mark have the same one. It differs from the text
at most in case, it is its own spelling with the checksum, and it is valid. -/
theorem validity_exact (s : String) :
    (isValid s = true ↔ ∃ digits, Spelled s digits ∧
      (digits = digits.map Char.toLower ∨ digits = digits.map Char.toUpper ∨ digits = eip55 digits)) ∧
    ((checksum? s).isSome = true ↔ ∃ digits, Spelled s digits) ∧
    (∀ t, checksum? s = some t ↔ ∃ digits, Spelled s digits ∧ t.toList = '0' :: 'x' :: eip55 digits) ∧
    (∀ s', same s s' = true → s'.toList.take 2 = s.toList.take 2 → checksum? s' = checksum? s) ∧
    (∀ t, checksum? s = some t → same s t = true ∧ checksum? t = some t ∧ isValid t = true) := by
  refine ⟨isValid_iff, ?_, fun t => checksum?_eq_some_iff, ?_, fun t => checksum?_sound⟩
  · constructor
    · intro h
      obtain ⟨t, ht⟩ := Option.isSome_iff_exists.1 h
      obtain ⟨digits, hs, -⟩ := checksum?_eq_some_iff.1 ht
      exact ⟨digits, hs⟩
    · rintro ⟨digits, hs⟩
      simp [hs.checksum?_eq]
  · intro s' hsame hmark
    have hsame' : same s' s = true := by
      simp only [same, beq_iff_eq] at hsame ⊢
      exact hsame.symm
    refine Option.ext fun u => ⟨?_, ?_⟩
    · intro h
      exact checksum?_of_same h hsame' hmark.symm
    · intro h
      exact checksum?_of_same h hsame hmark

/-- Both spellings in a single case have the checksum of the one in mixed case. -/
theorem validity_exact_spellings :
    checksum? "0x5aaeb6053f3e94c9b9a09f33669435e7ef1beaed" = some "0x5aAeb6053F3E94C9b9A09f33669435E7Ef1BeAed" ∧
    checksum? "0x5AAEB6053F3E94C9B9A09F33669435E7EF1BEAED" = some "0x5aAeb6053F3E94C9b9A09f33669435E7Ef1BeAed" ∧
    isValid "0x5aAeb6053F3E94C9b9A09f33669435E7Ef1BeAed" = true := by
  have hlower : checksum? "0x5aaeb6053f3e94c9b9a09f33669435e7ef1beaed" =
      some "0x5aAeb6053F3E94C9b9A09f33669435E7Ef1BeAed" := by decide +kernel
  obtain ⟨-, -, -, hcase, hsound⟩ := validity_exact "0x5aaeb6053f3e94c9b9a09f33669435e7ef1beaed"
  refine ⟨hlower, ?_, ?_⟩
  · rw [hcase "0x5AAEB6053F3E94C9B9A09F33669435E7EF1BEAED" (by decide +kernel) (by decide +kernel), hlower]
  · exact (hsound _ hlower).2.2

end Address

end Invoicing
