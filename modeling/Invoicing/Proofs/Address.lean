import Invoicing.Address

set_option autoImplicit false

/-! # Spellings of addresses

A spelling in lowercase tells the address, and the checksum changes nothing but the case of letters
(`Address.toLower_checksummed`). So two addresses with one spelling up to case are the same. -/

namespace Invoicing

namespace Hex

theorem isDigit_digitChar : ∀ n < 16, isDigit (Nat.digitChar n) = true := by decide

theorem toLower_digitChar : ∀ n < 16, (Nat.digitChar n).toLower = Nat.digitChar n := by decide

theorem toLower_toUpper_digitChar : ∀ n < 16, (Nat.digitChar n).toUpper.toLower = Nat.digitChar n := by
  decide

/-- Every character that is written is the digit of a number below 16. -/
theorem mem_encode {bs : List UInt8} {c : Char} (h : c ∈ encode bs) : ∃ n < 16, c = Nat.digitChar n := by
  induction bs with
  | nil => simp [encode] at h
  | cons b rest ih =>
    have hb : b.toNat < 256 := b.toNat_lt
    simp only [encode, List.mem_cons] at h
    rcases h with rfl | rfl | h
    · exact ⟨_, by omega, rfl⟩
    · exact ⟨_, by omega, rfl⟩
    · exact ih h

theorem all_isDigit_encode (bs : List UInt8) : (encode bs).all isDigit = true := by
  refine List.all_eq_true.2 fun c hc => ?_
  obtain ⟨n, hn, rfl⟩ := mem_encode hc
  exact isDigit_digitChar n hn

theorem pairs_encode (bs : List UInt8) : pairs (encode bs) = bs := by
  induction bs with
  | nil => rfl
  | cons b rest ih =>
    have hb : b.toNat < 256 := b.toNat_lt
    rw [encode, pairs, ih, value?_digitChar (b.toNat / 16) (by omega), value?_digitChar (b.toNat % 16) (by omega),
      Option.getD_some, Option.getD_some, Nat.div_add_mod, UInt8.ofNat_toNat]

theorem map_toLower_encode (bs : List UInt8) : (encode bs).map Char.toLower = encode bs := by
  refine (List.map_congr_left fun c hc => ?_).trans (List.map_id _)
  obtain ⟨n, hn, rfl⟩ := mem_encode hc
  exact toLower_digitChar n hn

end Hex

namespace Octets

variable {n : Nat}

theorem render_injective {a b : Octets n} (h : a.render = b.render) : a = b := by
  have hdigits : Hex.encode a.bytes = Hex.encode b.bytes := by
    simpa [render] using congrArg String.toList h
  have hbytes := congrArg Hex.decode? hdigits
  rw [Hex.decode?_encode, Hex.decode?_encode] at hbytes
  exact Octets.ext (Option.some.inj hbytes)

@[simp] theorem ofText?_render (a : Octets n) : ofText? a.render = some a := by
  have hbody : Hex.dropMark a.render.toList = Hex.encode a.bytes := by
    rw [render, String.toList_ofList]
    rfl
  have hdigits := List.all_eq_true.1 (Hex.all_isDigit_encode a.bytes)
  have hlength : (Hex.encode a.bytes).length = 2 * n := by rw [Hex.length_encode, a.length_eq]
  have hall : (Hex.encode a.bytes).all (fun c => Hex.isDigit c || Json.Token.isBlank c) = true :=
    List.all_eq_true.2 fun c hc => by rw [hdigits c hc, Bool.true_or]
  -- No character is left out, so there is nothing to fill up with zeros.
  rw [ofText?, hbody, if_pos ⟨hlength, hall⟩, List.filter_eq_self.2 hdigits, Hex.pairs_encode]
  show ofList? (a.bytes ++ List.replicate (n - a.bytes.length) 0) = some a
  rw [a.length_eq, Nat.sub_self, List.replicate_zero, List.append_nil, ofList?_bytes]

/-- An address is written in lowercase. -/
theorem toLower_render (a : Octets n) : a.render.toList.map Char.toLower = a.render.toList := by
  simp [render, Hex.map_toLower_encode]

end Octets

namespace Address

theorem length_nibbles (bs : List UInt8) : (nibbles bs).length = 2 * bs.length := by
  induction bs with
  | nil => rfl
  | cons b rest ih => simp [nibbles, ih]; omega

theorem digits?_render (a : Address) : digits? a.render = some (Hex.encode a.bytes) := by
  have hlength : (Hex.encode a.bytes).length = 40 := by rw [Hex.length_encode, a.length_eq]
  rw [digits?, Octets.render, String.toList_ofList]
  exact if_pos ⟨hlength, Hex.all_isDigit_encode a.bytes⟩

/-- Some letters become capitals, and in lowercase they are what they were. -/
theorem toLower_zipWith_toUpper (cs : List Char) (ns : List Nat) (hlength : cs.length ≤ ns.length)
    (hdigits : ∀ c ∈ cs, ∃ n < 16, c = Nat.digitChar n) :
    (List.zipWith (fun c n => if 8 ≤ n then c.toUpper else c) cs ns).map Char.toLower = cs := by
  induction cs generalizing ns with
  | nil => rfl
  | cons c cs ih =>
    cases ns with
    | nil => simp at hlength
    | cons n ns =>
      have hhead : (if 8 ≤ n then c.toUpper else c).toLower = c := by
        obtain ⟨d, hd, rfl⟩ := hdigits c List.mem_cons_self
        split
        · exact Hex.toLower_toUpper_digitChar d hd
        · exact Hex.toLower_digitChar d hd
      rw [List.zipWith_cons_cons, List.map_cons, hhead,
        ih ns (Nat.le_of_succ_le_succ hlength) fun c' hc' => hdigits c' (List.mem_cons_of_mem c hc')]

/-- **The checksum changes nothing but the case of letters.** -/
theorem toLower_checksummed (a : Address) :
    (checksummed a).toList.map Char.toLower = a.render.toList := by
  -- The digest has more digits than the address, so no digit is cut off.
  have hlength : (Hex.encode a.bytes).length ≤
      (nibbles (Keccak.digestText (String.ofList (Hex.encode a.bytes))).bytes).length := by
    rw [length_nibbles, Hex.length_encode, a.length_eq, Octets.length_eq]
    decide
  have hdigits : (checksumDigits (Hex.encode a.bytes)).map Char.toLower = Hex.encode a.bytes := by
    simp only [checksumDigits, Hex.map_toLower_encode]
    exact toLower_zipWith_toUpper _ _ hlength fun c hc => Hex.mem_encode hc
  rw [checksummed, checksum?, digits?_render, Option.map_some, Option.getD_some, String.toList_ofList,
    Octets.render, String.toList_ofList, List.map_cons, List.map_cons, hdigits]
  rfl

theorem checksummed_injective {a b : Address} (h : checksummed a = checksummed b) : a = b := by
  have htext := congrArg (fun s => s.toList.map Char.toLower) h
  simp only [toLower_checksummed] at htext
  exact Octets.render_injective (String.toList_inj.1 htext)

theorem same_checksummed (a : Address) (s : String) : same (checksummed a) s = same a.render s := by
  rw [same, same, toLower_checksummed, Octets.toLower_render]

/-- Two spellings of one text are spellings of each other. -/
theorem same_of_same {a b c : String} (hb : same a b = true) (hc : same a c = true) : same b c = true := by
  simp only [same, beq_iff_eq] at *
  exact hb.symm.trans hc

/-- A text spells one address at most. -/
theorem eq_of_same {a b : Address} {s : String} (ha : same a.render s = true) (hb : same b.render s = true) :
    a = b := by
  simp only [same, Octets.toLower_render, beq_iff_eq] at ha hb
  exact Octets.render_injective (String.toList_inj.1 (ha.trans hb.symm))

end Address

end Invoicing
