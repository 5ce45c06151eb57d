import Invoicing.Json.Fields
import Invoicing.Proofs.Json.Tree

set_option autoImplicit false

/-! # Values with a written form

`LawfulWire` is the law of `Wire`: what is written is a well-formed tree other than `null`, and reading takes it
back. It holds of texts, whole numbers, lists and maps. A record inherits it from its fields (`LawfulWire.ofRecord`), as
the simp lemmas here find each field among those that were written. -/

namespace Invoicing

namespace Json

/-! ## Printable trees -/

theorem printable_elementTokens {elements : List Json} (h : ∀ v ∈ elements, v.Printable) :
    ∀ t ∈ elementTokens elements, t.Printable := by
  induction elements with
  | nil =>
    rw [elementTokens]
    rintro t (_ | ⟨_, ⟨⟩⟩)
    trivial
  | cons v rest ih =>
    have hv := h v List.mem_cons_self
    have hrest := ih fun w hw => h w (List.mem_cons_of_mem v hw)
    cases rest with
    | nil =>
      rw [elementTokens]
      intro t ht
      rcases List.mem_append.1 ht with ht | ht
      · exact hv t ht
      · rw [List.mem_singleton.1 ht]
        trivial
    | cons w rest =>
      rw [elementTokens]
      · intro t ht
        rcases List.mem_append.1 ht with ht | ht
        · exact hv t ht
        · rcases List.mem_cons.1 ht with rfl | ht
          · trivial
          · exact hrest t ht
      · exact List.cons_ne_nil w rest

theorem printable_memberTokens {members : List (List Char × Json)}
    (h : ∀ m ∈ members, Text.IsBody m.1 ∧ m.2.Printable) : ∀ t ∈ memberTokens members, t.Printable := by
  induction members with
  | nil =>
    rw [memberTokens]
    rintro t (_ | ⟨_, ⟨⟩⟩)
    trivial
  | cons member rest ih =>
    obtain ⟨key, v⟩ := member
    obtain ⟨hkey, hv⟩ := h (key, v) List.mem_cons_self
    have hrest := ih fun m hm => h m (List.mem_cons_of_mem _ hm)
    -- Whatever comes after the value, the key and the colon come first.
    have hcons {ts : List Token} (hts : ∀ t ∈ ts, t.Printable) :
        ∀ t ∈ Token.text key :: .colon :: (v.tokens ++ ts), t.Printable := by
      simp only [List.mem_cons, List.mem_append]
      rintro t (rfl | rfl | ht | ht)
      · exact hkey
      · trivial
      · exact hv t ht
      · exact hts t ht
    cases rest with
    | nil =>
      rw [memberTokens]
      refine hcons fun t ht => ?_
      rw [List.mem_singleton.1 ht]
      trivial
    | cons m rest =>
      rw [memberTokens]
      · refine hcons fun t ht => ?_
        rcases List.mem_cons.1 ht with rfl | ht
        · trivial
        · exact hrest t ht
      · nofun

theorem printable_array {elements : List Json} (h : ∀ v ∈ elements, v.Printable) :
    (array elements).Printable := by
  intro t ht
  rw [tokens] at ht
  rcases List.mem_cons.1 ht with rfl | ht
  · trivial
  · exact printable_elementTokens h t ht

theorem printable_object {members : List (List Char × Json)}
    (h : ∀ m ∈ members, Text.IsBody m.1 ∧ m.2.Printable) : (object members).Printable := by
  intro t ht
  rw [tokens] at ht
  rcases List.mem_cons.1 ht with rfl | ht
  · trivial
  · exact printable_memberTokens h t ht

theorem printable_ofText (s : String) : (ofText s).Printable := by
  intro t ht
  rw [ofText, tokens] at ht
  rw [List.mem_singleton.1 ht]
  exact Text.isBody_escape _

/-! ## Numbers -/

namespace Number

/-- A positive number is written without a leading zero. -/
theorem ofNat_eq_cons {n : Nat} (hn : 0 < n) : ∃ c cs, ofNat n = c :: cs ∧ c ≠ '0' := by
  induction n using Nat.strongRecOn with
  | ind n ih =>
    by_cases hlt : n < 10
    · refine ⟨_, _, Nat.toDigits_of_lt_base hlt, ?_⟩
      have hdigit : ∀ m < 10, 0 < m → Nat.digitChar m ≠ '0' := by decide
      exact hdigit n hlt hn
    · obtain ⟨c, cs, hc, hne⟩ := ih (n / 10) (by omega) (by omega)
      refine ⟨c, cs ++ [Nat.digitChar (n % 10)], ?_, hne⟩
      rw [ofNat, Nat.toDigits_of_base_le (by decide) (by omega), ← ofNat, hc, List.cons_append]

theorem isLexeme_ofNat (n : Nat) : isLexeme (ofNat n) = true := by
  by_cases hn : n = 0
  · rw [hn]
    decide
  · obtain ⟨c, cs, hofNat, hzero⟩ := ofNat_eq_cons (Nat.pos_of_ne_zero hn)
    have hdigits : ∀ c' ∈ c :: cs, c'.isDigit = true := fun c' hc' => isDigit_of_mem_ofNat (hofNat ▸ hc')
    have hc := hdigits c List.mem_cons_self
    have hsign : skipSign (c :: cs) = c :: cs := by
      unfold skipSign
      split
      · next heq =>
        rw [(List.cons.inj heq).1] at hc
        cases hc
      · rfl
    have hwhole : skipWhole? (c :: cs) = some [] := by
      unfold skipWhole?
      split
      · next heq => exact absurd (List.cons.inj heq).1 hzero
      · have hdrop : cs.dropWhile Char.isDigit = [] := by
          simpa using @List.dropWhile_append_of_pos _ Char.isDigit cs []
            fun c' hc' => hdigits c' (List.mem_cons_of_mem c hc')
        rw [skipDigits?, if_pos hc, hdrop]
    rw [hofNat, isLexeme, hsign, hwhole]
    decide

theorem all_isPart_ofNat (n : Nat) : (ofNat n).all isPart = true := by
  refine List.all_eq_true.2 fun c hc => ?_
  simp [isPart, isDigit_of_mem_ofNat hc]

end Number

theorem printable_ofNat (n : Nat) : (ofNat n).Printable := by
  intro t ht
  rw [ofNat, tokens] at ht
  rw [List.mem_singleton.1 ht]
  exact ⟨Number.isLexeme_ofNat n, Number.all_isPart_ofNat n⟩

/-! ## Reading back -/

@[simp] theorem text?_ofText (s : String) : (ofText s).text? = some s := by
  rw [ofText, text?, Text.unescape?_escape, Option.map_some, String.ofList_toList]

theorem nat?_ofNat {max n : Nat} (h : n ≤ max) : (ofNat n).nat? max = some n := by
  rw [ofNat, nat?, Number.nat?_ofNat, Option.filter_some, if_pos (decide_eq_true h)]

@[simp] theorem uint64?_ofUInt64 (n : UInt64) : (ofUInt64 n).uint64? = some n := by
  rw [ofUInt64, uint64?, nat?_ofNat (Nat.le_sub_one_of_lt n.toNat_lt), Option.map_some]
  exact congrArg some UInt64.ofNat_toNat

@[simp] theorem uint32?_ofUInt32 (n : UInt32) : (ofUInt32 n).uint32? = some n := by
  rw [ofUInt32, uint32?, nat?_ofNat (Nat.le_sub_one_of_lt n.toNat_lt), Option.map_some]
  exact congrArg some UInt32.ofNat_toNat

@[simp] theorem uint8?_ofUInt8 (n : UInt8) : (ofUInt8 n).uint8? = some n := by
  rw [ofUInt8, uint8?, nat?_ofNat (Nat.le_sub_one_of_lt n.toNat_lt), Option.map_some]
  exact congrArg some UInt8.ofNat_toNat

@[simp] theorem name?_ofText (s : String) : (ofText s).name? = some s := by
  have hvariant : (ofText s).variant? = some (s, none) := by
    show ((ofText s).text?.map fun name => (name, none)) = _
    rw [text?_ofText, Option.map_some]
  rw [name?, hvariant]

/-- Reading each element back reads the list back. -/
theorem mapM_map_eq_some {α β : Type} {write : α → β} {read : β → Option α} {as : List α}
    (h : ∀ a ∈ as, read (write a) = some a) : (as.map write).mapM read = some as := by
  induction as with
  | nil => rfl
  | cons a as ih =>
    rw [List.map_cons, List.mapM_cons, h a List.mem_cons_self, ih fun b hb => h b (List.mem_cons_of_mem a hb)]
    rfl

@[simp] theorem list?_ofList {α : Type} {write : α → Json} {read : Json → Option α} {as : List α}
    (h : ∀ a ∈ as, read (write a) = some a) : (ofList write as).list? read = some as :=
  mapM_map_eq_some h

/-- The members of a written object have the keys that were written. -/
theorem members?_object (ms : List (String × Json)) :
    (object (ms.map fun (key, v) => (Text.escape key.toList, v))).members? = some ms := by
  refine mapM_map_eq_some fun (key, v) _ => ?_
  show ((ofText key).text?.map fun key => (key, v)) = some (key, v)
  rw [text?_ofText, Option.map_some]

theorem dict?_ofDict {α : Type} {write : α → Json} {read : Json → Option α} {d : Dict String α}
    (h : ∀ e ∈ d.entries, read (write e.2) = some e.2) : (ofDict write d).dict? read = some d := by
  have hmembers : (ofDict write d).members? = some (d.entries.map fun e => (e.1, write e.2)) := by
    rw [← members?_object, ofDict, List.map_map]
    rfl
  have hentries : (d.entries.map fun e => (e.1, write e.2)).mapM
      (fun member => (read member.2).map fun a => (member.1, a)) = some d.entries := by
    refine mapM_map_eq_some fun e he => ?_
    rw [h e he, Option.map_some]
  rw [dict?, hmembers, Option.bind_eq_bind, Option.bind_some]
  refine (congrArg (· >>= fun entries => some (Dict.ofList entries)) hentries).trans ?_
  exact congrArg some (Dict.ofList_entries d)

/-! ## Fields -/

/-- The fields that have a value. -/
def present (fields : List (String × Option Json)) : List (String × Json) :=
  fields.filterMap fun (name, v) => v.map fun v => (name, v)

theorem map_fst_present_sublist (fields : List (String × Option Json)) :
    ((present fields).map Prod.fst).Sublist (fields.map Prod.fst) := by
  induction fields with
  | nil => exact List.Sublist.slnil
  | cons field fields ih =>
    obtain ⟨name, v⟩ := field
    cases v with
    | none => exact ih.cons name
    | some v => exact ih.cons_cons name

/-- A written record has the fields that were written. -/
theorem fields?_ofFields {fields : List (String × Option Json)} (hnodup : (fields.map Prod.fst).Nodup) :
    (ofFields fields).fields? (fields.map Prod.fst) = some ⟨false, present fields⟩ := by
  have hmembers : (ofFields fields).members? = some (present fields) := by
    rw [← members?_object, ofFields, present, List.map_filterMap]
    congr 3
    funext ⟨name, v⟩
    cases v <;> rfl
  have hknown : (present fields).filter (fun (key, _) => (fields.map Prod.fst).contains key) = present fields := by
    refine List.filter_eq_self.2 fun (key, v) hv => ?_
    exact List.contains_iff_mem.2 ((map_fst_present_sublist fields).subset (List.mem_map_of_mem hv))
  have hdistinct : ((present fields).map Prod.fst).Nodup := hnodup.sublist (map_fst_present_sublist fields)
  show ((ofFields fields).members? >>= fun ms => _) = _
  rw [hmembers, Option.bind_eq_bind, Option.bind_some]
  simp only [hknown, hdistinct, if_true]

theorem printable_ofFields {fields : List (String × Option Json)}
    (h : ∀ f ∈ fields, ∀ v, f.2 = some v → v.Printable) : (ofFields fields).Printable := by
  refine printable_object fun m hm => ?_
  obtain ⟨⟨name, v⟩, hf, hm⟩ := List.mem_filterMap.1 hm
  obtain ⟨v', hv, rfl⟩ := Option.map_eq_some_iff.1 hm
  exact ⟨Text.isBody_escape _, h (name, v) hf v' hv⟩

end Json

/-! ## The law -/

/-- What is written is a well-formed tree other than `null`, and reading takes it back. -/
class LawfulWire (α : Type) [Wire α] : Prop where
  printable (a : α) : (toJson a).Printable
  ne_null (a : α) : toJson a ≠ .null
  ofJson?_toJson (a : α) : Wire.ofJson? (toJson a) = some a

attribute [simp] LawfulWire.ofJson?_toJson

namespace Wire

variable {α : Type} [Wire α] [LawfulWire α]

/-- **The text of a value spells the value.** -/
theorem parse?_render (a : α) : parse? (render a) = some a := by
  rw [parse?, render, Json.parse?_render (LawfulWire.printable a), Option.bind_some,
    LawfulWire.ofJson?_toJson]

end Wire

instance : LawfulWire String where
  printable := Json.printable_ofText
  ne_null _ := nofun
  ofJson?_toJson := Json.text?_ofText

instance : LawfulWire UInt64 where
  printable n := Json.printable_ofNat n.toNat
  ne_null _ := nofun
  ofJson?_toJson := Json.uint64?_ofUInt64

instance {α : Type} [Wire α] [LawfulWire α] : LawfulWire (List α) where
  printable as := by
    refine Json.printable_array fun v hv => ?_
    obtain ⟨a, -, rfl⟩ := List.mem_map.1 hv
    exact LawfulWire.printable a
  ne_null _ := nofun
  ofJson?_toJson as := Json.list?_ofList fun a _ => LawfulWire.ofJson?_toJson a

instance {α : Type} [Wire α] [LawfulWire α] : LawfulWire (Dict String α) where
  printable d := by
    refine Json.printable_object fun m hm => ?_
    obtain ⟨⟨key, a⟩, -, rfl⟩ := List.mem_map.1 hm
    exact ⟨Json.Text.isBody_escape _, LawfulWire.printable a⟩
  ne_null _ := nofun
  ofJson?_toJson d := Json.dict?_ofDict fun e _ => LawfulWire.ofJson?_toJson e.2

/-! ## Parts of records -/

namespace Json

variable {α : Type} [Wire α] [LawfulWire α]

attribute [simp] LawfulWire.printable printable_ofText

@[simp] theorem printable_ofUInt8 (n : UInt8) : (ofUInt8 n).Printable := printable_ofNat n.toNat

@[simp] theorem printable_ofUInt32 (n : UInt32) : (ofUInt32 n).Printable := printable_ofNat n.toNat

@[simp] theorem printable_ofUInt64 (n : UInt64) : (ofUInt64 n).Printable := printable_ofNat n.toNat

@[simp] theorem printable_ofList {β : Type} {write : β → Json} {bs : List β} (h : ∀ b ∈ bs, (write b).Printable) :
    (ofList write bs).Printable := by
  refine printable_array fun v hv => ?_
  obtain ⟨b, hb, rfl⟩ := List.mem_map.1 hv
  exact h b hb

theorem printable_null : null.Printable := by
  intro t ht
  rw [tokens] at ht
  rw [List.mem_singleton.1 ht]
  trivial

@[simp] theorem printable_ofOption (v : Option α) : (ofOption toJson v).Printable := by
  cases v with
  | none => exact printable_null
  | some a => exact LawfulWire.printable a

@[simp] theorem option?_toJson (a : α) : option? Wire.ofJson? (toJson a) = some (some a) := by
  rw [option?.eq_2 _ _ (LawfulWire.ne_null a), LawfulWire.ofJson?_toJson, Option.map_some]

@[simp] theorem option?_ofOption (v : Option α) : option? Wire.ofJson? (ofOption toJson v) = some v := by
  cases v with
  | none => rfl
  | some a => exact option?_toJson a

end Json

/-! ## Records -/

namespace Json.Fields

variable {α : Type}

@[simp] theorem lookup_present_nil (name : String) : (present []).lookup name = none := rfl

@[simp] theorem lookup_present_cons (field : String) (v : Option Json) (fields : List (String × Option Json))
    (name : String) : (present ((field, v) :: fields)).lookup name =
      if name = field then v.or ((present fields).lookup name) else (present fields).lookup name := by
  cases v with
  | none =>
    rw [Option.none_or, ite_self]
    rfl
  | some v => exact Dict.lookup_cons ..

/-- What a field that may be absent or `null` is read as. -/
def optionalOf (read : Json → Option α) : Option Json → Option (Option α)
  | none => some none
  | some j => option? read j

@[simp] theorem optionalOf_map [Wire α] [LawfulWire α] (v : Option α) :
    optionalOf Wire.ofJson? (v.map toJson) = some v := by
  cases v with
  | none => rfl
  | some a => exact option?_toJson a

@[simp] theorem optionalOf_some (read : Json → Option α) (j : Json) : optionalOf read (some j) = option? read j := rfl

variable (positional : Bool) (values : List (String × Json)) (name : String) (read : Json → Option α)

@[simp] theorem required_mk : (mk positional values).required name read = (values.lookup name).bind read := rfl

@[simp] theorem optional_mk : (mk positional values).optional name read = optionalOf read (values.lookup name) := by
  rw [optional, Fields.default]
  cases values.lookup name <;> rfl

@[simp] theorem nullable_mk : (mk false values).nullable name read = optionalOf read (values.lookup name) := by
  rw [nullable]
  cases values.lookup name <;> rfl

@[simp] theorem default_mk (absent : α) :
    (mk positional values).default name read absent = ((values.lookup name).map read).getD (some absent) := by
  rw [Fields.default]
  cases values.lookup name <;> rfl

end Json.Fields

/-- A record is read back if each of its fields is, for it is written as an object of them. -/
theorem LawfulWire.ofRecord {α : Type} [Wire α] {fields : α → List (String × Option Json)} {names : List String}
    {read : Json.Fields → Option α} (hwrite : ∀ a, toJson a = .ofFields (fields a))
    (hread : ∀ j, Wire.ofJson? j = j.fields? names >>= read) (hnames : ∀ a, (fields a).map Prod.fst = names)
    (hnodup : names.Nodup := by simp) (hprintable : ∀ a, ∀ f ∈ fields a, ∀ v ∈ f.2, v.Printable := by simp)
    (hback : ∀ a, read ⟨false, Json.present (fields a)⟩ = some a := by simp) : LawfulWire α where
  printable a := hwrite a ▸ Json.printable_ofFields fun f hf v hv => hprintable a f hf v hv
  ne_null a := hwrite a ▸ nofun
  ofJson?_toJson a := by
    have hfields := Json.fields?_ofFields (hnames a ▸ hnodup)
    rw [hnames a] at hfields
    rw [hread, hwrite, hfields, Option.bind_eq_bind, Option.bind_some, hback]

/-- A choice among names is read back if each of its names is. -/
theorem LawfulWire.ofNames {α : Type} [Wire α] {name : α → String} {ofName? : String → Option α}
    (hwrite : ∀ a, toJson a = .ofText (name a)) (hread : ∀ j, Wire.ofJson? j = j.name?.bind ofName?)
    (hback : ∀ a, ofName? (name a) = some a) : LawfulWire α where
  printable a := hwrite a ▸ Json.printable_ofText _
  ne_null a := hwrite a ▸ nofun
  ofJson?_toJson a := by rw [hread, hwrite, Json.name?_ofText, Option.bind_some, hback]

end Invoicing
