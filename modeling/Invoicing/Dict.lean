set_option autoImplicit false

/-! # Dictionaries

A `Dict κ β` is a finite map whose entries stand in strictly increasing order of their keys. Two
dictionaries with the same look-ups are equal (`Dict.ext_get?`), so everything that is computed from
the entries depends on the map alone and never on the order of the writes that built it. -/

namespace Invoicing

/-- The order facts about keys that the look-up lemmas need: `<` is a strict linear order. -/
class KeyOrder (κ : Type) [LT κ] : Prop where
  irrefl (a : κ) : ¬ a < a
  trans {a b c : κ} : a < b → b < c → a < c
  connected {a b : κ} : ¬ a < b → a ≠ b → b < a

instance : KeyOrder String where
  irrefl := String.lt_irrefl
  trans := String.lt_trans
  connected h ne := String.not_le.1 fun h' => ne (String.le_antisymm h' (String.not_lt.1 h))

instance byteTrans : Trans (α := UInt8) (· < ·) (· < ·) (· < ·) where
  trans h h' := UInt8.lt_trans h h'

instance byteIrrefl : Std.Irrefl (α := UInt8) (· < ·) where
  irrefl _ := UInt8.lt_irrefl _

instance byteAsymm : Std.Asymm (α := UInt8) (· < ·) where
  asymm _ _ h h' := UInt8.lt_irrefl _ (UInt8.lt_trans h h')

instance byteTrichotomous : Std.Trichotomous (α := UInt8) (· < ·) where
  trichotomous _ _ h h' := UInt8.le_antisymm (UInt8.not_lt.1 h') (UInt8.not_lt.1 h)

instance : KeyOrder (List UInt8) where
  irrefl := List.lt_irrefl
  trans := List.lt_trans
  connected h ne := List.not_le.1 fun h' => ne (List.le_antisymm h' (List.not_lt.1 h))

/-- A finite map with its entries in increasing order of the keys. -/
structure Dict (κ β : Type) [LT κ] where
  entries : List (κ × β)
  sorted : entries.Pairwise fun a b => a.1 < b.1

namespace Dict

variable {κ β γ : Type} [LT κ]

@[ext] theorem ext {d e : Dict κ β} (h : d.entries = e.entries) : d = e := by
  cases d; cases e; simp_all

instance [DecidableEq κ] [DecidableEq β] : DecidableEq (Dict κ β) := fun d e =>
  decidable_of_iff (d.entries = e.entries) ⟨ext, fun h => h ▸ rfl⟩

/-! ## Building and reading -/

/-- The dictionary without entries. -/
def empty : Dict κ β := ⟨[], List.Pairwise.nil⟩

instance : Inhabited (Dict κ β) := ⟨empty⟩

def size (d : Dict κ β) : Nat := d.entries.length

def isEmpty (d : Dict κ β) : Bool := d.entries.isEmpty

/-- The keys, in increasing order. -/
def keys (d : Dict κ β) : List κ := d.entries.map Prod.fst

/-- The values, in the order of their keys. -/
def values (d : Dict κ β) : List β := d.entries.map Prod.snd

/-- The value of a key. -/
def get? [DecidableEq κ] (d : Dict κ β) (k : κ) : Option β := d.entries.lookup k

def contains [DecidableEq κ] (d : Dict κ β) (k : κ) : Bool := (d.get? k).isSome

/-- Puts an entry at its place in a sorted list, over the entry that has its key. -/
def insertEntry [DecidableEq κ] [DecidableLT κ] (k : κ) (v : β) : List (κ × β) → List (κ × β)
  | [] => [(k, v)]
  | (k', v') :: rest =>
    if k < k' then (k, v) :: (k', v') :: rest
    else if k = k' then (k, v) :: rest
    else (k', v') :: insertEntry k v rest

theorem mem_insertEntry [DecidableEq κ] [DecidableLT κ] {k : κ} {v : β} {e : κ × β} :
    {es : List (κ × β)} → e ∈ insertEntry k v es → e = (k, v) ∨ e ∈ es
  | [], h => by simpa [insertEntry] using h
  | (k', v') :: rest, h => by
    unfold insertEntry at h
    split at h
    · simpa using h
    · split at h
      · rcases List.mem_cons.1 h with h | h
        · exact .inl h
        · exact .inr (List.mem_cons_of_mem _ h)
      · rcases List.mem_cons.1 h with h | h
        · exact .inr (h ▸ List.mem_cons_self)
        · rcases mem_insertEntry h with h | h
          · exact .inl h
          · exact .inr (List.mem_cons_of_mem _ h)

theorem insertEntry_sorted [DecidableEq κ] [DecidableLT κ] [KeyOrder κ] (k : κ) (v : β) :
    {es : List (κ × β)} → es.Pairwise (fun a b => a.1 < b.1) →
      (insertEntry k v es).Pairwise fun a b => a.1 < b.1
  | [], _ => by simp [insertEntry]
  | (k', v') :: rest, h => by
    obtain ⟨hhead, hrest⟩ := List.pairwise_cons.1 h
    unfold insertEntry
    split
    · next hlt =>
      refine List.pairwise_cons.2 ⟨fun e he => ?_, h⟩
      rcases List.mem_cons.1 he with rfl | he
      · exact hlt
      · exact KeyOrder.trans hlt (hhead e he)
    · next hnlt =>
      split
      · next heq => exact List.pairwise_cons.2 ⟨heq ▸ hhead, hrest⟩
      · next hne =>
        refine List.pairwise_cons.2 ⟨fun e he => ?_, insertEntry_sorted k v hrest⟩
        rcases mem_insertEntry he with rfl | he
        · exact KeyOrder.connected hnlt hne
        · exact hhead e he

/-- Gives a key a value, in place of the value that it had. -/
def insert [DecidableEq κ] [DecidableLT κ] [KeyOrder κ] (d : Dict κ β) (k : κ) (v : β) : Dict κ β :=
  ⟨insertEntry k v d.entries, insertEntry_sorted k v d.sorted⟩

/-- All entries of a list, the last one of each key. -/
def ofList [DecidableEq κ] [DecidableLT κ] [KeyOrder κ] (es : List (κ × β)) : Dict κ β :=
  es.foldl (fun d e => d.insert e.1 e.2) empty

/-- The same keys with other values. -/
def mapValues (f : β → γ) (d : Dict κ β) : Dict κ γ :=
  ⟨d.entries.map fun e => (e.1, f e.2), by simpa [List.pairwise_map] using d.sorted⟩

theorem keys_mapValues (f : β → γ) (d : Dict κ β) : (d.mapValues f).keys = d.keys := by
  simp [keys, mapValues]

/-! ## Look-ups -/

section Lookup

variable [DecidableEq κ]

omit [LT κ] in
theorem lookup_cons (k k' : κ) (v : β) (es : List (κ × β)) :
    ((k', v) :: es).lookup k = if k = k' then some v else es.lookup k := by
  by_cases h : k = k'
  · simp [h]
  · simp [List.lookup_cons, beq_false_of_ne h, h]

@[simp] theorem get?_empty (k : κ) : (empty : Dict κ β).get? k = none := rfl

theorem lookup_insertEntry [DecidableLT κ] [KeyOrder κ] (k : κ) (v : β) (k₁ : κ) :
    (es : List (κ × β)) →
      (insertEntry k v es).lookup k₁ = if k₁ = k then some v else es.lookup k₁
  | [] => by simp [insertEntry, lookup_cons]
  | (k', v') :: rest => by
    unfold insertEntry
    split
    · simp [lookup_cons]
    · split
      · next heq => subst heq; by_cases h : k₁ = k <;> simp [lookup_cons, h]
      · next hne =>
        have ih := lookup_insertEntry k v k₁ rest
        by_cases h : k₁ = k'
        · subst h
          simp [Ne.symm hne]
        · simp [lookup_cons, h, ih]

theorem get?_insert [DecidableLT κ] [KeyOrder κ] (d : Dict κ β) (k : κ) (v : β) (k₁ : κ) :
    (d.insert k v).get? k₁ = if k₁ = k then some v else d.get? k₁ :=
  lookup_insertEntry k v k₁ d.entries

theorem get?_mapValues (f : β → γ) (d : Dict κ β) (k : κ) :
    (d.mapValues f).get? k = (d.get? k).map f := by
  suffices h : ∀ es : List (κ × β), (es.map fun e => (e.1, f e.2)).lookup k = (es.lookup k).map f from
    h d.entries
  intro es
  induction es with
  | nil => rfl
  | cons e rest ih =>
    obtain ⟨k', v'⟩ := e
    by_cases h : k = k' <;> simp [lookup_cons, h, ih]

omit [LT κ] in
theorem mem_of_lookup {k : κ} {v : β} : {es : List (κ × β)} → es.lookup k = some v → (k, v) ∈ es
  | [], h => by simp at h
  | (k', v') :: rest, h => by
    rw [lookup_cons] at h
    split at h
    · next hk => cases h; simp [hk]
    · exact List.mem_cons_of_mem _ (mem_of_lookup h)

theorem lookup_of_mem [KeyOrder κ] {k : κ} {v : β} : {es : List (κ × β)} →
    es.Pairwise (fun a b => a.1 < b.1) → (k, v) ∈ es → es.lookup k = some v
  | (k', v') :: rest, hs, h => by
    obtain ⟨hhead, hrest⟩ := List.pairwise_cons.1 hs
    rcases List.mem_cons.1 h with h | h
    · obtain ⟨rfl, rfl⟩ := Prod.mk.inj h
      simp
    · have hne : k ≠ k' := fun he => KeyOrder.irrefl k' (he ▸ hhead _ h)
      simp [lookup_cons, hne, lookup_of_mem hrest h]

theorem get?_eq_some_iff [KeyOrder κ] {d : Dict κ β} {k : κ} {v : β} :
    d.get? k = some v ↔ (k, v) ∈ d.entries :=
  ⟨mem_of_lookup, lookup_of_mem d.sorted⟩

theorem mem_keys_iff [KeyOrder κ] {d : Dict κ β} {k : κ} : k ∈ d.keys ↔ (d.get? k).isSome := by
  simp [keys, Option.isSome_iff_exists, get?_eq_some_iff]

omit [DecidableEq κ] in
/-- Sorted lists with the same members are equal. -/
theorem eq_of_sorted_of_mem_iff [KeyOrder κ] : {es fs : List (κ × β)} →
    es.Pairwise (fun a b => a.1 < b.1) → fs.Pairwise (fun a b => a.1 < b.1) →
    (∀ e, e ∈ es ↔ e ∈ fs) → es = fs
  | [], [], _, _, _ => rfl
  | [], f :: fs, _, _, h => absurd ((h f).2 List.mem_cons_self) (by simp)
  | e :: es, [], _, _, h => absurd ((h e).1 List.mem_cons_self) (by simp)
  | e :: es, f :: fs, hes', hfs', h => by
    obtain ⟨he, hes⟩ := List.pairwise_cons.1 hes'
    obtain ⟨hf, hfs⟩ := List.pairwise_cons.1 hfs'
    have hef : e = f := by
      rcases List.mem_cons.1 ((h e).1 List.mem_cons_self) with rfl | h₁
      · rfl
      rcases List.mem_cons.1 ((h f).2 List.mem_cons_self) with rfl | h₂
      · rfl
      exact absurd (KeyOrder.trans (hf e h₁) (he f h₂)) (KeyOrder.irrefl _)
    subst hef
    refine congrArg (e :: ·) (eq_of_sorted_of_mem_iff hes hfs fun g => ⟨fun hg => ?_, fun hg => ?_⟩)
    · rcases List.mem_cons.1 ((h g).1 (List.mem_cons_of_mem _ hg)) with rfl | h'
      · exact absurd (he g hg) (KeyOrder.irrefl _)
      · exact h'
    · rcases List.mem_cons.1 ((h g).2 (List.mem_cons_of_mem _ hg)) with rfl | h'
      · exact absurd (hf g hg) (KeyOrder.irrefl _)
      · exact h'

theorem ext_get? [KeyOrder κ] {d e : Dict κ β} (h : ∀ k, d.get? k = e.get? k) : d = e :=
  ext <| eq_of_sorted_of_mem_iff d.sorted e.sorted fun ⟨k, v⟩ => by
    rw [← get?_eq_some_iff, ← get?_eq_some_iff, h]

theorem mapValues_insert [DecidableLT κ] [KeyOrder κ] (f : β → γ) (d : Dict κ β) (k : κ) (v : β) :
    (d.insert k v).mapValues f = (d.mapValues f).insert k (f v) := by
  refine ext_get? fun k' => ?_
  rw [get?_mapValues, get?_insert, get?_insert, get?_mapValues]
  split <;> rfl

theorem insert_insert [DecidableLT κ] [KeyOrder κ] (d : Dict κ β) (k : κ) (v v' : β) :
    (d.insert k v).insert k v' = d.insert k v' := by
  refine ext_get? fun k' => ?_
  by_cases hk : k' = k <;> simp [get?_insert, hk]

theorem insert_comm [DecidableLT κ] [KeyOrder κ] (d : Dict κ β) {k k' : κ} (h : k ≠ k') (v v' : β) :
    (d.insert k v).insert k' v' = (d.insert k' v').insert k v := by
  refine ext_get? fun k'' => ?_
  by_cases hk : k'' = k
  · subst hk
    simp [get?_insert, h]
  · simp [get?_insert, hk]

/-- The value that a list of writes leaves at a key: its last one, or else what was there before. -/
theorem get?_foldl_insert [DecidableLT κ] [KeyOrder κ] (d : Dict κ β) (es : List (κ × β)) (k : κ) :
    (es.foldl (fun d e => d.insert e.1 e.2) d).get? k = (es.reverse.lookup k).or (d.get? k) := by
  induction es generalizing d with
  | nil => simp
  | cons e rest ih =>
    obtain ⟨k', v⟩ := e
    rw [List.foldl_cons, ih, get?_insert, List.reverse_cons, List.lookup_append, lookup_cons]
    by_cases hk : k = k' <;> simp [hk]

/-- A key that is written with one value only has this value afterwards. -/
theorem get?_foldl_insert_of_mem [DecidableLT κ] [KeyOrder κ] (d : Dict κ β) {es : List (κ × β)}
    {k : κ} {v : β} (hmem : (k, v) ∈ es) (hone : ∀ v', (k, v') ∈ es → v' = v) :
    (es.foldl (fun d e => d.insert e.1 e.2) d).get? k = some v := by
  rw [get?_foldl_insert]
  cases hl : es.reverse.lookup k with
  | some v' => rw [Option.some_or, hone v' (List.mem_reverse.1 (mem_of_lookup hl))]
  | none =>
    rw [List.lookup_eq_none_iff] at hl
    simpa using hl _ (List.mem_reverse.2 hmem)

/-- A key that is not written keeps its value. -/
theorem get?_foldl_insert_of_not_mem [DecidableLT κ] [KeyOrder κ] (d : Dict κ β)
    {es : List (κ × β)} {k : κ} (h : ∀ v, (k, v) ∉ es) :
    (es.foldl (fun d e => d.insert e.1 e.2) d).get? k = d.get? k := by
  rw [get?_foldl_insert]
  cases hl : es.reverse.lookup k with
  | some v => exact absurd (List.mem_reverse.1 (mem_of_lookup hl)) (h v)
  | none => rfl

theorem get?_ofList [DecidableLT κ] [KeyOrder κ] (es : List (κ × β)) (k : κ) :
    (ofList es).get? k = es.reverse.lookup k := by
  rw [ofList, get?_foldl_insert, get?_empty, Option.or_none]

@[simp] theorem ofList_entries [DecidableLT κ] [KeyOrder κ] (d : Dict κ β) :
    ofList d.entries = d := by
  refine ext_get? fun k => ?_
  rw [get?_ofList]
  have key : ∀ v, d.entries.reverse.lookup k = some v → d.get? k = some v := fun v h =>
    get?_eq_some_iff.2 (List.mem_reverse.1 (mem_of_lookup h))
  cases h : d.entries.reverse.lookup k with
  | some v => exact (key v h).symm
  | none =>
    cases h' : d.get? k with
    | none => rfl
    | some v =>
      have hm := List.mem_reverse.2 (get?_eq_some_iff.1 h')
      rw [List.lookup_eq_none_iff] at h
      simpa using h _ hm

/-- The entries of a function's graph over some keys. -/
theorem get?_ofList_graph [DecidableLT κ] [KeyOrder κ] (f : κ → β) (ks : List κ) (k : κ) :
    (ofList (ks.map fun k => (k, f k))).get? k = if k ∈ ks then some (f k) else none := by
  by_cases hk : k ∈ ks
  · rw [if_pos hk]
    refine get?_foldl_insert_of_mem empty (List.mem_map.2 ⟨k, hk, rfl⟩) fun v hv => ?_
    obtain ⟨k', -, he⟩ := List.mem_map.1 hv
    obtain ⟨rfl, rfl⟩ := Prod.mk.inj he
    rfl
  · rw [if_neg hk]
    refine get?_foldl_insert_of_not_mem empty fun v hv => ?_
    obtain ⟨k', hk', he⟩ := List.mem_map.1 hv
    exact hk ((Prod.mk.inj he).1 ▸ hk')

end Lookup

end Dict

end Invoicing
