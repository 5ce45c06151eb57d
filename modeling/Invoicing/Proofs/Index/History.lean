import Invoicing.Index.Basic
import Mathlib.Data.List.Induction
import Mathlib.Data.List.Nodup

set_option autoImplicit false

/-! # The history of the index

The blocks that were given to the index, in order, and what is true of them: where the blocks of a channel lie, when a
topic of a channel was updated last, and how late the latest block is. Each lemma about one more block has the shape
of a change that the index makes. -/

namespace Invoicing

/-! ## Times and lists -/

instance : Std.LawfulOrderMax Timestamp where
  max_le_iff a b c := by
    show (if a ≤ b then b else a) ≤ c ↔ a ≤ c ∧ b ≤ c
    split
    · next h => exact ⟨fun hb => ⟨UInt64.le_trans h hb, hb⟩, And.right⟩
    · next h =>
      have hba : b ≤ a := (UInt64.le_total a b).resolve_left h
      exact ⟨fun ha => ⟨ha, UInt64.le_trans hba ha⟩, And.left⟩
  max_eq_or a b := by
    show (if a ≤ b then b else a) = a ∨ (if a ≤ b then b else a) = b
    split
    · exact .inr rfl
    · exact .inl rfl

theorem max_eq_ite (a b : Timestamp) : max a b = if a < b then b else a := by
  show (if a ≤ b then b else a) = if a < b then b else a
  by_cases hlt : a < b
  · rw [if_pos hlt, if_pos (UInt64.le_of_lt hlt)]
  · rw [if_neg hlt]
    split
    · next hle => exact UInt64.le_antisymm (UInt64.not_lt.1 hlt) hle
    · rfl

theorem eraseDups_append_single {α : Type} [BEq α] [LawfulBEq α] (as : List α) (a : α) :
    (as ++ [a]).eraseDups = if a ∈ as then as.eraseDups else as.eraseDups ++ [a] := by
  rw [List.eraseDups_append]
  split
  · next h => simp [List.removeAll, h]
  · next h => simp [List.removeAll, h, List.eraseDups_cons]

theorem nodup_eraseDups {α : Type} [BEq α] [LawfulBEq α] (as : List α) : as.eraseDups.Nodup := by
  induction as using List.reverseRecOn with
  | nil => simp
  | append_singleton as a ih =>
    rw [eraseDups_append_single]
    split
    · exact ih
    · next h =>
      rw [List.nodup_append]
      refine ⟨ih, List.nodup_singleton a, ?_⟩
      intro b hb c hc hbc
      rw [List.mem_singleton.1 hc] at hbc
      exact h (hbc ▸ List.mem_eraseDups.1 hb)

/-! ## Additions -/

/-- A block that was given to the index. -/
structure Addition where
  location : String
  header : BlockHeader
  timestamp : Timestamp

namespace Addition

/-- Has the block transactions of a channel? -/
def mentions (a : Addition) (channel : String) : Bool := a.header.channels.contains channel

/-- Does the block tag a channel with a topic? -/
def tags (a : Addition) (channel topic : String) : Bool :=
  (a.header.topics.get? channel).any fun topics => topics.contains topic

end Addition

/-- The blocks that were given to an index, the first one first. -/
abbrev History := List Addition

namespace History

variable (h : History)

/-- The time that was given when a location came for the first time. -/
def timeOf? (location : String) : Option Timestamp :=
  (h.find? fun a => a.location == location).map (·.timestamp)

/-- The locations of the blocks with a channel, in the order in which they first came with it. -/
def locationsOf (channel : String) : List String :=
  ((h.filter fun a => a.mentions channel).map (·.location)).eraseDups

/-- The times of the blocks that tag a channel with a topic. -/
def updates (topic channel : String) : List Timestamp :=
  (h.filter fun a => a.tags channel topic).filterMap fun a => h.timeOf? a.location

/-- The latest time of a block that tags a channel with a topic. -/
def latest? (topic channel : String) : Option Timestamp := (h.updates topic channel).max?

/-- The latest time of all blocks. -/
def lastTime? : Option Timestamp := (h.filterMap fun a => h.timeOf? a.location).max?

/-! ## One more block -/

variable {h}

theorem timeOf?_append_single (h : History) (a : Addition) (location : String) :
    History.timeOf? (h ++ [a]) location =
      (h.timeOf? location).or (if a.location = location then some a.timestamp else none) := by
  rw [timeOf?, timeOf?, List.find?_append]
  by_cases hl : a.location = location <;>
    cases h.find? (fun a => a.location == location) <;> simp [hl]

theorem isSome_timeOf? {a : Addition} (ha : a ∈ h) : (h.timeOf? a.location).isSome := by
  rw [timeOf?, Option.isSome_map, List.find?_isSome]
  exact ⟨a, ha, by simp⟩

/-- A topic has a time for every channel that a block tags with it. -/
theorem isSome_latest? {a : Addition} (ha : a ∈ h) {topic channel : String} (htags : a.tags channel topic) :
    (h.latest? topic channel).isSome := by
  obtain ⟨time, htime⟩ := Option.isSome_iff_exists.1 (isSome_timeOf? ha)
  have hmem : time ∈ h.updates topic channel :=
    List.mem_filterMap.2 ⟨a, List.mem_filter.2 ⟨ha, htags⟩, htime⟩
  exact List.isSome_max?_of_mem hmem

/-- The time of a location that is known stays. -/
theorem timeOf?_append_of_mem {a : Addition} (ha : a ∈ h) (b : Addition) :
    History.timeOf? (h ++ [b]) a.location = h.timeOf? a.location := by
  obtain ⟨t, ht⟩ := Option.isSome_iff_exists.1 (isSome_timeOf? ha)
  rw [timeOf?_append_single, ht, Option.some_or]

theorem timeOf?_self (h : History) (a : Addition) :
    History.timeOf? (h ++ [a]) a.location = some ((h.timeOf? a.location).getD a.timestamp) := by
  rw [timeOf?_append_single, if_pos rfl]
  cases h.timeOf? a.location <;> rfl

theorem mem_locationsOf {channel location : String} :
    location ∈ h.locationsOf channel ↔ ∃ a ∈ h, a.mentions channel ∧ a.location = location := by
  simp only [locationsOf, List.mem_eraseDups, List.mem_map, List.mem_filter, and_assoc]

theorem nodup_locationsOf (h : History) (channel : String) : (h.locationsOf channel).Nodup :=
  nodup_eraseDups _

theorem locationsOf_append_single (h : History) (a : Addition) (channel : String) :
    History.locationsOf (h ++ [a]) channel =
      if a.mentions channel ∧ a.location ∉ h.locationsOf channel
      then h.locationsOf channel ++ [a.location] else h.locationsOf channel := by
  rw [locationsOf, locationsOf, List.filter_append, List.map_append]
  by_cases hm : a.mentions channel
  · simp only [hm, List.filter_cons_of_pos, List.filter_nil, List.map_cons, List.map_nil,
      eraseDups_append_single, List.mem_eraseDups, true_and]
    split
    · simp
    · simp
  · simp [hm]

/-- The maximum of a list with one more element at its end. -/
theorem max?_append_single (ts : List Timestamp) (t : Timestamp) :
    (ts ++ [t]).max? = some (max (ts.max?.getD t) t) := by
  cases ts with
  | nil => exact congrArg some Std.max_self.symm
  | cons x xs =>
    show some ((xs ++ [t]).foldl max x) = _
    rw [List.foldl_append]
    rfl

theorem filterMap_timeOf?_append {as : List Addition} (has : ∀ a ∈ as, a ∈ h) (b : Addition) :
    (as.filterMap fun a => History.timeOf? (h ++ [b]) a.location) =
      as.filterMap fun a => h.timeOf? a.location :=
  List.filterMap_congr fun a ha => timeOf?_append_of_mem (has a ha) b

theorem updates_append_single (h : History) (a : Addition) (topic channel : String) :
    History.updates (h ++ [a]) topic channel =
      h.updates topic channel ++
        if a.tags channel topic then [(h.timeOf? a.location).getD a.timestamp] else [] := by
  -- The new block changes no time of an older location, so only its own update is added.
  rw [updates, List.filter_append, List.filterMap_append,
    filterMap_timeOf?_append fun b hb => List.mem_of_mem_filter hb, updates]
  by_cases ht : a.tags channel topic
  · simp [ht, timeOf?_self]
  · simp [ht]

theorem latest?_append_single (h : History) (a : Addition) (topic channel : String) :
    History.latest? (h ++ [a]) topic channel =
      if a.tags channel topic then
        let time := (h.timeOf? a.location).getD a.timestamp
        some (max ((h.latest? topic channel).getD time) time)
      else h.latest? topic channel := by
  rw [latest?, updates_append_single]
  split
  · rw [max?_append_single, latest?]
  · rw [List.append_nil, latest?]

theorem lastTime?_append_single (h : History) (a : Addition) :
    History.lastTime? (h ++ [a]) =
      let time := (h.timeOf? a.location).getD a.timestamp
      some (max (h.lastTime?.getD time) time) := by
  rw [lastTime?, List.filterMap_append, filterMap_timeOf?_append fun b hb => hb, List.filterMap_cons,
    timeOf?_self]
  show (_ ++ [_]).max? = _
  rw [max?_append_single, lastTime?]

end History
end Invoicing
