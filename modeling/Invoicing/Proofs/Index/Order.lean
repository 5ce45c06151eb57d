import Invoicing.Proofs.Index.Content
import Mathlib.Data.List.Perm.Basic

set_option autoImplicit false

/-! # Histories in another order

While a location is always given with the same time (`History.Dated`), times depend on which blocks were given to the
index and not on their order. So two histories of the same blocks leave records that agree in all but the order in
which a channel lists its locations (`Records.Hold.agree`). -/

namespace Invoicing

/-- A location is given with the same time whenever it is given. -/
def History.Dated (h : History) : Prop :=
  ∀ a ∈ h, ∀ b ∈ h, a.location = b.location → a.timestamp = b.timestamp

namespace History

variable {h h' : History}

/-! ## Times of dated histories -/

theorem Dated.timeOf?_eq (hd : h.Dated) {a : Addition} (ha : a ∈ h) :
    h.timeOf? a.location = some a.timestamp := by
  obtain ⟨time, htime⟩ := Option.isSome_iff_exists.1 (isSome_timeOf? ha)
  obtain ⟨b, hb, rfl⟩ := Option.map_eq_some_iff.1 htime
  have hlocation : b.location = a.location := by simpa using List.find?_some hb
  rw [htime, hd b (List.mem_of_find?_eq_some hb) a ha hlocation]

theorem Dated.filterMap_timeOf? (hd : h.Dated) {as : List Addition} (has : ∀ a ∈ as, a ∈ h) :
    (as.filterMap fun a => h.timeOf? a.location) = as.map (·.timestamp) := by
  rw [← List.filterMap_eq_map]
  exact List.filterMap_congr fun a ha => hd.timeOf?_eq (has a ha)

theorem Dated.updates_eq (hd : h.Dated) (topic channel : String) :
    h.updates topic channel = (h.filter fun a => a.tags channel topic).map (·.timestamp) :=
  hd.filterMap_timeOf? fun _ => List.mem_of_mem_filter

theorem Dated.lastTime?_eq (hd : h.Dated) : h.lastTime? = (h.map (·.timestamp)).max? :=
  congrArg List.max? (hd.filterMap_timeOf? fun _ => id)

/-! ## The same blocks -/

theorem max?_congr {ts ts' : List Timestamp} (hts : ∀ t, t ∈ ts ↔ t ∈ ts') : ts.max? = ts'.max? := by
  refine Option.ext fun t => ?_
  rw [List.max?_eq_some_iff, List.max?_eq_some_iff]
  simp only [hts]

theorem map_timestamp_congr {as as' : List Addition} (has : ∀ a, a ∈ as ↔ a ∈ as') (t : Timestamp) :
    t ∈ as.map (·.timestamp) ↔ t ∈ as'.map (·.timestamp) := by
  simp only [List.mem_map, has]

variable (hd : h.Dated) (hmem : ∀ a, a ∈ h ↔ a ∈ h')

include hmem in
/-- A channel has the same locations. -/
theorem locationsOf_perm (channel : String) : (h.locationsOf channel).Perm (h'.locationsOf channel) := by
  rw [List.perm_ext_iff_of_nodup (h.nodup_locationsOf channel) (h'.nodup_locationsOf channel)]
  simp only [mem_locationsOf, hmem, implies_true]

include hd hmem

theorem Dated.congr : h'.Dated := fun a ha b hb => hd a ((hmem a).2 ha) b ((hmem b).2 hb)

theorem Dated.timeOf?_congr (location : String) : h.timeOf? location = h'.timeOf? location := by
  by_cases hknown : ∃ a ∈ h, a.location = location
  · obtain ⟨a, ha, rfl⟩ := hknown
    rw [hd.timeOf?_eq ha, (hd.congr hmem).timeOf?_eq ((hmem a).1 ha)]
  · have hnone {k : History} (hk : ¬ ∃ a ∈ k, a.location = location) : k.timeOf? location = none := by
      rw [timeOf?, Option.map_eq_none_iff, List.find?_eq_none]
      exact fun a ha hlocation => hk ⟨a, ha, beq_iff_eq.1 hlocation⟩
    have hunknown : ¬ ∃ a ∈ h', a.location = location := by
      rintro ⟨a, ha, hlocation⟩
      exact hknown ⟨a, (hmem a).2 ha, hlocation⟩
    rw [hnone hknown, hnone hunknown]

theorem Dated.latest?_congr (topic channel : String) : h.latest? topic channel = h'.latest? topic channel := by
  rw [latest?, latest?, hd.updates_eq, (hd.congr hmem).updates_eq]
  refine max?_congr (map_timestamp_congr fun a => ?_)
  rw [List.mem_filter, List.mem_filter, hmem]

theorem Dated.lastTime?_congr : h.lastTime? = h'.lastTime? := by
  rw [hd.lastTime?_eq, (hd.congr hmem).lastTime?_eq]
  exact max?_congr (map_timestamp_congr hmem)

end History

/-! ## Records that agree -/

/-- The records are the same, but for the order in which a channel lists its locations. -/
structure Records.Agree (records records' : Records) : Prop where
  location (l : String) :
    records.get? (RecordKey.location l).bytes = records'.get? (RecordKey.location l).bytes
  topic (t : String) : records.get? (RecordKey.topic t).bytes = records'.get? (RecordKey.topic t).bytes
  lastTimestamp : records.get? RecordKey.lastTimestamp.bytes = records'.get? RecordKey.lastTimestamp.bytes
  channel (c : String) :
    (records.get? (RecordKey.channel c).bytes).isSome = (records'.get? (RecordKey.channel c).bytes).isSome
  locations (c : String) : (records.locationsOf c).Perm (records'.locationsOf c)

/-- **It does not matter in which order blocks are given to the index.** Records that hold the same blocks agree, if
each location was given with one time only. -/
theorem Records.Hold.agree {records records' : Records} {h h' : History} (hold : records.Hold h)
    (hold' : records'.Hold h') (hd : h.Dated) (hmem : ∀ a, a ∈ h ↔ a ∈ h') : records.Agree records' where
  location l := by rw [hold.location, hold'.location, hd.timeOf?_congr hmem]
  topic t := by
    obtain ⟨latest, hlatest, hget⟩ := hold.topic t
    obtain ⟨latest', hlatest', hget'⟩ := hold'.topic t
    have heq : latest = latest' := Dict.ext_get? fun c => by rw [hlatest, hlatest', hd.latest?_congr hmem]
    rw [hget, hget', heq]
  lastTimestamp := by rw [hold.lastTimestamp, hold'.lastTimestamp, hd.lastTime?_congr hmem]
  channel c := by
    have hperm := History.locationsOf_perm hmem c
    rw [hold.channel, hold'.channel, Option.isSome_map, Option.isSome_map, nonempty?, nonempty?,
      hperm.isEmpty_eq]
    split <;> rfl
  locations c := by
    rw [hold.locationsOf_eq, hold'.locationsOf_eq]
    exact History.locationsOf_perm hmem c

end Invoicing
