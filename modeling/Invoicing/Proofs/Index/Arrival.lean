import Invoicing.Proofs.Index.Order
import Invoicing.Proofs.Index.Replay

set_option autoImplicit false

/-! # The order of arrival

The same blocks leave the same index in whatever order they come, as long as each location comes with one time
(`Index.arrival_order`). Only the index writes to its store, so the records that `Records.Hold` speaks of are all
that there are (`Records.Own`). -/

namespace Invoicing

namespace Dict

variable {κ β γ : Type} [LT κ] [DecidableEq κ] [KeyOrder κ]

/-- Dictionaries with entries for the same keys list them alike. -/
theorem keys_congr {d : Dict κ β} {e : Dict κ γ} (h : ∀ k, (d.get? k).isSome = (e.get? k).isSome) :
    d.keys = e.keys := by
  have hsame : d.mapValues (fun _ => ()) = e.mapValues (fun _ => ()) := by
    refine ext_get? fun k => ?_
    have hk := h k
    rw [get?_mapValues, get?_mapValues]
    cases hd : d.get? k <;> cases he : e.get? k <;> simp_all
  have hkeys := congrArg keys hsame
  simpa [keys, mapValues, Function.comp_def] using hkeys

end Dict

namespace Records

/-! ## Records of the index alone -/

/-- Every record is one that the index keeps. -/
def Own (records : Records) : Prop := ∀ key, (records.get? key).isSome → ∃ k : RecordKey, k.bytes = key

theorem own_empty : Own Dict.empty := nofun

theorem Own.write_batchFor {records : Records} (hown : records.Own) (a : Addition) :
    (records.write (records.batchFor a.location a.header a.timestamp)).Own := by
  intro key hkey
  by_cases hwritten : ∃ v, (key, v) ∈ records.batchFor a.location a.header a.timestamp
  · obtain ⟨v, hv⟩ := hwritten
    obtain ⟨k, hk, -⟩ := mem_batchFor.1 hv
    exact ⟨k, hk⟩
  · have hkept : (records.write (records.batchFor a.location a.header a.timestamp)).get? key = records.get? key :=
      Dict.get?_foldl_insert_of_not_mem records fun v hv => hwritten ⟨v, hv⟩
    rw [hkept] at hkey
    exact hown key hkey

theorem Own.addAll {records : Records} (hown : records.Own) (h : History) : (records.addAll h).Own := by
  induction h generalizing records with
  | nil => exact hown
  | cons a h ih => exact ih (hown.write_batchFor a)

/-! ## The same records in another order -/

/-- The records of a channel that lists the same locations in two orders. -/
def Relisted (bytes bytes' : List UInt8) : Prop :=
  ∃ ls ls' : List String, ls.Perm ls' ∧ bytes = Record.encode ls ∧ bytes' = Record.encode ls'

/-- The stores have records under the same keys. All of them are the same, but for the order in which a channel lists
its locations. -/
structure Reordered (records records' : Records) : Prop where
  keys : records.keys = records'.keys
  same : ∀ key, (∀ c, key ≠ (RecordKey.channel c).bytes) → records.get? key = records'.get? key
  channel : ∀ c, Option.Rel Relisted (records.get? (RecordKey.channel c).bytes)
    (records'.get? (RecordKey.channel c).bytes)

theorem Hold.relisted {records records' : Records} {h h' : History} (hold : records.Hold h)
    (hold' : records'.Hold h') (hmem : ∀ a, a ∈ h ↔ a ∈ h') (c : String) :
    Option.Rel Relisted (records.get? (RecordKey.channel c).bytes)
      (records'.get? (RecordKey.channel c).bytes) := by
  have hperm := History.locationsOf_perm hmem c
  rw [hold.channel, hold'.channel, nonempty?, nonempty?, hperm.isEmpty_eq]
  split
  · exact .none
  · exact .some ⟨_, _, hperm, rfl, rfl⟩

theorem Hold.reordered {records records' : Records} {h h' : History} (hold : records.Hold h)
    (hold' : records'.Hold h') (hown : records.Own) (hown' : records'.Own) (hd : h.Dated)
    (hmem : ∀ a, a ∈ h ↔ a ∈ h') : records.Reordered records' := by
  have hagree := hold.agree hold' hd hmem
  have hsame : ∀ key, (∀ c, key ≠ (RecordKey.channel c).bytes) → records.get? key = records'.get? key := by
    intro key hchannel
    by_cases hkey : ∃ k : RecordKey, k.bytes = key
    · obtain ⟨k, rfl⟩ := hkey
      cases k with
      | location l => exact hagree.location l
      | channel c => exact absurd rfl (hchannel c)
      | topic t => exact hagree.topic t
      | lastTimestamp => exact hagree.lastTimestamp
    · have hnone {rs : Records} (hrs : rs.Own) : rs.get? key = none :=
        Option.not_isSome_iff_eq_none.1 fun hsome => hkey (hrs key hsome)
      rw [hnone hown, hnone hown']
  refine ⟨Dict.keys_congr fun key => ?_, hsame, hold.relisted hold' hmem⟩
  by_cases hchannel : ∃ c, key = (RecordKey.channel c).bytes
  · obtain ⟨c, rfl⟩ := hchannel
    exact hagree.channel c
  · rw [hsame key fun c hc => hchannel ⟨c, hc⟩]

end Records

/-! ## The same answers -/

/-- The index answers every query from both stores, and alike, but for the order of the locations of a channel. -/
structure Store.AnswersLike (s s' : Store) : Prop where
  channelsOfTopic : ∀ topic window, ∃ channels, ((Index.channelsOfTopic topic window).run.run s).1 = .ok channels ∧
    ((Index.channelsOfTopic topic window).run.run s').1 = .ok channels
  channelsOfTopics : ∀ topics window, ∃ channels,
    ((Index.channelsOfTopics topics window).run.run s).1 = .ok channels ∧
      ((Index.channelsOfTopics topics window).run.run s').1 = .ok channels
  lastTimestamp : ∃ time, (Index.lastTimestamp.run.run s).1 = .ok time ∧ (Index.lastTimestamp.run.run s').1 = .ok time
  locations : ∀ channel window, ∃ ls ls', ((Index.locations channel window).run.run s).1 = .ok ls ∧
    ((Index.locations channel window).run.run s').1 = .ok ls' ∧ ls.Perm ls'

namespace Records.Hold

variable {records : Records} {h : History} (hold : records.Hold h)

include hold

/-- The locations of a channel in a window, from the history. -/
theorem answers_locations (channel : String) (window : Option Window) :
    (Index.locations channel window).Answers records
      (.ok ((h.locationsOf channel).filter fun l => window.all fun w => (h.timeOf? l).any w.contains)) := by
  have hlocations := hold.locationsOf_eq channel
  cases window with
  | none =>
    have hall := Index.answers_locations_none (hold.spells_channel channel)
    simpa [hlocations] using hall
  | some w =>
    have hsome := Index.answers_locations_some w (hold.spells_channel channel) fun l _ => hold.spells_location l
    simpa [hlocations, hold.timeOf?_eq] using hsome

end Records.Hold

/-- Stores that hold the same blocks answer alike. -/
theorem Records.Hold.answersLike {s s' : Store} {h h' : History} (hold : s.records.Hold h)
    (hold' : s'.records.Hold h') (hd : h.Dated) (hmem : ∀ a, a ∈ h ↔ a ∈ h') (hq : s.reading.Quiet)
    (hq' : s'.reading.Quiet) : s.AnswersLike s' := by
  have hlatest (t : String) : s.records.latestOf t = s'.records.latestOf t :=
    Dict.ext_get? fun c => by rw [hold.get?_latestOf, hold'.get?_latestOf, hd.latest?_congr hmem]
  have hchannels : s.records.channelsOf = s'.records.channelsOf := by
    funext t w
    rw [channelsOf, channelsOf, hlatest]
  have hany : s.records.channelsOfAny = s'.records.channelsOfAny := by
    funext ts w
    rw [channelsOfAny, channelsOfAny, hchannels]
  have hlast : s.records.lastTime? = s'.records.lastTime? := by
    rw [hold.lastTime?_eq, hold'.lastTime?_eq, hd.lastTime?_congr hmem]
  constructor
  case channelsOfTopic =>
    intro t w
    refine ⟨s.records.channelsOf t w, (Index.answers_channelsOfTopic w (hold.spells_topic t)).fst_eq rfl hq, ?_⟩
    rw [hchannels]
    exact (Index.answers_channelsOfTopic w (hold'.spells_topic t)).fst_eq rfl hq'
  case channelsOfTopics =>
    intro ts w
    refine ⟨s.records.channelsOfAny ts w,
      (Index.answers_channelsOfTopics w fun t _ => hold.spells_topic t).fst_eq rfl hq, ?_⟩
    rw [hany]
    exact (Index.answers_channelsOfTopics w fun t _ => hold'.spells_topic t).fst_eq rfl hq'
  case lastTimestamp =>
    refine ⟨s.records.lastTime?, (Index.answers_lastTimestamp hold.spells_lastTimestamp).fst_eq rfl hq, ?_⟩
    rw [hlast]
    exact (Index.answers_lastTimestamp hold'.spells_lastTimestamp).fst_eq rfl hq'
  case locations =>
    intro c w
    refine ⟨_, _, (hold.answers_locations c w).fst_eq rfl hq, (hold'.answers_locations c w).fst_eq rfl hq', ?_⟩
    simp only [hd.timeOf?_congr hmem]
    exact (History.locationsOf_perm hmem c).filter _

namespace Index

/-- Additions to an empty store that does not fail leave exactly the records of their history. -/
theorem run_addAll_empty (h : History) {s₀ : Store} (hempty : s₀.records = .empty) (hq : s₀.Quiet) :
    ∃ s, (addAll h).run.run s₀ = (.ok (), s) ∧ s.records.Hold h ∧ s.records.Own ∧ s.reading.Quiet := by
  have hold₀ : s₀.records.Hold [] := hempty ▸ Records.hold_empty
  obtain ⟨hok, hquiet⟩ := run_addAll_quiet h hold₀ hq
  have hrun : (addAll h).run.run s₀ = (.ok (), ((addAll h).run.run s₀).2) := Prod.ext hok rfl
  have hown : s₀.records.Own := hempty ▸ Records.own_empty
  exact ⟨_, hrun, by simpa using hold_addAll hold₀ hrun, records_addAll hrun ▸ hown.addAll h, hquiet.reading⟩

/-- **What the index holds does not depend on the order in which blocks arrive.** Blocks that are added in two orders to
empty stores, each location with one time, leave records under the same keys: those of locations and topics and the
last time are the same byte for byte, and channels list the same locations. So all queries are answered alike, but for
the order of a channel's locations. -/
theorem arrival_order {h h' : History} (hperm : h.Perm h') (hd : h.Dated) {s₀ s₀' : Store}
    (hempty : s₀.records = .empty) (hempty' : s₀'.records = .empty) (hq : s₀.Quiet) (hq' : s₀'.Quiet) :
    ∃ s s', (addAll h).run.run s₀ = (.ok (), s) ∧ (addAll h').run.run s₀' = (.ok (), s') ∧
      s.records.Reordered s'.records ∧ s.AnswersLike s' := by
  obtain ⟨s, hrun, hold, hown, hquiet⟩ := run_addAll_empty h hempty hq
  obtain ⟨s', hrun', hold', hown', hquiet'⟩ := run_addAll_empty h' hempty' hq'
  have hmem : ∀ a, a ∈ h ↔ a ∈ h' := fun a => hperm.mem_iff
  exact ⟨s, s', hrun, hrun', hold.reordered hold' hown hown' hd hmem,
    hold.answersLike hold' hd hmem hquiet hquiet'⟩

/-- A channel that is tagged in two ways. -/
def trialRetagged : BlockHeader :=
  ⟨Dict.empty.insert "c" [0], Dict.empty.insert "c" ["t", "u"], BlockHeader.currentVersion⟩

/-- Two locations in one channel; the first one comes again with another header. -/
def trialArrivals : History := [⟨"l", trialHeader, 5⟩, ⟨"m", trialHeader, 3⟩, ⟨"l", trialRetagged, 5⟩]

theorem arrival_order_trial :
    trialArrivals.Perm trialArrivals.reverse ∧ trialArrivals.Dated ∧ Store.empty.Quiet ∧
      ∃ s s', (addAll trialArrivals).run.run .empty = (.ok (), s) ∧
        (addAll trialArrivals.reverse).run.run .empty = (.ok (), s') ∧ s.records.Reordered s'.records ∧
          s.AnswersLike s' := by
  have hperm : trialArrivals.Perm trialArrivals.reverse := (List.reverse_perm _).symm
  have hdated : trialArrivals.Dated := by
    unfold History.Dated
    decide
  have hquiet : Store.empty.Quiet := ⟨Faults.quiet_never, Faults.quiet_never⟩
  exact ⟨hperm, hdated, hquiet, arrival_order hperm hdated rfl rfl hquiet hquiet⟩

end Index

end Invoicing
