import Invoicing.Proofs.Index.Content

set_option autoImplicit false

/-! # Queries of the index

After any additions every query is answered from the history of these additions (`Index.queries_of_history`). -/

namespace Invoicing

open StoreM Effect

namespace Dict

variable {κ β : Type} [LT κ]

theorem keys_sorted (d : Dict κ β) : d.keys.Pairwise (· < ·) := by
  simpa [keys, List.pairwise_map] using d.sorted

/-- The keys of some entries are in order as well. -/
theorem pairwise_map_fst_filter (d : Dict κ β) (p : κ × β → Bool) :
    ((d.entries.filter p).map Prod.fst).Pairwise (· < ·) := by
  rw [List.pairwise_map]
  exact d.sorted.filter p

end Dict

namespace Records

/-- The channels of a topic whose latest time lies in a window. -/
def channelsOf (records : Records) (topic : String) (window : Option Window) : List String :=
  ((records.latestOf topic).entries.filter fun (_, time) => Window.admits window time).map Prod.fst

/-- The channels of any of some topics. -/
def channelsOfAny (records : Records) (topics : List String) (window : Option Window) : List String :=
  (Dict.ofList ((topics.flatMap fun topic => records.channelsOf topic window).map
    fun channel => (channel, ()))).keys

theorem mem_channelsOf {records : Records} {topic channel : String} {window : Option Window} :
    channel ∈ records.channelsOf topic window ↔
      ∃ time, (records.latestOf topic).get? channel = some time ∧ Window.admits window time := by
  simp only [channelsOf, List.mem_map, List.mem_filter, Prod.exists, Dict.get?_eq_some_iff]
  constructor
  · rintro ⟨_, time, ⟨hmem, hadmits⟩, rfl⟩
    exact ⟨time, hmem, hadmits⟩
  · rintro ⟨time, hmem, hadmits⟩
    exact ⟨channel, time, ⟨hmem, hadmits⟩, rfl⟩

theorem mem_channelsOfAny {records : Records} {topics : List String} {channel : String}
    {window : Option Window} :
    channel ∈ records.channelsOfAny topics window ↔
      ∃ topic ∈ topics, channel ∈ records.channelsOf topic window := by
  rw [channelsOfAny, Dict.mem_keys_iff, Dict.get?_ofList_graph (fun _ => ()), ← List.mem_flatMap]
  split <;> simp_all

end Records

namespace Index

variable {records : Records}

/-! ## What the queries answer -/

theorem answers_locations_none {channel : String}
    (h : Records.Spells (List String) records (.channel channel)) :
    (locations channel none).Answers records (.ok (records.locationsOf channel)) :=
  h.answers.bind (answers_pure _)

theorem answers_locations_some {channel : String} (window : Window)
    (h : Records.Spells (List String) records (.channel channel))
    (htimes : ∀ l ∈ records.locationsOf channel, Records.Spells Timestamp records (.location l)) :
    (locations channel (some window)).Answers records
      (.ok ((records.locationsOf channel).filter fun l => (records.timeOf? l).any window.contains)) :=
  h.answers.bind (Answers.filterM fun l hl => (htimes l hl).answers.bind (answers_pure _))

theorem answers_channelsOfTopic {topic : String} (window : Option Window)
    (h : Records.Spells (Dict String Timestamp) records (.topic topic)) :
    (channelsOfTopic topic window).Answers records (.ok (records.channelsOf topic window)) :=
  h.answers.bind (answers_pure _)

theorem answers_channelsOfTopics {topics : List String} (window : Option Window)
    (h : ∀ topic ∈ topics, Records.Spells (Dict String Timestamp) records (.topic topic)) :
    (channelsOfTopics topics window).Answers records (.ok (records.channelsOfAny topics window)) := by
  refine (Answers.mapM fun t ht => answers_channelsOfTopic window (h t ht)).bind ?_
  rw [← List.flatMap_def]
  exact answers_pure _

theorem answers_lastTimestamp (h : Records.Spells Timestamp records .lastTimestamp) :
    lastTimestamp.Answers records (.ok records.lastTime?) := h.answers

/-! ## Many blocks -/

/-- Adds the blocks of a history. -/
def addAll (h : History) : StoreM Unit := h.forM fun a => add a.location a.header a.timestamp

/-- Blocks that are added without trouble make up the history that the records hold. -/
theorem hold_addAll {h₀ h : History} {s s' : Store} (hold : s.records.Hold h₀)
    (hrun : (addAll h).run.run s = (.ok (), s')) : s'.records.Hold (h₀ ++ h) := by
  induction h generalizing h₀ s with
  | nil =>
    cases hrun
    simpa using hold
  | cons a h ih =>
    have hadd : addAll (a :: h) = add a.location a.header a.timestamp >>= fun _ => addAll h := rfl
    rw [hadd] at hrun
    rcases (run_add (hold.readableFor a.location a.header) a.timestamp).2 with ⟨hok, hrec⟩ | ⟨-, ⟨f, hf⟩, -⟩
    · rw [run_bind_ok hok] at hrun
      have hold' := hold.write_batchFor a
      rw [← hrec] at hold'
      simpa using ih hold' hrun
    · rw [run_bind_error hf] at hrun
      cases hrun

/-- While no call to the store fails, every block is added. -/
theorem run_addAll_quiet (h : History) {h₀ : History} {s : Store} (hold : s.records.Hold h₀)
    (hq : s.Quiet) :
    ((addAll h).run.run s).1 = .ok () ∧ ((addAll h).run.run s).2.Quiet := by
  induction h generalizing h₀ s with
  | nil => exact ⟨rfl, hq⟩
  | cons a h ih =>
    have hadd : addAll (a :: h) = add a.location a.header a.timestamp >>= fun _ => addAll h := rfl
    obtain ⟨hq', ⟨hok, hrec⟩ | ⟨hnq, -⟩⟩ := run_add (hold.readableFor a.location a.header) a.timestamp
    · rw [hadd, run_bind_ok hok]
      have hold' := hold.write_batchFor a
      rw [← hrec] at hold'
      exact ih hold' (hq' hq)
    · exact absurd hq hnq

end Index

/-- **Every query answers from the history of additions.** -/
theorem Index.queries_of_history (h : History) {s₀ s : Store} (hempty : s₀.records = .empty)
    (hadd : (addAll h).run.run s₀ = (.ok (), s)) (hq : s.reading.Quiet) :
    (∀ c, (h.locationsOf c).Nodup ∧
      ((locations c none).run.run s).1 = .ok (h.locationsOf c)) ∧
    (∀ c w, ((locations c (some w)).run.run s).1 =
      .ok ((h.locationsOf c).filter fun l => (h.timeOf? l).any w.contains)) ∧
    (∀ t w, ∃ cs, ((channelsOfTopic t w).run.run s).1 = .ok cs ∧ cs.Pairwise (· < ·) ∧
      ∀ c, c ∈ cs ↔ ∃ time, h.latest? t c = some time ∧ Window.admits w time) ∧
    (∀ ts w, ∃ cs, ((channelsOfTopics ts w).run.run s).1 = .ok cs ∧ cs.Pairwise (· < ·) ∧
      ∀ c, c ∈ cs ↔ ∃ t ∈ ts, ∃ time, h.latest? t c = some time ∧ Window.admits w time) ∧
    (lastTimestamp.run.run s).1 = .ok h.lastTime? := by
  -- All that is left of the additions is that the records hold their history.
  have hold : s.records.Hold h := by
    have hold₀ : s₀.records.Hold [] := hempty ▸ Records.hold_empty
    simpa using hold_addAll hold₀ hadd
  have hchannels (t c w) : c ∈ s.records.channelsOf t w ↔
      ∃ time, h.latest? t c = some time ∧ Window.admits w time := by
    rw [Records.mem_channelsOf, hold.get?_latestOf]
  refine ⟨fun c => ⟨h.nodup_locationsOf c, ?_⟩, fun c w => ?_, fun t w => ?_, fun ts w => ?_, ?_⟩
  · rw [(answers_locations_none (hold.spells_channel c)).fst_eq rfl hq, hold.locationsOf_eq]
  · rw [(answers_locations_some w (hold.spells_channel c) fun l _ => hold.spells_location l).fst_eq
      rfl hq, hold.locationsOf_eq]
    simp only [hold.timeOf?_eq]
  · exact ⟨_, (answers_channelsOfTopic w (hold.spells_topic t)).fst_eq rfl hq,
      Dict.pairwise_map_fst_filter _ _, fun c => hchannels t c w⟩
  · refine ⟨_, (answers_channelsOfTopics w fun t _ => hold.spells_topic t).fst_eq rfl hq,
      Dict.keys_sorted _, fun c => ?_⟩
    simp only [Records.mem_channelsOfAny, hchannels]
  · rw [(answers_lastTimestamp hold.spells_lastTimestamp).fst_eq rfl hq, hold.lastTime?_eq]

/-- A header with one channel and one topic. -/
def Index.trialHeader : BlockHeader :=
  ⟨Dict.empty.insert "c" [0], Dict.empty.insert "c" ["t"], BlockHeader.currentVersion⟩

/-- Three additions, of which the last one repeats the location of the first with a later time. -/
def Index.trialAdditions : History :=
  [⟨"l", trialHeader, 5⟩, ⟨"m", trialHeader, 3⟩, ⟨"l", trialHeader, 9⟩]

/-- The repeated location stays where it was, with its first time. -/
theorem Index.queries_of_trialAdditions :
    ∃ s, (addAll trialAdditions).run.run .empty = (.ok (), s) ∧ s.reading.Quiet ∧
      ((locations "c" none).run.run s).1 = .ok ["l", "m"] ∧
      ((locations "c" (some (.between 4 5))).run.run s).1 = .ok ["l"] ∧
      (lastTimestamp.run.run s).1 = .ok (some 5) := by
  obtain ⟨hok, hq⟩ := run_addAll_quiet trialAdditions (s := .empty) Records.hold_empty
    ⟨Faults.quiet_never, Faults.quiet_never⟩
  generalize hrun : (addAll trialAdditions).run.run .empty = outcome at hok hq
  obtain ⟨result, s⟩ := outcome
  subst hok
  have hempty : Store.empty.records = .empty := rfl
  obtain ⟨hall, hwindow, -, -, hlast⟩ := queries_of_history trialAdditions hempty hrun hq.reading
  have hlocations : History.locationsOf trialAdditions "c" = ["l", "m"] := by decide +kernel
  have hearly : ((History.locationsOf trialAdditions "c").filter fun l =>
    (History.timeOf? trialAdditions l).any (Window.between 4 5).contains) = ["l"] := by decide +kernel
  have hlatest : History.lastTime? trialAdditions = some 5 := by decide +kernel
  refine ⟨s, rfl, hq.reading, ?_, ?_, ?_⟩
  · rw [(hall "c").2, hlocations]
  · rw [hwindow "c", hearly]
  · rw [hlast, hlatest]

end Invoicing
