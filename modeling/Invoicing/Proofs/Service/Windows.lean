import Invoicing.Proofs.Service.Provenance
import Invoicing.Proofs.Service.Resume

set_option autoImplicit false

/-! # Windows of a channel

A query in a window picks locations by the times that the index has for them, and shows the times with which the storage
keeps the blobs. On every run these are the same (`Engine.stored_through`), whoever stored a blob, however often and
however it was indexed. So the answer is that of the query without a window, less the entries outside of it
(`DataService.channel_window`). -/

namespace Invoicing

theorem Window.contains_closedAt (window : Window) (now t : Timestamp) :
    (window.closedAt now).contains t = decide (window.lower.getD 0 ≤ t ∧ t ≤ window.upper.getD now) := by
  cases hupper : window.upper <;> simp [closedAt, contains, hupper]

/-! ## The times of the index -/

/-- What the index lists has the time there with which the log keeps it. -/
theorem History.timeOf?_of_stored {log : BlobLog} {h : History} (hnodup : (log.blobs.map (·.location)).Nodup)
    (hstored : ∀ a ∈ h, Stored log a) {channel location : String} (hlisted : location ∈ h.locationsOf channel) :
    h.timeOf? location = some (log.held location).info.timestamp := by
  obtain ⟨a, ha, -, rfl⟩ := mem_locationsOf.1 hlisted
  obtain ⟨blob, hblob, hlocation, htime⟩ := hstored a ha
  obtain ⟨found, hfound⟩ := (hstored a ha).exists_find?
  have hfound' : found.location = a.location := by simpa using List.find?_some hfound
  -- The first blob under the location is the one that was indexed, for the location is used once.
  obtain rfl := BlobLog.eq_of_location hnodup (List.mem_of_find?_eq_some hfound) hblob (hfound'.trans hlocation.symm)
  rw [(dated_of_stored hnodup hstored).timeOf?_eq ha, BlobLog.held_of_find? hfound, htime]

/-! ## Reading in a window -/

namespace Engine

variable {e : Engine} {h : History}

/-- Every location of a channel that was read is that of a block in the log. -/
theorem Carries.blocks_of_channelEntries (hc : e.Carries h) {channel : String} {entries : List ChannelEntry}
    (hok : ((Task.channelEntries channel none).run e.site).1 = .ok entries) :
    ∀ l ∈ h.locationsOf channel, ∃ blob, e.site.storage.log.find? l = some blob ∧
      ∃ block, Block.parse blob.content = .ok block := by
  obtain ⟨locations, groups, hanswers, -, hgroups, -⟩ := hc.gives_of_channelEntries hok
  have hlisted := Index.answers_locations_none (hc.records.spells_channel channel)
  rw [hc.records.locationsOf_eq] at hlisted
  cases hanswers.unique hlisted
  intro l hl
  obtain ⟨i, hi, rfl⟩ := List.getElem_of_mem hl
  obtain ⟨hlength, hgives⟩ := List.forall₂_iff_get.1 hgroups
  obtain ⟨stored, block, -, hread, hparse, -⟩ := hgives i hi (hlength ▸ hi)
  rw [StorageNode.read_unscripted hc.script, BlobLog.read, List.get_eq_getElem] at hread
  split at hread
  · next blob hfound =>
    cases hread
    exact ⟨blob, hfound, block, hparse⟩
  · cases hread

/-- A channel that was read is read in a window as well, and its entries are those of before with a time in the window,
unless a read of the index fails. -/
theorem Carries.channelEntries_window (hc : e.Carries h)
    (hnodup : (e.site.storage.log.blobs.map (·.location)).Nodup) (hstored : ∀ a ∈ h, Stored e.site.storage.log a)
    {channel : String} {entries : List ChannelEntry}
    (hok : ((Task.channelEntries channel none).run e.site).1 = .ok entries) (window : Window) :
    let inside := entries.filter fun entry =>
      window.lower.getD 0 ≤ entry.info.timestamp ∧ entry.info.timestamp ≤ window.upper.getD e.site.clock.now
    ((Task.channelEntries channel (some window)).run e.site).1 = .ok inside ∨
      ¬ e.site.index.store.reading.Quiet ∧
        ∃ error, ((Task.channelEntries channel (some window)).run e.site).1 = .error error := by
  intro inside
  have hblocks := hc.blocks_of_channelEntries hok
  have hlisted := Index.answers_locations_none (hc.records.spells_channel channel)
  have hpicked := Index.answers_locations_some (window.closedAt e.site.serviceTime)
    (hc.records.spells_channel channel) fun l _ => hc.records.spells_location l
  rw [hc.records.locationsOf_eq] at hlisted hpicked
  have hentries : entries = (h.locationsOf channel).flatMap (e.site.storage.log.entriesAt channel) := by
    rcases @Task.run_channelEntries_cases e.site channel none _ hc.script hlisted hblocks with hall | ⟨-, error, herror⟩
    · exact Except.ok.inj (hok.symm.trans hall)
    · cases hok.symm.trans herror
  -- All entries at a location have the time of its blob, by which the index picks the location.
  have hinside : inside = ((h.locationsOf channel).filter fun l =>
      (e.site.index.store.records.timeOf? l).any (window.closedAt e.site.serviceTime).contains).flatMap
        (e.site.storage.log.entriesAt channel) := by
    rw [← filter_flatMap_of_forall, ← hentries]
    intro l hl entry hentry
    obtain ⟨t, rfl⟩ := BlobLog.exists_of_mem_entriesAt hentry
    rw [hc.records.timeOf?_eq, History.timeOf?_of_stored hnodup hstored hl, Option.any_some, hc.serviceTime_eq,
      Window.contains_closedAt]
  rw [hinside]
  exact Task.run_channelEntries_cases hc.script hpicked fun l hl => hblocks l (List.mem_of_mem_filter hl)

end Engine

namespace DataService

/-- **A query in a window is the filtered query without one.** Whatever happened before, if a channel is read then it is
read in every window: as long as no read of the index fails, the answer is made up of the entries with a time in the
window, in the same order and with the same locations and meta data. A window without a lower end starts at zero, and
one without an upper end stops at the present. -/
theorem channel_window (turns : List Turn) (now : Timestamp) (s : DataService)
    (hs : s.engine = (Engine.new (.empty now)).through turns) {channel : String} {all : ChannelView}
    (hall : (s.channel channel none).1 = .ok all) :
    ∃ entries, all = .ofEntries entries ∧ ∀ window : Window,
      let inside := entries.filter fun entry =>
        window.lower.getD 0 ≤ entry.info.timestamp ∧
          entry.info.timestamp ≤ window.upper.getD s.engine.site.clock.now
      (s.engine.site.index.store.reading.Quiet →
        (s.channel channel (some window)).1 = .ok (.ofEntries inside)) ∧
      ∀ view, (s.channel channel (some window)).1 = .ok view → view = .ofEntries inside := by
  obtain ⟨h, hc, hnodup, hstored⟩ := Engine.stored_through turns now
  rw [← hs] at hc hnodup hstored
  have hready : s.engine.isReady = true := by
    by_contra hnot
    replace hall : (s.engine.perform (ChannelView.ofEntries <$> Task.channelEntries channel none)).1 = .ok all := hall
    rw [Engine.perform_not_ready hnot] at hall
    cases hall
  rw [channel_eq_map hready] at hall
  cases hok : ((Task.channelEntries channel none).run s.engine.site).1 with
  | error error =>
    rw [hok] at hall
    cases hall
  | ok entries =>
    rw [hok] at hall
    refine ⟨entries, (Except.ok.inj hall).symm, ?_⟩
    intro window inside
    rw [channel_eq_map hready]
    rcases hc.channelEntries_window hnodup hstored hok window with hinside | ⟨hnot, error, herror⟩
    · rw [hinside]
      exact ⟨fun _ => rfl, fun view hview => (Except.ok.inj hview).symm⟩
    · refine ⟨fun hquiet => absurd hquiet hnot, fun view hview => ?_⟩
      rw [herror] at hview
      cases hview

/-- The index does not fail any more when a transaction is stored. -/
def storedTurns : List Turn :=
  [.event .setUp, .event (.schedule .never .never .never),
    .event (.persist Block.trialTransaction Block.trialChannel [Block.trialTopic])]

theorem collisionFree_storedTurns : CollisionFree (storedTurns.flatMap Turn.contents) := by
  intro x hx y hy _
  rw [List.mem_singleton.1 hx, List.mem_singleton.1 hy]

/-- The transaction is the latest that the index has learned. -/
theorem through_storedTurns {e : Engine} (he : e = (Engine.new (.empty 10)).through storedTurns) :
    e.isReady = true ∧ e.site.index.store.Quiet ∧ ∃ (h : History) (site : Site),
      e.Carries (h ++ [site.additionFor Block.trialTransaction Block.trialChannel [Block.trialTopic]]) := by
  obtain ⟨e₀, he₀⟩ : ∃ e₀, e₀ = (Engine.new (.empty 10)).through (storedTurns.take 2) := ⟨_, rfl⟩
  have hready : e₀.isReady = true := by
    rw [he₀]
    decide +kernel
  have hquiet : e₀.site.index.store.Quiet := by
    rw [he₀]
    exact (Engine.quiet_schedule _).2
  obtain ⟨h, hc⟩ := Engine.carries_through (storedTurns.take 2) (Engine.carries_new 10)
  rw [← he₀] at hc
  have hlast : e =
      (e₀.perform (Task.persist Block.trialTransaction Block.trialChannel [Block.trialTopic])).2 := by
    rw [he, he₀]
    rfl
  obtain ⟨added, ht', hstatus, hquiet', ⟨-, rfl⟩ | ⟨-, hnq, -⟩⟩ := (hc.tracks (hc.ready hready)).persist hready
    Block.trialTransaction Block.trialChannel (show Task.checkTopics [Block.trialTopic] = .ok () from rfl)
  · rw [hlast]
    exact ⟨(congrArg Engine.Status.isReady hstatus).trans hready, hquiet' hquiet, h, e₀.site, ht'.carries⟩
  · exact absurd hquiet hnq

/-- The channel of the transaction is read. -/
theorem channel_storedTurns {s : DataService} (hs : s.engine = (Engine.new (.empty 10)).through storedTurns) :
    ∃ entries, (s.channel Block.trialChannel none).1 = .ok (.ofEntries entries) := by
  obtain ⟨hready, hquiet, -⟩ := through_storedTurns hs
  obtain ⟨h, hc, hp⟩ := Engine.placed_through storedTurns (Engine.carries_new 10) (Engine.placed_new 10)
    (fun _ hcontent => hcontent) collisionFree_storedTurns
  rw [← hs] at hc hp
  have hentries := Task.run_channelEntries hc.script hc.records hquiet.reading hp
    collisionFree_storedTurns (show ContentHash.isWellFormed Block.trialChannel = true from rfl)
  exact ⟨_, channel_fst hready Block.trialChannel hentries⟩

/-- What was stored at the time ten is asked for in the windows up to five and from five on. -/
theorem channel_window_trial :
    ∃ s : DataService, s.engine = (Engine.new (.empty 10)).through storedTurns ∧ ∃ entries,
      (s.channel Block.trialChannel none).1 = .ok (.ofEntries entries) ∧
      (s.channel Block.trialChannel (some ⟨none, some 5⟩)).1 =
        .ok (.ofEntries (entries.filter fun entry => entry.info.timestamp ≤ 5)) ∧
      (s.channel Block.trialChannel (some ⟨some 5, none⟩)).1 =
        .ok (.ofEntries (entries.filter fun entry =>
          5 ≤ entry.info.timestamp ∧ entry.info.timestamp ≤ s.engine.site.clock.now)) := by
  let s : DataService := ⟨.standard, (Engine.new (.empty 10)).through storedTurns, .new 0 1 0⟩
  obtain ⟨-, hquiet, -⟩ := @through_storedTurns s.engine rfl
  obtain ⟨entries, hok⟩ := @channel_storedTurns s rfl
  obtain ⟨entries, hall, hwindow⟩ := @channel_window storedTurns 10 s rfl Block.trialChannel _ hok
  rw [hall] at hok
  have hupTo := (hwindow ⟨none, some 5⟩).1 hquiet.reading
  simp only [Option.getD_none, Option.getD_some, UInt64.zero_le, true_and] at hupTo
  exact ⟨s, rfl, entries, hok, hupTo, (hwindow ⟨some 5, none⟩).1 hquiet.reading⟩

end DataService

end Invoicing
