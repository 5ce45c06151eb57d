import Invoicing.Proofs.Service.Topics
import Invoicing.Proofs.Service.Windows

set_option autoImplicit false

/-! # Channels by topic

A question for topics is the queries for the channels that it finds, side by side: its three maps have these channels
as keys, each with the three lists of its own query, and it is refused if one of these queries is
(`DataService.channelsOfTopics_channel`). The two go through the index in different ways, and whatever is read on the
way leaves a site on which no later read has another answer (`Task.run_topicsEntries_eq`). -/

namespace Invoicing

/-! ## The channels that are found -/

/-- Does the latest time of the channel with one of the topics lie in the window? -/
def History.UpdatedIn (h : History) (topics : List String) (window : Option Window) (channel : String) : Prop :=
  ∃ topic ∈ topics, ∃ time, h.latest? topic channel = some time ∧ Window.admits window time

namespace Records

theorem Hold.mem_channelsOfAny {records : Records} {h : History} (hold : records.Hold h) {topics : List String}
    {window : Option Window} {channel : String} :
    channel ∈ records.channelsOfAny topics window ↔ h.UpdatedIn topics window channel := by
  simp only [Records.mem_channelsOfAny, mem_channelsOf, hold.get?_latestOf, History.UpdatedIn]

/-- Neither the order of the topics makes a difference nor a topic that is repeated. -/
theorem channelsOfAny_congr {topics topics' : List String} (h : ∀ topic, topic ∈ topics ↔ topic ∈ topics')
    (records : Records) (window : Option Window) :
    records.channelsOfAny topics window = records.channelsOfAny topics' window := by
  have hmem (channel : String) : (channel ∈ topics.flatMap fun topic => records.channelsOf topic window) ↔
      channel ∈ topics'.flatMap fun topic => records.channelsOf topic window := by
    simp only [List.mem_flatMap, h]
  refine congrArg Dict.keys (Dict.ext_get? fun channel => ?_)
  rw [Dict.get?_ofList_graph (fun _ => ()), Dict.get?_ofList_graph (fun _ => ()), if_congr (hmem channel) rfl rfl]

end Records

/-! ## Three maps -/

namespace ChannelViews

/-- The three maps have the lists of a view for the channel. -/
structure Shows (views : ChannelViews) (channel : String) (view : ChannelView) : Prop where
  transactions : views.transactions.get? channel = some view.transactions
  locations : views.locations.get? channel = some view.locations
  infos : views.infos.get? channel = some view.infos

/-- The three maps of a map to entries. -/
def ofDict (found : Dict String (List ChannelEntry)) : ChannelViews where
  transactions := found.mapValues fun es => (ChannelView.ofEntries es).transactions
  locations := found.mapValues fun es => (ChannelView.ofEntries es).locations
  infos := found.mapValues fun es => (ChannelView.ofEntries es).infos

theorem ofDict_insert (found : Dict String (List ChannelEntry)) (channel : String) (es : List ChannelEntry) :
    ofDict (found.insert channel es) = (ofDict found).insert channel (.ofEntries es) := by
  simp only [ofDict, insert, Dict.mapValues_insert]

theorem ofEntries_eq (channels : List (String × List ChannelEntry)) :
    ofEntries channels = ofDict (.ofList channels) := by
  have hom := @List.foldl_hom _ _ _ ofDict (fun found channel => found.insert channel.1 channel.2)
    (fun views channel => views.insert channel.1 (.ofEntries channel.2)) channels .empty
  exact hom fun found channel => (ofDict_insert found channel.1 channel.2).symm

theorem keys_ofEntries (channels : List (String × List ChannelEntry)) :
    let views := ofEntries channels
    views.transactions.keys = views.locations.keys ∧ views.locations.keys = views.infos.keys := by
  simp only [ofEntries_eq, ofDict, Dict.keys_mapValues, and_self]

/-- Channels with their entries become keys, each with the lists of its entries. -/
theorem ofEntries_graph (entries : String → List ChannelEntry) (channels : List String) :
    let views := ofEntries (channels.map fun channel => (channel, entries channel))
    (∀ channel, channel ∈ views.channels ↔ channel ∈ channels) ∧
      ∀ channel ∈ channels, views.Shows channel (.ofEntries (entries channel)) := by
  intro views
  have hget := Dict.get?_ofList_graph entries channels
  have hviews : views = ofDict _ := ofEntries_eq _
  refine ⟨fun channel => ?_, fun channel hchannel => ?_⟩
  · rw [ChannelViews.channels, hviews, ofDict, Dict.keys_mapValues, Dict.mem_keys_iff, hget]
    split <;> simp_all
  · rw [hviews, ofDict]
    constructor <;> rw [Dict.get?_mapValues, hget, if_pos hchannel] <;> rfl

end ChannelViews

/-! ## Topics and channels -/

namespace DataService

variable {s : DataService} {h : History} {topics : List String} {window : Option Window}

theorem channelsOfTopics_not_ready (hnot : ¬ s.engine.isReady = true) :
    (s.channelsOfTopics topics window).1 = .error .notReady := by
  show (s.engine.perform (ChannelViews.ofEntries <$> Task.topicsEntries topics window)).1 = _
  rw [Engine.perform_not_ready hnot]

/-- A question for topics is answered with what the queries for the channels are answered with. -/
theorem channelsOfTopics_eq_mapM (hc : s.engine.Carries h) (hq : s.engine.site.index.store.reading.Quiet)
    (hready : s.engine.isReady = true) (htopics : Task.checkTopics topics = .ok ()) :
    (s.channelsOfTopics topics window).1 =
      ((s.engine.site.index.store.records.channelsOfAny topics
        (window.map (·.closedAt s.engine.site.clock.now))).mapM fun channel =>
          ((Task.channelEntries channel none).run s.engine.site).1.map (channel, ·)).map ChannelViews.ofEntries := by
  rw [channelsOfTopics_fst hready, Task.run_topicsEntries_eq hc.records hq htopics, hc.serviceTime_eq]

/-- If it is answered, then the maps have the channels that are found as keys, each with the lists of its query. -/
theorem shows_of_channelsOfTopics (hc : s.engine.Carries h) (hq : s.engine.site.index.store.reading.Quiet)
    (hready : s.engine.isReady = true) (htopics : Task.checkTopics topics = .ok ()) {views : ChannelViews}
    (hok : (s.channelsOfTopics topics window).1 = .ok views) :
    let found := h.UpdatedIn topics (window.map (·.closedAt s.engine.site.clock.now))
    (views.transactions.keys = views.locations.keys ∧ views.locations.keys = views.infos.keys) ∧
      (∀ channel, channel ∈ views.channels ↔ found channel) ∧
      ∀ channel, found channel → ∃ view, (s.channel channel none).1 = .ok view ∧ views.Shows channel view := by
  intro found
  rw [channelsOfTopics_eq_mapM hc hq hready htopics] at hok
  cases hread : (s.engine.site.index.store.records.channelsOfAny topics
      (window.map (·.closedAt s.engine.site.clock.now))).mapM fun channel =>
        ((Task.channelEntries channel none).run s.engine.site).1.map (channel, ·) with
  | error error =>
    rw [hread] at hok
    cases hok
  | ok pairs =>
    obtain ⟨entries, hentries, hpairs⟩ := Effect.exists_graph_of_mapM hread
    rw [hread, hpairs] at hok
    obtain rfl := (Except.ok.inj hok).symm
    obtain ⟨hkeys, hshows⟩ := ChannelViews.ofEntries_graph entries (s.engine.site.index.store.records.channelsOfAny
      topics (window.map (·.closedAt s.engine.site.clock.now)))
    refine ⟨ChannelViews.keys_ofEntries _, fun channel => ?_, fun channel hfound => ?_⟩
    · rw [hkeys, hc.records.mem_channelsOfAny]
    · have hmem := hc.records.mem_channelsOfAny.2 hfound
      refine ⟨_, ?_, hshows channel hmem⟩
      rw [channel_eq_map hready, hentries channel hmem]
      rfl

/-- It is refused exactly if one of the queries is. -/
theorem channelsOfTopics_error_iff (hc : s.engine.Carries h) (hq : s.engine.site.index.store.reading.Quiet)
    (hready : s.engine.isReady = true) (htopics : Task.checkTopics topics = .ok ()) :
    (∃ error, (s.channelsOfTopics topics window).1 = .error error) ↔
      ∃ channel, h.UpdatedIn topics (window.map (·.closedAt s.engine.site.clock.now)) channel ∧
        ∃ error, (s.channel channel none).1 = .error error := by
  have hmap {α β : Type} (f : α → β) (r : Except ServiceError α) :
      (∃ error, r.map f = .error error) ↔ ∃ error, r = .error error := by
    cases r with
    | ok a => exact ⟨fun ⟨_, h⟩ => (nomatch h), fun ⟨_, h⟩ => (nomatch h)⟩
    | error error => exact ⟨fun _ => ⟨error, rfl⟩, fun _ => ⟨error, rfl⟩⟩
  simp only [channelsOfTopics_eq_mapM hc hq hready htopics, channel_eq_map hready, hmap, Effect.mapM_error_iff,
    hc.records.mem_channelsOfAny]

/-- **A question for topics is the queries for the channels that it finds.** Let the topics be content hashes, and let
no read of the index fail. If the question is answered, then the three maps have the same keys: the channels whose
latest update with one of the topics lies in the window, which ends at the present if it is open. Each has the lists of
the query for this channel without a window. Once the service is set up, the question is refused exactly if one of
these queries is. It is of no account in which order the topics are, and how often. -/
theorem channelsOfTopics_channel (turns : List Turn) (now : Timestamp) (s : DataService)
    (hs : s.engine = (Engine.new (.empty now)).through turns) (hquiet : s.engine.site.index.store.reading.Quiet)
    {topics : List String} (htopics : ∀ topic ∈ topics, ContentHash.isWellFormed topic = true)
    (window : Option Window) :
    ∃ h : History, s.engine.Carries h ∧ (∀ a ∈ h, Stored s.engine.site.storage.log a) ∧
      let found := h.UpdatedIn topics (window.map (·.closedAt s.engine.site.clock.now))
      (∀ views, (s.channelsOfTopics topics window).1 = .ok views →
        (views.transactions.keys = views.locations.keys ∧ views.locations.keys = views.infos.keys) ∧
        (∀ channel, channel ∈ views.channels ↔ found channel) ∧
        ∀ channel, found channel → ∃ view, (s.channel channel none).1 = .ok view ∧ views.Shows channel view) ∧
      ((∃ error, (s.channelsOfTopics topics window).1 = .error error) ↔
        ¬ s.engine.isReady = true ∨ ∃ channel, found channel ∧ ∃ error, (s.channel channel none).1 = .error error) ∧
      ∀ topics', (∀ topic, topic ∈ topics' ↔ topic ∈ topics) →
        (s.channelsOfTopics topics' window).1 = (s.channelsOfTopics topics window).1 := by
  obtain ⟨h, hc, -, hstored⟩ := Engine.stored_through turns now
  rw [← hs] at hc hstored
  refine ⟨h, hc, hstored, ?_⟩
  intro found
  have hchecked := Task.checkTopics_eq_ok.2 htopics
  by_cases hready : s.engine.isReady = true
  · refine ⟨fun views hok => shows_of_channelsOfTopics hc hquiet hready hchecked hok, ?_, fun topics' hsame => ?_⟩
    · rw [channelsOfTopics_error_iff hc hquiet hready hchecked]
      exact (or_iff_right (not_not_intro hready)).symm
    · have hchecked' := Task.checkTopics_eq_ok.2 fun topic htopic => htopics topic ((hsame topic).1 htopic)
      rw [channelsOfTopics_eq_mapM hc hquiet hready hchecked, channelsOfTopics_eq_mapM hc hquiet hready hchecked',
        Records.channelsOfAny_congr hsame]
  · refine ⟨fun views hok => ?_, iff_of_true ⟨_, channelsOfTopics_not_ready hready⟩ (.inl hready), fun _ _ => ?_⟩
    · cases (channelsOfTopics_not_ready hready).symm.trans hok
    · rw [channelsOfTopics_not_ready hready, channelsOfTopics_not_ready hready]

/-- All that was stored is a block of the trial channel, so the question for its topic is answered. -/
theorem channelsOfTopics_storedTurns (hs : s.engine = (Engine.new (.empty 10)).through storedTurns)
    (htopics : Task.checkTopics topics = .ok ()) : ∃ views, (s.channelsOfTopics topics window).1 = .ok views := by
  obtain ⟨hready, hquiet, -⟩ := through_storedTurns hs
  obtain ⟨h, hc, hf⟩ := Engine.filed_through storedTurns (Engine.carries_new 10) (Engine.filed_new 10)
    (fun _ hcontent => hcontent) collisionFree_storedTurns
  rw [← hs] at hc hf
  refine (channelsOfTopics_isOk hc hquiet.reading hf collisionFree_storedTurns).2
    ⟨hready, htopics, fun channel hfound => ?_⟩
  obtain ⟨location, hlocation⟩ := List.exists_mem_of_ne_nil _ (Task.locationsOf_ne_nil hc.records hf hfound)
  obtain ⟨a, ha, hmentions, -⟩ := History.mem_locationsOf.1 hlocation
  by_contra hmalformed
  obtain ⟨blob, hblob, -, hrefused⟩ := (hf.vetted a ha).refused channel (Bool.eq_false_iff.2 hmalformed) hmentions
  have hparse : Block.parse Block.trial.render = .ok Block.trial :=
    Block.parse_render_push_empty Block.trialTransaction rfl (by decide)
  rw [List.mem_singleton.1 (hf.content_mem blob hblob)] at hrefused
  cases hrefused.symm.trans hparse

/-- A question with a topic twice shows the channel of the transaction as the query for this channel does. -/
theorem channelsOfTopics_channel_trial :
    ∃ s : DataService, s.engine = (Engine.new (.empty 10)).through storedTurns ∧ ∃ views view,
      (s.channelsOfTopics [Block.trialTopic, Block.trialTopic] none).1 = .ok views ∧
      (s.channel Block.trialChannel none).1 = .ok view ∧ Block.trialChannel ∈ views.channels ∧
      views.Shows Block.trialChannel view ∧ (s.channelsOfTopics [Block.trialTopic] none).1 = .ok views := by
  let s : DataService := ⟨.standard, (Engine.new (.empty 10)).through storedTurns, .new 0 1 0⟩
  obtain ⟨-, hquiet, h₀, site, hc₀⟩ := @through_storedTurns s.engine rfl
  obtain ⟨views, hok⟩ :=
    @channelsOfTopics_storedTurns s [Block.trialTopic, Block.trialTopic] none rfl rfl
  obtain ⟨h, hc, -, hviews, -, hsame⟩ := channelsOfTopics_channel storedTurns 10 s rfl hquiet.reading
    (show ∀ topic ∈ [Block.trialTopic, Block.trialTopic], ContentHash.isWellFormed topic = true by decide) none
  obtain ⟨-, hkeys, hshows⟩ := hviews views hok
  have hfound : h.UpdatedIn [Block.trialTopic, Block.trialTopic] none Block.trialChannel := by
    rw [← hc.records.mem_channelsOfAny, hc₀.records.mem_channelsOfAny]
    refine ⟨Block.trialTopic, List.mem_cons_self, ?_⟩
    rw [History.latest?_append_single, if_pos (tags_additionFor.2 ⟨rfl, List.mem_cons_self⟩)]
    exact ⟨_, rfl, rfl⟩
  obtain ⟨view, hview, hshown⟩ := hshows _ hfound
  refine ⟨s, rfl, views, view, hok, hview, (hkeys _).2 hfound, hshown, (hsame _ fun topic => ?_).trans hok⟩
  simp

end DataService

end Invoicing
