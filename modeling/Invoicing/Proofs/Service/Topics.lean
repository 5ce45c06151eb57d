import Invoicing.Proofs.Index.Frame
import Invoicing.Proofs.Service.Replay
import Invoicing.Proofs.Service.Restart

set_option autoImplicit false

/-! # Asking for topics

A question for topics reads all channels that the index finds for them. It is answered if all of them are content
hashes, and refused for one that is not (`Task.run_topicsEntries`): a block of such a channel is stored and indexed,
but when it is read it is no block. So one such transaction with a topic closes the topic for every channel that
has it (`DataService.topics_after_persist`). -/

namespace Invoicing

/-- The index lists a block for its own channels alone. If one of them is no content hash, then the block is in the
log as a text that is refused for this channel. -/
structure Vetted (log : BlobLog) (a : Addition) : Prop where
  mentioned : ∀ channel topic, a.tags channel topic = true → a.mentions channel = true
  refused : ∀ channel, ContentHash.isWellFormed channel = false → a.mentions channel = true →
    ∃ blob ∈ log.blobs, blob.location = a.location ∧
      Block.parse blob.content = .error (.invalidChannelId channel)

/-! ## The invariant -/

section

variable {log : BlobLog} {a : Addition} {contents : List String} {site : Site} {h : History}

theorem Vetted.append (hv : Vetted log a) (content : String) (time : Timestamp) :
    Vetted (log.append content time).2 a where
  mentioned := hv.mentioned
  refused channel hchannel hmentions := by
    obtain ⟨blob, hblob, hrest⟩ := hv.refused channel hchannel hmentions
    exact ⟨blob, BlobLog.mem_append_of_mem hblob content time, hrest⟩

/-- A block that was read has content hashes for all its channels. -/
theorem vetted_of_addition? {blob : Blob} (ha : blob.addition? = some a) : Vetted log a := by
  unfold Blob.addition? at ha
  split at ha
  · next block hparse =>
    cases ha
    have hsound := Block.sound_of_parse hparse
    refine ⟨fun channel topic htags => ?_, fun channel hchannel hmentions => ?_⟩
    · obtain ⟨topics, htopics, -⟩ := (Option.any_eq_true _ _).1 htags
      exact hsound.described channel (Dict.mem_keys_iff.2 (Option.isSome_iff_exists.2 ⟨topics, htopics⟩))
    · have hwell := hsound.isWellFormed channel (Dict.mem_keys_iff.2 hmentions)
      exact Bool.noConfusion (hchannel.symm.trans hwell)
  · cases ha

theorem tags_additionFor {t : Transaction} {channel c topic : String} {tags : List String} :
    (site.additionFor t channel tags).tags c topic = true ↔ c = channel ∧ topic ∈ tags := by
  show (Option.any (fun topics : List String => topics.contains topic)
    (List.lookup c [(channel, Block.appendNew [] tags)])) = true ↔ _
  rw [Dict.lookup_cons]
  split
  · next heq => simp [heq, Block.mem_appendNew]
  · next hne => simp [hne]

/-- The block of a stored transaction is in the log, and it is refused if its channel is no content hash. -/
theorem Placed.vetted_additionFor (hp : Placed contents site.storage.log h) (hfree : CollisionFree contents)
    {t : Transaction} {channel : String} {tags : List String}
    (hcontent : (Block.empty.push t channel tags).render ∈ contents) :
    Vetted (site.storage.log.append (Block.empty.push t channel tags).render site.clock.now).2
      (site.additionFor t channel tags) where
  mentioned c topic htags := Engine.mentions_additionFor.2 (tags_additionFor.1 htags).1
  refused c hc hmentions := by
    obtain rfl := Engine.mentions_additionFor.1 hmentions
    obtain ⟨blob, hblob, hlocation, hrender, -⟩ := hp.exists_additionFor hfree hcontent
    exact ⟨blob, hblob, hlocation, hrender ▸ Block.parse_render_malformed t hc⟩

end

/-- The log has all that the history lists, as a block or as a text that is refused. -/
structure Filed (contents : List String) (log : BlobLog) (h : History) : Prop extends Placed contents log h where
  vetted : ∀ a ∈ h, Vetted log a

namespace Engine

variable {e : Engine} {h : History} {contents : List String}

theorem Growth.filed {event : Event} {added : History} {log : BlobLog} (hgrowth : Growth e event added log)
    (hcontents : ∀ content ∈ event.contents, content ∈ contents) (hfree : CollisionFree contents)
    (hf : Filed contents e.site.storage.log h) : Filed contents log (h ++ added) where
  toPlaced := hgrowth.placed hcontents hfree hf.toPlaced
  vetted := by
    refine hgrowth.forall_mem (R := Vetted) (fun content time a ha => ha.append content time)
      (fun blob _ a ha => vetted_of_addition? ha) ?_ hf.vetted
    rintro t channel tags rfl - -
    exact hf.toPlaced.vetted_additionFor hfree (hcontents _ List.mem_cons_self)

theorem filed_new (now : Timestamp) : Filed contents (Engine.new (.empty now)).status.log [] :=
  ⟨placed_new now, nofun⟩

theorem filed_through (turns : List Turn) (hc : e.Carries h) (hf : Filed contents e.status.log h)
    (hcontents : ∀ content ∈ turns.flatMap Turn.contents, content ∈ contents) (hfree : CollisionFree contents) :
    ∃ h', (e.through turns).Carries h' ∧ Filed contents (e.through turns).status.log h' := by
  refine hc.through (C := fun _ turn => ∀ content ∈ turn.contents, content ∈ contents)
    (I := fun s h => Filed contents s.log h) (fun _ hturn hprogress hf => ?_) id turns hf (along_of_forall ?_ e)
  · exact hprogress.growth.filed hturn hfree hf
  · exact fun turn hturn content hcontent => hcontents content (List.mem_flatMap.2 ⟨turn, hturn, hcontent⟩)

end Engine

/-! ## What a question for topics comes to -/

/-- What the log has for a channel that the index finds. A channel that is no content hash is refused. -/
def BlobLog.outcome (log : BlobLog) (h : History) (channel : String) :
    Except ServiceError (String × List ChannelEntry) :=
  if ContentHash.isWellFormed channel then
    .ok (channel, (h.locationsOf channel).flatMap (log.entriesAt channel))
  else .error (.block (.invalidChannelId channel))

theorem BlobLog.outcome_isOk {log : BlobLog} {h : History} {channel : String} :
    (∃ r, log.outcome h channel = .ok r) ↔ ContentHash.isWellFormed channel = true := by
  unfold outcome
  split
  · next hchannel => exact ⟨fun _ => hchannel, fun _ => ⟨_, rfl⟩⟩
  · next hchannel => exact ⟨fun ⟨_, hr⟩ => (nomatch hr), fun hwell => absurd hwell hchannel⟩

/-- What the log has for a channel that is no content hash is refused at the first location. -/
theorem Filed.readChannel_malformed {contents : List String} {log : BlobLog} {h : History} (hf : Filed contents log h)
    (hfree : CollisionFree contents) {channel : String} (hchannel : ContentHash.isWellFormed channel = false)
    (hlisted : h.locationsOf channel ≠ []) :
    log.readChannel channel (h.locationsOf channel) = .error (.block (.invalidChannelId channel)) := by
  have hrefused : ∀ l ∈ h.locationsOf channel, ∃ blob, log.find? l = some blob ∧
      Block.parse blob.content = .error (.invalidChannelId channel) := by
    intro l hl
    obtain ⟨a, ha, hmentions, rfl⟩ := History.mem_locationsOf.1 hl
    obtain ⟨blob, hblob, hlocation, hparse⟩ := (hf.vetted a ha).refused channel hchannel hmentions
    obtain ⟨found, hfound, hcontent⟩ := BlobLog.find?_of_mem hf.location_eq hf.content_mem hfree hblob
    exact ⟨found, hlocation ▸ hfound, hcontent ▸ hparse⟩
  rw [BlobLog.readChannel_of_readAll (BlobLog.readAll_of_find? fun l hl => (hrefused l hl).imp fun _ => And.left)]
  obtain ⟨l, locations, hlocations⟩ := List.exists_cons_of_ne_nil hlisted
  rw [hlocations] at hrefused ⊢
  obtain ⟨blob, hfind, hparse⟩ := hrefused l List.mem_cons_self
  have hentries : Task.entriesOf channel l (log.held l) = .error (.invalidChannelId channel) := by
    rw [Task.entriesOf, BlobLog.held_of_find? hfind, hparse]
    rfl
  rw [List.map_cons, List.mapM_cons, hentries]
  rfl

namespace Task

variable {site : Site} {h : History} {contents : List String} {channel : String}

/-- Each channel that is found comes to its outcome. -/
theorem run_channelOutcome (hscript : site.storage.script = .empty) (hold : site.index.store.records.Hold h)
    (hq : site.index.store.reading.Quiet) (hf : Filed contents site.storage.log h) (hfree : CollisionFree contents)
    (hlisted : h.locationsOf channel ≠ []) :
    (((channelEntries channel none).run site).1).map (channel, ·) = site.storage.log.outcome h channel := by
  by_cases hchannel : ContentHash.isWellFormed channel = true
  · rw [run_channelEntries hscript hold hq hf.toPlaced hfree hchannel, BlobLog.outcome, if_pos hchannel]
    rfl
  · have hlocations := Index.answers_locations_none (hold.spells_channel channel)
    rw [hold.locationsOf_eq] at hlocations
    rcases @run_channelEntries_answers site channel none _ hscript hlocations with hread | ⟨hnq, -⟩
    · rw [hread, hf.readChannel_malformed hfree (Bool.eq_false_iff.2 hchannel) hlisted, BlobLog.outcome,
        if_neg hchannel]
      rfl
    · exact absurd hq hnq

theorem run_topicsEntries_malformed {topics : List String} {window : Option Window} {e : ServiceError}
    (htopics : checkTopics topics = .error e) (site : Site) :
    (topicsEntries topics window).run site = (.error e, site) := by
  rw [topicsEntries, htopics, run_bind_error rfl]
  rfl

/-- A channel that the index finds for a topic has a location. -/
theorem locationsOf_ne_nil (hold : site.index.store.records.Hold h) (hf : Filed contents site.storage.log h)
    {topics : List String} {window : Option Window}
    (hfound : channel ∈ site.index.store.records.channelsOfAny topics window) : h.locationsOf channel ≠ [] := by
  obtain ⟨topic, -, hfound⟩ := Records.mem_channelsOfAny.1 hfound
  obtain ⟨time, htime, -⟩ := Records.mem_channelsOf.1 hfound
  rw [hold.get?_latestOf, History.latest?] at htime
  obtain ⟨a, ha, -⟩ := List.mem_filterMap.1 (List.max?_mem htime)
  obtain ⟨ha, htags⟩ := List.mem_filter.1 ha
  exact List.ne_nil_of_mem (History.mem_locationsOf.2 ⟨a, ha, (hf.vetted a ha).mentioned channel topic htags, rfl⟩)

/-- Each of several channels is read as it is read alone. -/
theorem run_channelsEntries {site' : Site} (hro : site.ReadOnly site') (hold : site.index.store.records.Hold h)
    (hq : site.index.store.reading.Quiet) (channels : List String) :
    ((channelsEntries channels).run site').1 =
      channels.mapM fun c => ((channelEntries c none).run site).1.map (c, ·) := by
  have hentries (c : String) := reads_channelEntries c none
  have halone : channelsEntries channels = channels.mapM fun c => Prod.mk c <$> channelEntries c none := by
    simp only [channelsEntries, channelEntries, closeWindow, map_eq_pure_bind, bind_assoc, pure_bind]
  rw [halone]
  refine run_mapM (I := site.ReadOnly) _ (fun c _ s hs => ⟨?_, hs.trans ?_⟩) _ hro
  · rw [run_map]
    exact congrArg (Except.map (c, ·)) (Program.Reads.alike (hentries c) (hs.alike hq))
  · exact (hentries c).map.readOnly (hs.store.records ▸ hold)

/-- **A question for topics reads the channels that the index finds,** each as it is read alone. -/
theorem run_topicsEntries_eq (hold : site.index.store.records.Hold h) (hq : site.index.store.reading.Quiet)
    {topics : List String} (htopics : checkTopics topics = .ok ()) (window : Option Window) :
    ((topicsEntries topics window).run site).1 =
      (site.index.store.records.channelsOfAny topics (window.map (·.closedAt site.serviceTime))).mapM
        fun c => ((channelEntries c none).run site).1.map (c, ·) := by
  have hchannels := Index.answers_channelsOfTopics (window.map (·.closedAt site.serviceTime))
    fun t (_ : t ∈ topics) => hold.spells_topic t
  have hclosed := run_closeWindow window site
  rw [topicsEntries, htopics, run_bind_ok rfl]
  show (Task.run (closeWindow window >>= _) site).1 = _
  rw [run_bind_ok (congrArg Prod.fst hclosed), hclosed]
  obtain ⟨hro, hok | ⟨hnq, -⟩⟩ := @run_ofIndex_answers _
    (.channels topics (window.map (·.closedAt site.serviceTime))) _ _ site rfl hchannels
  · rw [run_bind_ok hok]
    exact run_channelsEntries hro hold hq _
  · exact absurd hq hnq

/-- So it comes to the outcomes of the channels that the index finds. -/
theorem run_topicsEntries (hscript : site.storage.script = .empty) (hold : site.index.store.records.Hold h)
    (hq : site.index.store.reading.Quiet) (hf : Filed contents site.storage.log h) (hfree : CollisionFree contents)
    {topics : List String} (htopics : checkTopics topics = .ok ()) (window : Option Window) :
    ((topicsEntries topics window).run site).1 =
      (site.index.store.records.channelsOfAny topics (window.map (·.closedAt site.serviceTime))).mapM
        (site.storage.log.outcome h) := by
  rw [run_topicsEntries_eq hold hq htopics]
  exact Effect.mapM_congr fun c hc =>
    run_channelOutcome hscript hold hq hf hfree (locationsOf_ne_nil hold hf hc)

end Task

/-! ## Storing and asking -/

/-- A stored transaction adds its own channel alone to those that the index finds for topics. -/
theorem Records.Hold.mem_channelsOfAny_additionFor {records records' : Records} {h : History}
    (hold : records.Hold h) {site : Site} {t : Transaction} {channel : String} {tags : List String}
    (hold' : records'.Hold (h ++ [site.additionFor t channel tags])) (topics : List String)
    (window : Option Window) :
    (∀ c, c ≠ channel ∨ (∀ topic ∈ topics, topic ∉ tags) →
      (c ∈ records'.channelsOfAny topics window ↔ c ∈ records.channelsOfAny topics window)) ∧
    ((∃ topic ∈ topics, topic ∈ tags) → channel ∈ records'.channelsOfAny topics none) := by
  constructor
  · intro c hc
    refine hold.mem_channelsOfAny_of_forall hold' (fun a ha topic htopic htags => ?_) window
    obtain ⟨hsame, hgiven⟩ := tags_additionFor.1 (List.mem_singleton.1 ha ▸ htags)
    exact hc.elim (fun hne => hne hsame) fun hnone => hnone topic htopic hgiven
  · rintro ⟨topic, htopic, htag⟩
    rw [Records.mem_channelsOfAny]
    refine ⟨topic, htopic, ?_⟩
    rw [Records.mem_channelsOf, hold'.get?_latestOf, History.latest?_append_single,
      if_pos (tags_additionFor.2 ⟨rfl, htag⟩)]
    exact ⟨_, rfl, rfl⟩

namespace DataService

section

variable {s : DataService} {h : History} {contents topics : List String} {window : Option Window}

theorem channelsOfTopics_fst (hready : s.engine.isReady = true) : (s.channelsOfTopics topics window).1 =
    ((Task.topicsEntries topics window).run s.engine.site).1.map ChannelViews.ofEntries := by
  show (s.engine.perform (ChannelViews.ofEntries <$> Task.topicsEntries topics window)).1 = _
  rw [Engine.perform_ready hready, Task.run_map]

theorem channelsOfTopics_eq (hc : s.engine.Carries h) (hq : s.engine.site.index.store.reading.Quiet)
    (hf : Filed contents s.engine.site.storage.log h) (hfree : CollisionFree contents)
    (hready : s.engine.isReady = true) (htopics : Task.checkTopics topics = .ok ()) :
    (s.channelsOfTopics topics window).1 =
      ((s.engine.site.index.store.records.channelsOfAny topics
        (window.map (·.closedAt s.engine.site.clock.now))).mapM (s.engine.site.storage.log.outcome h)).map
          ChannelViews.ofEntries := by
  rw [channelsOfTopics_fst hready, Task.run_topicsEntries hc.script hc.records hq hf hfree htopics,
    hc.serviceTime_eq]

/-- A question for topics is answered if the service is set up, the topics are content hashes, and so are all
channels that the index finds for them. -/
theorem channelsOfTopics_isOk (hc : s.engine.Carries h) (hq : s.engine.site.index.store.reading.Quiet)
    (hf : Filed contents s.engine.site.storage.log h) (hfree : CollisionFree contents) :
    (∃ views, (s.channelsOfTopics topics window).1 = .ok views) ↔
      s.engine.isReady = true ∧ Task.checkTopics topics = .ok () ∧
        ∀ c ∈ s.engine.site.index.store.records.channelsOfAny topics
          (window.map (·.closedAt s.engine.site.clock.now)), ContentHash.isWellFormed c = true := by
  by_cases hready : s.engine.isReady = true
  · cases htopics : Task.checkTopics topics with
    | ok =>
      have houtcome (c : String) : ContentHash.isWellFormed c = true ↔
        ∃ r, s.engine.site.storage.log.outcome h c = .ok r := BlobLog.outcome_isOk.symm
      simp only [hready, true_and, houtcome]
      rw [channelsOfTopics_eq hc hq hf hfree hready htopics, ← Effect.mapM_ok_iff]
      cases List.mapM (s.engine.site.storage.log.outcome h) _ with
      | ok entries => exact ⟨fun _ => ⟨entries, rfl⟩, fun _ => ⟨_, rfl⟩⟩
      | error e => exact ⟨fun ⟨_, hviews⟩ => (nomatch hviews), fun ⟨_, hentries⟩ => (nomatch hentries)⟩
    | error e =>
      rw [channelsOfTopics_fst hready, Task.run_topicsEntries_malformed htopics]
      exact ⟨fun ⟨_, hviews⟩ => (nomatch hviews), fun ⟨_, hno, _⟩ => (nomatch hno)⟩
  · have hout : (s.channelsOfTopics topics window).1 = .error .notReady :=
      congrArg Prod.fst (Engine.perform_not_ready hready _)
    rw [hout]
    exact ⟨fun ⟨_, hviews⟩ => (nomatch hviews), fun ⟨hyes, _⟩ => absurd hyes hready⟩

/-- A single channel that is no content hash is what the question is refused for. -/
theorem channelsOfTopics_refused (hc : s.engine.Carries h) (hq : s.engine.site.index.store.reading.Quiet)
    (hf : Filed contents s.engine.site.storage.log h) (hfree : CollisionFree contents)
    (hready : s.engine.isReady = true) (htopics : Task.checkTopics topics = .ok ()) {channel : String}
    (hmem : channel ∈ s.engine.site.index.store.records.channelsOfAny topics
      (window.map (·.closedAt s.engine.site.clock.now)))
    (hmalformed : ContentHash.isWellFormed channel = false)
    (hothers : ∀ c ∈ s.engine.site.index.store.records.channelsOfAny topics
      (window.map (·.closedAt s.engine.site.clock.now)), c ≠ channel → ContentHash.isWellFormed c = true) :
    (s.channelsOfTopics topics window).1 = .error (.block (.invalidChannelId channel)) := by
  have hrefused : s.engine.site.storage.log.outcome h channel = .error (.block (.invalidChannelId channel)) := by
    rw [BlobLog.outcome, if_neg (Bool.eq_false_iff.1 hmalformed)]
  rw [channelsOfTopics_eq hc hq hf hfree hready htopics, Effect.mapM_error hmem hrefused fun c hc' hne =>
    BlobLog.outcome_isOk.2 (hothers c hc' hne)]
  rfl

end

/-- **A stored transaction whose channel is no content hash closes its topics.** Let a question for topics be
answered, and let a transaction be stored. Then the question is answered as before, unless the channel of the
transaction is no content hash and the index finds it for the topics; in that case the question is refused for this
channel. Without a window the index finds such a channel as soon as the transaction has one of the topics. -/
theorem topics_after_persist (turns : List Turn) (now : Timestamp) (s : DataService)
    (hs : s.engine = (Engine.new (.empty now)).through turns) (hquiet : s.engine.site.index.store.Quiet)
    (t : Transaction) (channel : String) (tags topics : List String) (window : Option Window)
    (hfree : CollisionFree ((Block.empty.push t channel tags).render :: turns.flatMap Turn.contents))
    {views : ChannelViews} (hok : (s.channelsOfTopics topics window).1 = .ok views)
    {receipt : Receipt} (hstored : (s.persist t channel tags).1 = .ok receipt) :
    let after := (s.persist t channel tags).2
    ∃ found, (Index.channelsOfTopics topics (window.map (·.closedAt s.engine.site.clock.now))).Answers
        after.engine.site.index.store.records (.ok found) ∧
      (ContentHash.isWellFormed channel = true ∨ channel ∉ found →
        ∃ views, (after.channelsOfTopics topics window).1 = .ok views) ∧
      (ContentHash.isWellFormed channel = false → channel ∈ found →
        (after.channelsOfTopics topics window).1 = .error (.block (.invalidChannelId channel))) ∧
      (ContentHash.isWellFormed channel = false → channel ∈ found → ∃ topic ∈ topics, topic ∈ tags) ∧
      (window = none → (∃ topic ∈ topics, topic ∈ tags) → channel ∈ found) := by
  intro after
  have hrender : (Block.empty.push t channel tags).render ∈
    (Block.empty.push t channel tags).render :: turns.flatMap Turn.contents := List.mem_cons_self
  obtain ⟨h, hc, hf⟩ := Engine.filed_through turns (Engine.carries_new now) (Engine.filed_new now)
    (fun content hcontent => List.mem_cons_of_mem _ hcontent) hfree
  rw [← hs] at hc hf
  -- Before the transaction is stored, all channels that are found are content hashes.
  obtain ⟨hready, htopics, hwell⟩ := (channelsOfTopics_isOk hc hquiet.reading hf hfree).1 ⟨views, hok⟩
  obtain ⟨-, htags, -, ht', hstatus, hquiet'⟩ := hc.persist_ok hstored
  have hf' := (Engine.Growth.persist t channel tags _ htags (.inr rfl)).filed
    (fun content hcontent => List.mem_singleton.1 hcontent ▸ hrender) hfree hf
  have hengine : after.engine = (s.engine.perform (Task.persist t channel tags)).2 := rfl
  rw [← hengine] at ht' hstatus hquiet'
  have hready' : after.engine.isReady = true := (congrArg Engine.Status.isReady hstatus).trans hready
  have hlog : after.engine.site.storage.log = (s.engine.site.storage.log.append
    (Block.empty.push t channel tags).render s.engine.site.clock.now).2 := congrArg Engine.Status.log hstatus
  have hnow : after.engine.site.clock.now = s.engine.site.clock.now := congrArg Engine.Status.now hstatus
  rw [← hlog] at hf'
  have hq' := (hquiet' hquiet).reading
  -- After it, its own channel is the only one that can be something else.
  have hfound := hc.records.mem_channelsOfAny_additionFor ht'.records topics
  have hothers : ∀ c ∈ after.engine.site.index.store.records.channelsOfAny topics
      (window.map (·.closedAt s.engine.site.clock.now)), c ≠ channel → ContentHash.isWellFormed c = true :=
    fun c hmem hne => hwell c (((hfound _).1 c (.inl hne)).1 hmem)
  refine ⟨_, Index.answers_channelsOfTopics _ fun topic _ => ht'.records.spells_topic topic,
    fun hgood => ?_, fun hmalformed hmem => ?_, fun hmalformed hmem => ?_, ?_⟩
  · refine (channelsOfTopics_isOk ht'.carries hq' hf' hfree).2 ⟨hready', htopics, fun c hmem => ?_⟩
    rw [hnow] at hmem
    by_cases hchannel : c = channel
    · subst hchannel
      exact hgood.resolve_right (not_not_intro hmem)
    · exact hothers c hmem hchannel
  · rw [← hnow] at hmem hothers
    exact channelsOfTopics_refused ht'.carries hq' hf' hfree hready' htopics hmem hmalformed hothers
  · by_contra hnone
    have hold := ((hfound _).1 channel (.inr fun topic htopic htag => hnone ⟨topic, htopic, htag⟩)).1 hmem
    exact Bool.noConfusion (hmalformed.symm.trans (hwell channel hold))
  · rintro rfl hshared
    exact (hfound none).2 hshared

/-- The first transaction of a service goes to a channel that is no content hash, and its topic is closed. -/
theorem topics_after_persist_trial :
    ∃ s : DataService, s.engine =
        (Engine.new (.empty 10)).through [.event .setUp, .event (.schedule .never .never .never)] ∧
      (∃ views, (s.channelsOfTopics [Block.trialTopic] none).1 = .ok views) ∧
      (∃ receipt, (s.persist Block.trialTransaction "not-a-hash" [Block.trialTopic]).1 = .ok receipt) ∧
      ((s.persist Block.trialTransaction "not-a-hash" [Block.trialTopic]).2.channelsOfTopics
        [Block.trialTopic] none).1 = .error (.block (.invalidChannelId "not-a-hash")) := by
  let turns : List Turn := [.event .setUp, .event (.schedule .never .never .never)]
  let s : DataService := ⟨.standard, (Engine.new (.empty 10)).through turns, .new 0 1 0⟩
  have hready : s.engine.isReady = true := by decide +kernel
  have hquiet : s.engine.site.index.store.Quiet := (Engine.quiet_schedule _).2
  obtain ⟨views, hok⟩ : ∃ views, (s.channelsOfTopics [Block.trialTopic] none).1 = .ok views := by
    have hisOk : (s.channelsOfTopics [Block.trialTopic] none).1.isOk = true := by decide +kernel
    cases hout : (s.channelsOfTopics [Block.trialTopic] none).1 with
    | ok views => exact ⟨views, rfl⟩
    | error e =>
      rw [hout] at hisOk
      cases hisOk
  obtain ⟨receipt, hstored⟩ : ∃ receipt,
      (s.persist Block.trialTransaction "not-a-hash" [Block.trialTopic]).1 = .ok receipt := by
    obtain ⟨h, hc⟩ := Engine.carries_through turns (Engine.carries_new 10)
    obtain ⟨-, -, -, -, ⟨hreceipt, -⟩ | ⟨-, hnq, -⟩⟩ := (hc.tracks (hc.ready hready)).persist hready
      Block.trialTransaction "not-a-hash" (show Task.checkTopics [Block.trialTopic] = .ok () from rfl)
    · exact ⟨_, hreceipt⟩
    · exact absurd hquiet hnq
  have hfree : CollisionFree ((Block.empty.push Block.trialTransaction "not-a-hash" [Block.trialTopic]).render ::
      turns.flatMap Turn.contents) := by
    intro x hx y hy _
    rw [List.mem_singleton.1 hx, List.mem_singleton.1 hy]
  obtain ⟨found, -, -, hrefused, -, hfound⟩ := topics_after_persist turns 10 s rfl hquiet Block.trialTransaction
    "not-a-hash" [Block.trialTopic] [Block.trialTopic] none hfree hok hstored
  have hmem := hfound rfl ⟨Block.trialTopic, List.mem_singleton_self _, List.mem_singleton_self _⟩
  exact ⟨s, rfl, ⟨views, hok⟩, ⟨receipt, hstored⟩, hrefused rfl hmem⟩

end DataService

end Invoicing
