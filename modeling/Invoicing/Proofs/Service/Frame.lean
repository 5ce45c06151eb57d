import Invoicing.Proofs.Index.Frame
import Invoicing.Proofs.Service.Interference
import Invoicing.Proofs.Service.Tagged

set_option autoImplicit false

/-! # What a stored transaction leaves as it is

All channels and topics share one log and one store of records. A transaction that is stored, or fails to be, writes
to both for its own channel and topics alone (`Engine.Persists`). So a query for another channel reads what it would
have read before (`Site.SameFor`), and has the same answer (`DataService.persist_spares`). -/

namespace Invoicing

/-! ## Two sites -/

/-- A query for the channel reads the same on both sites, and the same reads of their indexes fail. -/
structure Site.SameFor (channel : String) (site site' : Site) : Prop where
  script : site.storage.script = .empty
  script' : site'.storage.script = .empty
  serviceTime : site'.serviceTime = site.serviceTime
  reading : site'.index.store.reading = site.index.store.reading
  spellsChannel : Records.Spells (List String) site.index.store.records (.channel channel)
  spellsTime : ∀ l, Records.Spells Timestamp site.index.store.records (.location l)
  listed : site.index.store.records.SameAt site'.index.store.records (.channel channel)
  times : ∀ l ∈ site.index.store.records.locationsOf channel,
    site.index.store.records.SameAt site'.index.store.records (.location l)
  read : ∀ l ∈ site.index.store.records.locationsOf channel, site'.storage.log.read l = site.storage.log.read l

theorem BlobLog.readChannel_congr {log log' : BlobLog} {channel : String} {locations : List String}
    (hread : ∀ l ∈ locations, log'.read l = log.read l) :
    log'.readChannel channel locations = log.readChannel channel locations := by
  have hall : log'.readAll locations = log.readAll locations := Effect.mapM_congr fun l hl => by rw [hread l hl]
  rw [readChannel, readChannel, hall]

namespace Task

variable {site site' : Site} {channel : String}

theorem run_channelEntries_congr (hsame : site.SameFor channel site') (window : Option Window) :
    ((channelEntries channel window).run site').1 = ((channelEntries channel window).run site).1 := by
  obtain ⟨hlookup, -⟩ := Index.agrees_locations hsame.listed hsame.spellsChannel hsame.times
    (window.map (·.closedAt site.serviceTime)) site.index.store site'.index.store ⟨rfl, rfl, hsame.reading⟩
  rw [run_channelEntries_fst hsame.script, run_channelEntries_fst hsame.script', hsame.serviceTime, ← hlookup]
  cases hfound : ((Index.locations channel (window.map (·.closedAt site.serviceTime))).run.run
    site.index.store).1 with
  | error e => rfl
  | ok found =>
    have hlisted := Index.mem_locationsOf_of_ok hsame.spellsChannel (fun l _ => hsame.spellsTime l) hfound
    exact BlobLog.readChannel_congr fun l hl => hsame.read l (hlisted l hl)

end Task

/-! ## What storing does -/

namespace Engine

variable {e : Engine} {h added : History} {t : Transaction} {channel : String} {topics : List String}

/-- What a transaction does to an engine that holds `h`, whether it is stored or not: all that the index learns is of
the channel and the topics, and what was in the log still is. -/
structure Persists (e : Engine) (h : History) (t : Transaction) (channel : String) (topics : List String)
    (added : History) (e' : Engine) : Prop where
  carries : e'.Carries (h ++ added)
  growth : Growth e (.persist t channel topics) added e'.site.storage.log
  isReady : e'.isReady = e.isReady
  watermark : e'.watermark = e.watermark
  now : e'.site.clock.now = e.site.clock.now
  find? : ∀ location blob, e.site.storage.log.find? location = some blob →
    e'.site.storage.log.find? location = some blob
  mentions : ∀ a ∈ added, ∀ c, a.mentions c = true → c = channel
  tags : ∀ a ∈ added, ∀ c topic, a.tags c topic = true → c = channel ∧ topic ∈ topics
  quiet : e.site.index.store.reading.Quiet → e'.site.index.store.reading.Quiet

end Engine

open Effect in
/-- Adding a block makes no read fail. -/
theorem Index.quiet_add {s : Store} (hq : s.reading.Quiet) (location : String) (header : BlockHeader)
    (time : Timestamp) : ((Index.add location header time).run.run s).2.reading.Quiet := by
  refine Keeps.bind (R := fun s s' => s.reading.Quiet → s'.reading.Quiet) (fun _ _ _ hfirst hthen => hthen ∘ hfirst)
    (fun s => (readsOnly_changes location header time s).quiet) (fun batch s hq => ?_) s hq
  rw [StoreM.run_commit_eq]
  split
  · exact hq
  · rw [Store.write]
    split <;> exact hq

namespace Task

variable {site : Site} {t : Transaction} {channel : String} {topics : List String}

theorem quiet_persist (hscript : site.storage.script = .empty) (hq : site.index.store.reading.Quiet) :
    ((persist t channel topics).run site).2.index.store.reading.Quiet := by
  cases htopics : checkTopics topics with
  | error e =>
    rw [run_persist_malformed htopics]
    exact hq
  | ok =>
    rw [run_persist_stored hscript htopics, run_bind, run_ofIndex]
    dsimp only
    split <;> exact Index.quiet_add hq _ _ _

end Task

namespace Engine

variable {e : Engine} {h : History}

/-- A transaction changes nothing but the log of an engine, where the index learns its block or nothing. -/
theorem Progress.of_persist {added : History} {t : Transaction} {channel : String} {topics : List String} {s : Status}
    (hprogress : Progress e h (.persist t channel topics) added s) :
    (∀ a ∈ added, a = e.site.additionFor t channel topics) ∧ s = { e.status with log := s.log } ∧
      ∀ location blob, e.site.storage.log.find? location = some blob → s.log.find? location = some blob := by
  cases hprogress with
  | still => exact ⟨nofun, rfl, fun _ _ hfind => hfind⟩
  | broken hwindow _ => rcases hwindow with ⟨hevent, -⟩ | ⟨hevent, -⟩ <;> cases hevent
  | persist _ _ _ _ hadded =>
    refine ⟨?_, rfl, fun _ _ hfind => BlobLog.find?_append_of_find? hfind _ _⟩
    rcases hadded with rfl | ⟨rfl, -⟩
    · nofun
    · exact fun a ha => List.mem_singleton.1 ha

theorem Carries.persists (hc : e.Carries h) (t : Transaction) (channel : String) (topics : List String) :
    ∃ added, e.Persists h t channel topics added (e.perform (Task.persist t channel topics)).2 := by
  obtain ⟨added, hc', -, hprogress⟩ := hc.progress (.persist t channel topics)
  obtain ⟨hadded, hstatus, hfind⟩ := hprogress.of_persist
  refine ⟨added, hc', hprogress.growth, congrArg Status.isReady hstatus, congrArg Status.watermark hstatus,
    congrArg Status.now hstatus, hfind, fun a ha c hmentions => ?_, fun a ha c topic htags => ?_, fun hq => ?_⟩
  · exact mentions_additionFor.1 (hadded a ha ▸ hmentions)
  · exact tags_additionFor.1 (hadded a ha ▸ htags)
  · by_cases hready : e.isReady = true
    · rw [perform_ready hready]
      exact Task.quiet_persist hc.script hq
    · rw [perform_not_ready hready]
      exact hq

section

variable {e' : Engine} {added : History} {t : Transaction} {channel : String} {topics : List String}
  (hp : e.Persists h t channel topics added e') (hc : e.Carries h)

include hp hc

/-- For another channel the same is read as before, whichever reads of the index fail. -/
theorem Persists.sameFor (hstored : ∀ a ∈ h, Stored e.site.storage.log a) {other : String} (hother : other ≠ channel)
    (reads : Faults) : Site.SameFor other { e.site with index.store.reading := reads }
      { e'.site with index.store.reading := reads } := by
  obtain ⟨hlisted, htimes⟩ := hc.records.sameAt_channel hp.carries.records fun a ha hmentions =>
    hother (hp.mentions a ha other hmentions)
  refine ⟨hc.script, hp.carries.script, ?_, rfl, hc.records.spells_channel other, hc.records.spells_location,
    hlisted, htimes, fun l hl => ?_⟩
  · exact hp.carries.serviceTime_eq.trans (hp.now.trans hc.serviceTime_eq.symm)
  · replace hl : l ∈ e.site.index.store.records.locationsOf other := hl
    rw [hc.records.locationsOf_eq] at hl
    obtain ⟨a, ha, -, rfl⟩ := History.mem_locationsOf.1 hl
    obtain ⟨blob, hfind⟩ := (hstored a ha).exists_find?
    show BlobLog.read e'.site.storage.log a.location = BlobLog.read e.site.storage.log a.location
    rw [BlobLog.read, BlobLog.read, hfind, hp.find? _ _ hfind]

/-- Only the channel itself can be found for topics as it was not before, and only for one of its own. -/
theorem Persists.mem_channelsOfAny {asked : List String} {c : String}
    (hspared : c ≠ channel ∨ ∀ topic ∈ asked, topic ∉ topics) (window : Option Window) :
    c ∈ e'.site.index.store.records.channelsOfAny asked window ↔
      c ∈ e.site.index.store.records.channelsOfAny asked window := by
  refine hc.records.mem_channelsOfAny_of_forall hp.carries.records (fun a ha topic htopic htags => ?_) window
  obtain ⟨hsame, hgiven⟩ := hp.tags a ha c topic htags
  exact hspared.elim (fun hne => hne hsame) fun hnone => hnone topic htopic hgiven

/-- So all that are found are of a kind if they were before, as long as the channel is, or is not asked for. -/
theorem Persists.forall_channelsOfAny {P : String → Prop} {asked : List String}
    (hspared : P channel ∨ ∀ topic ∈ asked, topic ∉ topics) (window : Option Window) :
    (∀ c ∈ e'.site.index.store.records.channelsOfAny asked window, P c) ↔
      ∀ c ∈ e.site.index.store.records.channelsOfAny asked window, P c := by
  refine forall_congr' fun c => ?_
  by_cases hsame : c = channel ∧ P channel
  · obtain ⟨rfl, hP⟩ := hsame
    exact iff_of_true (fun _ => hP) fun _ => hP
  · have hother : c ≠ channel ∨ ∀ topic ∈ asked, topic ∉ topics :=
      hspared.imp_left fun hP hc => hsame ⟨hc, hP⟩
    rw [hp.mem_channelsOfAny hc hother]

/-- For other topics the index answers as before, whichever of its reads fail. -/
theorem Persists.run_channels {asked : List String} (hnone : ∀ topic ∈ asked, topic ∉ topics)
    (window : Option Window) (reads : Faults) :
    ((Call.channels asked window).run { e'.site with index.store.reading := reads }).1 =
      ((Call.channels asked window).run { e.site with index.store.reading := reads }).1 := by
  have hagrees : Effect.Agrees (Store.Beside e.site.index.store.records e'.site.index.store.records)
      (Index.channelsOfTopics asked window) := by
    refine Index.agrees_channelsOfTopics (fun topic htopic => ?_) window
    exact hc.records.sameAt_topic hp.carries.records fun a ha c htags =>
      hnone topic htopic (hp.tags a ha c topic htags).2
  exact (hagrees { e.site.index.store with reading := reads } { e'.site.index.store with reading := reads }
    ⟨rfl, rfl, rfl⟩).1.symm

end

end Engine

/-! ## Queries before and after -/

/-- The maps have the same lists for a channel, or none. -/
structure ChannelViews.SameAt (views views' : ChannelViews) (channel : String) : Prop where
  transactions : views'.transactions.get? channel = views.transactions.get? channel
  locations : views'.locations.get? channel = views.locations.get? channel
  infos : views'.infos.get? channel = views.infos.get? channel

namespace ChannelViews

variable {views views' : ChannelViews} {channel : String}

theorem Shows.sameAt {view : ChannelView} (hshown : views.Shows channel view) (hshown' : views'.Shows channel view) :
    views.SameAt views' channel :=
  ⟨hshown'.transactions.trans hshown.transactions.symm, hshown'.locations.trans hshown.locations.symm,
    hshown'.infos.trans hshown.infos.symm⟩

/-- The three maps have the same keys, so a channel that is not found is in none of them. -/
theorem sameAt_of_not_mem
    (hkeys : views.transactions.keys = views.locations.keys ∧ views.locations.keys = views.infos.keys)
    (hkeys' : views'.transactions.keys = views'.locations.keys ∧ views'.locations.keys = views'.infos.keys)
    (hnot : channel ∉ views.channels) (hnot' : channel ∉ views'.channels) : views.SameAt views' channel := by
  have hnone {α : Type} {d : Dict String α} (hd : channel ∉ d.keys) : d.get? channel = none := by
    simpa [Dict.mem_keys_iff] using hd
  rw [channels] at hnot hnot'
  constructor
  · rw [hnone hnot, hnone hnot']
  · rw [hkeys.1] at hnot
    rw [hkeys'.1] at hnot'
    rw [hnone hnot, hnone hnot']
  · rw [hkeys.1, hkeys.2] at hnot
    rw [hkeys'.1, hkeys'.2] at hnot'
    rw [hnone hnot, hnone hnot']

end ChannelViews

namespace DataService

/-- The service with an index whose next reads fail as a schedule says. -/
def underReads (s : DataService) (reads : Faults) : DataService :=
  s.onSite fun site => { site with index.store.reading := reads }

/-- From `s` to `s'` the channel may have changed, and whether it is found for the topics, and nothing else that a query
can tell. -/
structure Spares (s : DataService) (channel : String) (topics : List String) (s' : DataService) : Prop where
  watermark : s'.engine.watermark = s.engine.watermark
  /-- A query for another channel is answered as before. -/
  answer : s.engine.site.index.store.reading.Quiet → ∀ other window, other ≠ channel →
    (s'.channel other window).1 = (s.channel other window).1
  /-- So it is as well if reads of the index fail, whichever they are. -/
  outcome : ∀ reads other window, other ≠ channel →
    ((s'.underReads reads).channel other window).1 = ((s.underReads reads).channel other window).1
  /-- For other topics the index answers with the same channels, whichever of its reads fail. -/
  lookUp : ∀ reads asked window, (∀ topic ∈ asked, topic ∉ topics) →
    ((Call.channels asked window).run (s'.underReads reads).engine.site).1 =
      ((Call.channels asked window).run (s.underReads reads).engine.site).1
  /-- For any topics it finds the same channels but one. -/
  found : ∀ asked window, ∃ found found',
    (Index.channelsOfTopics asked window).Answers s.engine.site.index.store.records (.ok found) ∧
    (Index.channelsOfTopics asked window).Answers s'.engine.site.index.store.records (.ok found') ∧
    ∀ other, other ≠ channel → (other ∈ found' ↔ other ∈ found)
  /-- Two answers to a question for topics show the same for all channels but one, which is found as before if the
  question is for other topics. -/
  views : s.engine.site.index.store.reading.Quiet → ∀ asked window views views',
    (s.channelsOfTopics asked window).1 = .ok views → (s'.channelsOfTopics asked window).1 = .ok views' →
    (∀ other, other ≠ channel → views.SameAt views' other) ∧
      ((∀ topic ∈ asked, topic ∉ topics) → ∀ c, c ∈ views'.channels ↔ c ∈ views.channels)

section

variable {s s' : DataService}

theorem channel_congr (hready : s'.engine.isReady = s.engine.isReady) {channel : String} {window : Option Window}
    (hrun : ((Task.channelEntries channel window).run s'.engine.site).1 =
      ((Task.channelEntries channel window).run s.engine.site).1) :
    (s'.channel channel window).1 = (s.channel channel window).1 := by
  by_cases hset : s.engine.isReady = true
  · rw [channel_eq_map hset, channel_eq_map (hready.trans hset), hrun]
  · show (s'.engine.perform _).1 = (s.engine.perform _).1
    rw [Engine.perform_not_ready hset, Engine.perform_not_ready (hready ▸ hset)]

/-- It makes no difference which schedule says that no read fails. -/
theorem channel_underReads (hq : s.engine.site.index.store.reading.Quiet) (channel : String)
    (window : Option Window) : ((s.underReads .never).channel channel window).1 = (s.channel channel window).1 := by
  have halike : s.engine.site.Alike (s.underReads .never).engine.site :=
    ⟨rfl, rfl, rfl, rfl, rfl, hq, Faults.quiet_never⟩
  refine channel_congr ?_ ?_
  · rfl
  · exact Program.Reads.alike (Task.reads_channelEntries channel window) halike

end

section

variable {s s' : DataService} {h added : History} {t : Transaction} {channel : String} {topics : List String}
  (hp : s.engine.Persists h t channel topics added s'.engine) (hc : s.engine.Carries h)
  (hstored : ∀ a ∈ h, Stored s.engine.site.storage.log a)

include hp hc

include hstored in
theorem channel_underReads_of_persists (reads : Faults) {other : String} (hother : other ≠ channel)
    (window : Option Window) :
    ((s'.underReads reads).channel other window).1 = ((s.underReads reads).channel other window).1 := by
  refine channel_congr ?_ ?_
  · exact hp.isReady
  · exact Task.run_channelEntries_congr (hp.sameFor hc hstored hother reads) window

include hstored in
theorem channel_of_persists (hq : s.engine.site.index.store.reading.Quiet) {other : String}
    (hother : other ≠ channel) (window : Option Window) :
    (s'.channel other window).1 = (s.channel other window).1 := by
  rw [← channel_underReads hq, ← channel_underReads (hp.quiet hq)]
  exact channel_underReads_of_persists hp hc hstored .never hother window

/-- What is found for topics is found as before, unless it is the channel for one of its topics. -/
theorem updatedIn_of_persists {asked : List String} {c : String}
    (hspared : c ≠ channel ∨ ∀ topic ∈ asked, topic ∉ topics) (window : Option Window) :
    History.UpdatedIn (h ++ added) asked window c ↔ h.UpdatedIn asked window c := by
  rw [← hp.carries.records.mem_channelsOfAny, ← hc.records.mem_channelsOfAny]
  exact hp.mem_channelsOfAny hc hspared window

include hstored in
/-- Two answers to a question for topics. -/
theorem views_of_persists (hq : s.engine.site.index.store.reading.Quiet) {asked : List String} {window : Option Window}
    {views views' : ChannelViews} (hok : (s.channelsOfTopics asked window).1 = .ok views)
    (hok' : (s'.channelsOfTopics asked window).1 = .ok views') :
    (∀ other, other ≠ channel → views.SameAt views' other) ∧
      ((∀ topic ∈ asked, topic ∉ topics) → ∀ c, c ∈ views'.channels ↔ c ∈ views.channels) := by
  obtain ⟨hready, hasked⟩ := ready_of_channelsOfTopics hok
  obtain ⟨hkeys, hfound, hshows⟩ := shows_of_channelsOfTopics hc hq hready hasked hok
  obtain ⟨hkeys', hfound', hshows'⟩ := shows_of_channelsOfTopics hp.carries (hp.quiet hq)
    (hp.isReady.trans hready) hasked hok'
  rw [hp.now] at hfound' hshows'
  refine ⟨fun other hother => ?_, fun hnone c => ?_⟩
  · have hsame : History.UpdatedIn (h ++ added) asked (window.map (·.closedAt s.engine.site.clock.now)) other ↔
        h.UpdatedIn asked (window.map (·.closedAt s.engine.site.clock.now)) other :=
      updatedIn_of_persists hp hc (.inl hother) _
    by_cases hup : h.UpdatedIn asked (window.map (·.closedAt s.engine.site.clock.now)) other
    · obtain ⟨view, hview, hshown⟩ := hshows other hup
      obtain ⟨view', hview', hshown'⟩ := hshows' other (hsame.2 hup)
      rw [channel_of_persists hp hc hstored hq hother none, hview] at hview'
      cases hview'
      exact hshown.sameAt hshown'
    · exact ChannelViews.sameAt_of_not_mem hkeys hkeys' (hup ∘ (hfound other).1) (hup ∘ hsame.1 ∘ (hfound' other).1)
  · rw [hfound, hfound', updatedIn_of_persists hp hc (.inr hnone)]

end

/-- **A transaction touches its own channel and topics alone.** Let anything have happened before, and let a transaction
be stored, be refused, or be stored without being indexed. Then the watermark is where it was. Every query for another
channel is answered as before, in every window. The index finds the same channels for all topics that are not given
with the transaction, and for those that are given the same ones but for the channel of the transaction. While no read
of the index fails, and contents that have the same hash are the same, a question for topics is answered exactly if it
was answered before, unless it is for one of the given topics and the channel of the transaction is no content hash. -/
theorem persist_spares (turns : List Turn) (now : Timestamp) (s : DataService)
    (hs : s.engine = (Engine.new (.empty now)).through turns) (t : Transaction) (channel : String)
    (topics : List String) :
    let after := (s.persist t channel topics).2
    s.Spares channel topics after ∧
    (s.engine.site.index.store.reading.Quiet →
      CollisionFree ((Block.empty.push t channel topics).render :: turns.flatMap Turn.contents) →
      ∀ asked window, ContentHash.isWellFormed channel = true ∨ (∀ topic ∈ asked, topic ∉ topics) →
        ((∃ views, (after.channelsOfTopics asked window).1 = .ok views) ↔
          ∃ views, (s.channelsOfTopics asked window).1 = .ok views)) := by
  intro after
  refine ⟨?_, fun hq hfree asked window hspared => ?_⟩
  · obtain ⟨h, hc, -, hstored⟩ := Engine.stored_through turns now
    rw [← hs] at hc hstored
    obtain ⟨added, hp⟩ := hc.persists t channel topics
    replace hp : s.engine.Persists h t channel topics added after.engine := hp
    refine ⟨hp.watermark, fun hq other window hother => channel_of_persists hp hc hstored hq hother window,
      fun reads other window hother => channel_underReads_of_persists hp hc hstored reads hother window,
      fun reads asked window hnone => hp.run_channels hc hnone window reads, fun asked window => ?_,
      fun hq asked window views views' hok hok' => views_of_persists hp hc hstored hq hok hok'⟩
    exact ⟨_, _, Index.answers_channelsOfTopics window fun topic _ => hc.records.spells_topic topic,
      Index.answers_channelsOfTopics window fun topic _ => hp.carries.records.spells_topic topic,
      fun other hother => hp.mem_channelsOfAny hc (.inl hother) window⟩
  · obtain ⟨h, hc, hf⟩ := Engine.filed_through turns (Engine.carries_new now) (Engine.filed_new now)
      (fun content hcontent => List.mem_cons_of_mem _ hcontent) hfree
    rw [← hs] at hc hf
    obtain ⟨added, hp⟩ := hc.persists t channel topics
    replace hp : s.engine.Persists h t channel topics added after.engine := hp
    have hf' := hp.growth.filed (fun content hcontent => List.mem_singleton.1 hcontent ▸ List.mem_cons_self) hfree hf
    rw [channelsOfTopics_isOk hc hq hf hfree, channelsOfTopics_isOk hp.carries (hp.quiet hq) hf' hfree, hp.isReady,
      hp.now, hp.forall_channelsOfAny hc hspared]

/-- A transaction of another channel with the same topic leaves the first one as it is, and the first one, stored once
more, leaves other topics as they are. -/
theorem persist_spares_trial :
    ∃ s : DataService, s.engine = (Engine.new (.empty 10)).through storedTurns ∧
      let other := s.persist Block.trialTransaction Block.otherTrialChannel [Block.trialTopic]
      let again := s.persist Block.trialTransaction Block.trialChannel [Block.trialTopic]
      (∃ receipt, other.1 = .ok receipt) ∧ other.2.engine.watermark = s.engine.watermark ∧
      (∃ entries, (s.channel Block.trialChannel none).1 = .ok (.ofEntries entries) ∧
        (other.2.channel Block.trialChannel none).1 = .ok (.ofEntries entries)) ∧
      ∃ views, (again.2.channelsOfTopics [Block.otherTrialChannel] none).1 = .ok views := by
  obtain ⟨e, he⟩ : ∃ e, e = (Engine.new (.empty 10)).through storedTurns := ⟨_, rfl⟩
  let s : DataService := ⟨.standard, e, .new 0 1 0⟩
  obtain ⟨hready, hquiet, h, site, hc⟩ := through_storedTurns he
  obtain ⟨entries, hentries⟩ := @channel_storedTurns s he
  obtain ⟨hspares, -⟩ := persist_spares storedTurns 10 s he Block.trialTransaction Block.otherTrialChannel
    [Block.trialTopic]
  obtain ⟨-, hasked⟩ := persist_spares storedTurns 10 s he Block.trialTransaction Block.trialChannel [Block.trialTopic]
  refine ⟨s, he, ?_, hspares.watermark, ⟨entries, hentries, ?_⟩, ?_⟩
  · obtain ⟨-, -, -, -, ⟨hreceipt, -⟩ | ⟨-, hnq, -⟩⟩ := (hc.tracks (hc.ready hready)).persist hready
      Block.trialTransaction Block.otherTrialChannel (show Task.checkTopics [Block.trialTopic] = .ok () from rfl)
    · exact ⟨_, hreceipt⟩
    · exact absurd hquiet hnq
  · exact (hspares.answer hquiet.reading _ none (by decide)).trans hentries
  · -- It has the content that is in the log already.
    have hfree : CollisionFree ((Block.empty.push Block.trialTransaction Block.trialChannel
        [Block.trialTopic]).render :: storedTurns.flatMap Turn.contents) := by
      intro x hx y hy _
      have hall : ∀ z ∈ storedTurns.flatMap Turn.contents,
          z = (Block.empty.push Block.trialTransaction Block.trialChannel [Block.trialTopic]).render :=
        fun z hz => List.mem_singleton.1 hz
      rw [(List.mem_cons.1 hx).elim id (hall x), (List.mem_cons.1 hy).elim id (hall y)]
    exact (hasked hquiet.reading hfree [Block.otherTrialChannel] none (.inr (by decide))).2
      (channelsOfTopics_storedTurns he rfl)

end DataService

end Invoicing
