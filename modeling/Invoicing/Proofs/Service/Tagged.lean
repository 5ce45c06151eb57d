import Invoicing.Proofs.Block.Acceptance
import Invoicing.Proofs.Service.ByTopic
import Invoicing.Proofs.Service.Rebuild

set_option autoImplicit false

/-! # Channels that are found and have nothing

A channel that is found for a topic is tagged with it by a block of the log (`Filed.Tagging`). The checks of a block ask
that its header lists such a channel, not that it lists a position for it, so the channel may be found and have no
transaction to show. This is so exactly if none of the blocks at its locations has a position for it
(`DataService.channelsOfTopics_own`); the blocks that a service stores itself are not of this kind. -/

namespace Invoicing

/-- The log has all that the history lists, and the blocks of a content hash are there as they were indexed. -/
structure Tagging (contents : List String) (log : BlobLog) (h : History) : Prop extends Filed contents log h where
  backed : ∀ a ∈ h, ∀ channel, ContentHash.isWellFormed channel = true → a.mentions channel = true → Backed log a

namespace Engine

variable {e : Engine} {h added : History} {contents : List String}

theorem Growth.tagging {event : Event} {log : BlobLog} (hgrowth : Growth e event added log)
    (hcontents : ∀ content ∈ event.contents, content ∈ contents) (hfree : CollisionFree contents)
    (ht : Tagging contents e.site.storage.log h) : Tagging contents log (h ++ added) where
  toFiled := hgrowth.filed hcontents hfree ht.toFiled
  backed := by
    refine hgrowth.forall_mem
      (R := fun log a => ∀ c, ContentHash.isWellFormed c = true → a.mentions c = true → Backed log a)
      (fun content time a ha c hc hmentions => ?_) (fun blob hblob a ha _ _ _ => ⟨blob, hblob, ha⟩) ?_ ht.backed
    · obtain ⟨blob, hblob, haddition⟩ := ha c hc hmentions
      exact ⟨blob, BlobLog.mem_append_of_mem hblob content time, haddition⟩
    · rintro t channel topics rfl htopics - c hc hmentions
      obtain rfl := mentions_additionFor.1 hmentions
      exact ht.toPlaced.backed_additionFor hfree hc htopics (hcontents _ List.mem_cons_self)

theorem tagging_through (turns : List Turn) (hc : e.Carries h) (ht : Tagging contents e.status.log h)
    (hcontents : ∀ content ∈ turns.flatMap Turn.contents, content ∈ contents) (hfree : CollisionFree contents) :
    ∃ h', (e.through turns).Carries h' ∧ Tagging contents (e.through turns).status.log h' := by
  refine hc.through (C := fun _ turn => ∀ content ∈ turn.contents, content ∈ contents)
    (I := fun s h => Tagging contents s.log h) (fun _ hturn hprogress ht => ?_) id turns ht (along_of_forall ?_ e)
  · exact hprogress.growth.tagging hturn hfree ht
  · exact fun turn hturn content hcontent => hcontents content (List.mem_flatMap.2 ⟨turn, hturn, hcontent⟩)

end Engine

/-- A channel that is found for topics is tagged by a block, in the log and at a location of the channel. -/
theorem Tagging.exists_block {contents : List String} {log : BlobLog} {h : History} (ht : Tagging contents log h)
    {topics : List String} {window : Option Window} {channel : String}
    (hchannel : ContentHash.isWellFormed channel = true) (hfound : h.UpdatedIn topics window channel) :
    ∃ blob ∈ log.blobs, blob.location ∈ h.locationsOf channel ∧ ∃ block, Block.parse blob.content = .ok block ∧
      ∃ tags, block.header.topics.get? channel = some tags ∧ tags ≠ [] := by
  obtain ⟨topic, -, time, htime, -⟩ := hfound
  obtain ⟨a, ha, -⟩ := List.mem_filterMap.1 (List.max?_mem htime)
  obtain ⟨ha, htags⟩ := List.mem_filter.1 ha
  have hmentions := (ht.vetted a ha).mentioned channel topic htags
  obtain ⟨blob, hblob, haddition⟩ := ht.backed a ha channel hchannel hmentions
  refine ⟨blob, hblob, History.mem_locationsOf.2 ⟨a, ha, hmentions, (Blob.eq_of_addition? haddition).1⟩, ?_⟩
  unfold Blob.addition? at haddition
  split at haddition
  · next block hparse =>
    cases haddition
    obtain ⟨tags, hget, htopic⟩ := (Option.any_eq_true _ _).1 htags
    exact ⟨block, hparse, tags, hget, List.ne_nil_of_mem (List.contains_iff_mem.1 htopic)⟩
  · cases haddition

/-! ## What a channel shows -/

/-- Nothing is shown for a channel whose block has no position for it. -/
theorem StorageNode.Gives.eq_nil_iff {node : StorageNode} {channel location : String} {entries : List ChannelEntry}
    (hgives : node.Gives channel location entries) :
    entries = [] ↔ ∃ stored block, (node.read location).1 = .ok stored ∧ Block.parse stored.content = .ok block ∧
      ¬ block.Owns channel := by
  obtain ⟨stored, block, positions, hread, hparse, hranks, hentries⟩ := hgives
  have hnone : entries = [] ↔ ¬ block.Owns channel := by
    rw [(Block.sound_of_parse hparse).owns_iff, not_not]
    constructor
    · rintro rfl
      obtain rfl := List.forall₂_nil_right_iff.1 hentries
      exact List.eq_nil_iff_forall_not_mem.2 fun p hp => List.not_mem_nil ((hranks.mem_iff _).2 ⟨p, hp, rfl⟩)
    · intro hempty
      obtain rfl : positions = [] := List.eq_nil_iff_forall_not_mem.2 fun i hi => by
        obtain ⟨p, hp, -⟩ := (hranks.mem_iff i).1 hi
        exact List.not_mem_nil (hempty ▸ hp)
      exact List.forall₂_nil_left_iff.1 hentries
  rw [hnone]
  constructor
  · exact fun howns => ⟨stored, block, hread, hparse, howns⟩
  · rintro ⟨stored', block', hread', hparse', howns⟩
    cases hread.symm.trans hread'
    cases hparse.symm.trans hparse'
    exact howns

theorem flatten_eq_nil_iff_of_forall₂ {α β : Type} {R : α → List β → Prop} {P : α → Prop}
    (hiff : ∀ a bs, R a bs → (bs = [] ↔ P a)) {as : List α} {groups : List (List β)} (h : List.Forall₂ R as groups) :
    groups.flatten = [] ↔ ∀ a ∈ as, P a := by
  induction h with
  | nil => simp
  | cons hR _ ih => rw [List.flatten_cons, List.append_eq_nil_iff, hiff _ _ hR, ih, List.forall_mem_cons]

namespace DataService

/-- The blocks at all locations of a channel are without a transaction of it. -/
def Hollow (s : DataService) (channel : String) : Prop :=
  ∃ locations, (Index.locations channel none).Answers s.engine.site.index.store.records (.ok locations) ∧
    ∀ location ∈ locations, ∃ stored block, (s.engine.site.storage.read location).1 = .ok stored ∧
      Block.parse stored.content = .ok block ∧ ¬ block.Owns channel

/-- A channel that was read shows nothing exactly if it is hollow. -/
theorem transactions_eq_nil_iff {s : DataService} {h : History} (hc : s.engine.Carries h)
    (hready : s.engine.isReady = true) {channel : String} {view : ChannelView}
    (hok : (s.channel channel none).1 = .ok view) : view.transactions = [] ↔ s.Hollow channel := by
  rw [channel_eq_map hready] at hok
  cases hentries : ((Task.channelEntries channel none).run s.engine.site).1 with
  | error error =>
    rw [hentries] at hok
    cases hok
  | ok entries =>
    rw [hentries] at hok
    cases hok
    obtain ⟨locations, groups, hanswers, -, hgives, rfl⟩ := hc.gives_of_channelEntries hentries
    have hnil := flatten_eq_nil_iff_of_forall₂ (fun _ _ hgive => StorageNode.Gives.eq_nil_iff hgive) hgives
    show List.map _ groups.flatten = [] ↔ _
    rw [List.map_eq_nil_iff, hnil]
    constructor
    · exact fun hall => ⟨locations, hanswers, hall⟩
    · rintro ⟨locations', hanswers', hall⟩
      cases hanswers.unique hanswers'
      exact hall

/-- What a service stores itself tags the channels of transactions alone, so only what others append can be
different. -/
theorem tagsOwners_of_mem_contents {turns : List Turn}
    (happended : ∀ content time, .event (.append content time) ∈ turns →
      ∀ b, Block.parse content = .ok b → b.TagsOwners)
    {content : String} (hcontent : content ∈ turns.flatMap Turn.contents) {b : Block}
    (hparse : Block.parse content = .ok b) : b.TagsOwners := by
  obtain ⟨turn, hturn, hcontent⟩ := List.mem_flatMap.1 hcontent
  cases turn with
  | restart => cases hcontent
  | event event =>
    cases event with
    | persist t channel topics =>
      obtain rfl := List.mem_singleton.1 hcontent
      obtain ⟨hjson, -⟩ := Block.parse_eq_ok_iff.1 hparse
      obtain rfl : Block.empty.push t channel topics = b :=
        Option.some.inj ((Wire.parse?_render (Block.empty.push t channel topics)).symm.trans hjson)
      exact Block.tagsOwners_push_empty t channel topics
    | append content' time =>
      obtain rfl := List.mem_singleton.1 hcontent
      exact happended content time hturn b hparse
    | _ => cases hcontent

section

variable {s : DataService} {h : History} {topics : List String} {window : Option Window} {views : ChannelViews}

/-- A question for topics is only answered by a service that is set up, and for content hashes. -/
theorem ready_of_channelsOfTopics (hok : (s.channelsOfTopics topics window).1 = .ok views) :
    s.engine.isReady = true ∧ Task.checkTopics topics = .ok () := by
  have hready : s.engine.isReady = true := by
    by_contra hnot
    cases (channelsOfTopics_not_ready hnot).symm.trans hok
  refine ⟨hready, ?_⟩
  cases htopics : Task.checkTopics topics with
  | ok => rfl
  | error error =>
    rw [channelsOfTopics_fst hready, Task.run_topicsEntries_malformed htopics] at hok
    cases hok

/-- A channel that is found for topics is not hollow, if no block gives topics to a channel without a transaction. -/
theorem not_hollow_of_found {turns : List Turn} (hc : s.engine.Carries h)
    (ht : Tagging (turns.flatMap Turn.contents) s.engine.site.storage.log h)
    (hfree : CollisionFree (turns.flatMap Turn.contents))
    (happended : ∀ content time, .event (.append content time) ∈ turns →
      ∀ b, Block.parse content = .ok b → b.TagsOwners)
    {channel : String} (hchannel : ContentHash.isWellFormed channel = true)
    (hfound : h.UpdatedIn topics window channel) : ¬ s.Hollow channel := by
  rintro ⟨locations, hanswers, hhollow⟩
  have hlisted := Index.answers_locations_none (hc.records.spells_channel channel)
  rw [hc.records.locationsOf_eq] at hlisted
  cases hanswers.unique hlisted
  obtain ⟨blob, hblob, hlocation, block, hparse, tags, htags, hne⟩ := ht.exists_block hchannel hfound
  obtain ⟨stored, block', hread, hparse', howns⟩ := hhollow blob.location hlocation
  -- The location has the content of this blob, for another one there would have the same hash.
  obtain ⟨found, hfind, hcontent⟩ := BlobLog.find?_of_mem ht.location_eq ht.content_mem hfree hblob
  rw [StorageNode.read_unscripted hc.script, BlobLog.read, hfind] at hread
  cases hread
  rw [show found.content = blob.content from hcontent] at hparse'
  cases hparse.symm.trans hparse'
  exact howns (tagsOwners_of_mem_contents happended (ht.content_mem blob hblob) hparse channel tags htags hne)

end

/-- **What topics lead to.** A block that is accepted lists every channel that it has a topic for, and such a channel
owns a transaction of the block exactly if it has a position there. So let a question for topics be answered while no
read of the index fails. Each channel that is found is read by its own query, and shows nothing exactly if it has no
transaction in any of the blocks at its locations. This does not happen if contents that have the same hash are the
same, and no block that others append has a topic for a channel without a transaction. -/
theorem channelsOfTopics_own (turns : List Turn) (now : Timestamp) (s : DataService)
    (hs : s.engine = (Engine.new (.empty now)).through turns) (hquiet : s.engine.site.index.store.reading.Quiet) :
    (∀ text b, Block.parse text = .ok b → ∀ channel tags, b.header.topics.get? channel = some tags → tags ≠ [] →
      channel ∈ b.header.channels.keys ∧ (b.Owns channel ↔ b.positions channel ≠ [])) ∧
    ∀ topics window views, (s.channelsOfTopics topics window).1 = .ok views →
      (∀ channel ∈ views.channels, ∃ view, (s.channel channel none).1 = .ok view ∧ views.Shows channel view ∧
        (view.transactions = [] ↔ s.Hollow channel)) ∧
      (CollisionFree (turns.flatMap Turn.contents) →
        (∀ content time, .event (.append content time) ∈ turns → ∀ b, Block.parse content = .ok b → b.TagsOwners) →
        ∀ channel ∈ views.channels, ¬ s.Hollow channel) := by
  refine ⟨fun text b hparse channel tags htags _ => ?_, fun topics window views hok => ⟨?_, ?_⟩⟩
  · have hsound := Block.sound_of_parse hparse
    have hkey : channel ∈ b.header.topics.keys := Dict.mem_keys_iff.2 (Option.isSome_iff_exists.2 ⟨tags, htags⟩)
    exact ⟨Block.contains_iff_mem_keys.1 (hsound.described channel hkey), hsound.owns_iff⟩
  · obtain ⟨h, hc⟩ := Engine.carries_through turns (Engine.carries_new now)
    rw [← hs] at hc
    obtain ⟨hready, htopics⟩ := ready_of_channelsOfTopics hok
    obtain ⟨-, hfound, hshows⟩ := shows_of_channelsOfTopics hc hquiet hready htopics hok
    intro channel hchannel
    obtain ⟨view, hview, hshown⟩ := hshows channel ((hfound channel).1 hchannel)
    exact ⟨view, hview, hshown, transactions_eq_nil_iff hc hready hview⟩
  · intro hfree happended channel hchannel
    obtain ⟨h, hc, ht⟩ := Engine.tagging_through turns (Engine.carries_new now) ⟨Engine.filed_new now, nofun⟩
      (fun content hcontent => hcontent) hfree
    rw [← hs] at hc ht
    obtain ⟨hready, htopics, hwell⟩ := (channelsOfTopics_isOk hc hquiet ht.toFiled hfree).1 ⟨views, hok⟩
    obtain ⟨-, hfound, -⟩ := shows_of_channelsOfTopics hc hquiet hready htopics hok
    have hupdated := (hfound channel).1 hchannel
    exact not_hollow_of_found hc ht hfree happended
      (hwell channel (hc.records.mem_channelsOfAny.2 hupdated)) hupdated

/-- A transaction that the service stored is found through its topic, and its channel has something to show. -/
theorem channelsOfTopics_own_trial :
    ∃ s : DataService, s.engine = (Engine.new (.empty 10)).through storedTurns ∧ ∃ views view,
      (s.channelsOfTopics [Block.trialTopic] none).1 = .ok views ∧ Block.trialChannel ∈ views.channels ∧
      (s.channel Block.trialChannel none).1 = .ok view ∧ view.transactions ≠ [] := by
  let s : DataService := ⟨.standard, (Engine.new (.empty 10)).through storedTurns, .new 0 1 0⟩
  obtain ⟨hready, hquiet, h, site, hc⟩ := @through_storedTurns s.engine rfl
  obtain ⟨views, hok⟩ := @channelsOfTopics_storedTurns s [Block.trialTopic] none rfl rfl
  obtain ⟨-, hfound, -⟩ := shows_of_channelsOfTopics hc hquiet.reading hready rfl hok
  have hmem : Block.trialChannel ∈ views.channels := by
    refine (hfound _).2 ⟨Block.trialTopic, List.mem_cons_self, ?_⟩
    rw [History.latest?_append_single, if_pos (tags_additionFor.2 ⟨rfl, List.mem_cons_self⟩)]
    exact ⟨_, rfl, rfl⟩
  obtain ⟨-, hanswered⟩ := channelsOfTopics_own storedTurns 10 s rfl hquiet.reading
  obtain ⟨hviews, hhollow⟩ := hanswered [Block.trialTopic] none views hok
  obtain ⟨view, hview, -, hiff⟩ := hviews _ hmem
  refine ⟨s, rfl, views, view, hok, hmem, hview, fun hnil => ?_⟩
  -- Nobody else has appended anything.
  exact hhollow collisionFree_storedTurns (fun _ _ happend => by simp [storedTurns] at happend) _ hmem (hiff.1 hnil)

end DataService

end Invoicing
