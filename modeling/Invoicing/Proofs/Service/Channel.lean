import Invoicing.Proofs.Block
import Invoicing.Proofs.Service.Growth

set_option autoImplicit false

/-! # What a channel holds

A transaction that was stored is read back as the last one of its channel, unless its very block was indexed before
(`DataService.channel_persist`). The invariant of a run is `Placed`: whatever the index lists for a channel that is a
content hash is in the log and is a block. Blobs are found by the hash of their content, so contents with the
same hash are taken to be the same (`CollisionFree`). -/

namespace Invoicing

/-! ## Contents -/

/-- The contents that an event gives to the storage. -/
def Event.contents : Event → List String
  | .persist t channel topics => [(Block.empty.push t channel topics).render]
  | .append content _ => [content]
  | _ => []

/-- Blobs lie under the hashes of their contents, and what the history lists for a channel that is a content hash
is the location of a block. -/
structure Placed (contents : List String) (log : BlobLog) (h : History) : Prop where
  location_eq : ∀ blob ∈ log.blobs, blob.location = ContentHash.ofText blob.content
  content_mem : ∀ blob ∈ log.blobs, blob.content ∈ contents
  placed : ∀ a ∈ h, ∀ channel, ContentHash.isWellFormed channel = true → a.mentions channel = true →
    ∃ blob ∈ log.blobs, blob.location = a.location ∧ ∃ block, Block.parse blob.content = .ok block

/-! ## The invariant -/

theorem Task.checkTopics_eq_ok {topics : List String} :
    Task.checkTopics topics = .ok () ↔ ∀ topic ∈ topics, ContentHash.isWellFormed topic = true := by
  unfold Task.checkTopics
  split
  · next hfilter =>
    rw [List.filter_eq_nil_iff] at hfilter
    simpa using hfilter
  · next hfilter =>
    constructor
    · intro h
      cases h
    · intro h
      refine absurd (List.filter_eq_nil_iff.2 ?_) hfilter
      simpa using h

namespace Placed

variable {contents : List String} {log : BlobLog} {h : History}

theorem append (hp : Placed contents log h) {content : String} (hcontent : content ∈ contents)
    (time : Timestamp) : Placed contents (log.append content time).2 h where
  location_eq blob hblob := by
    rcases BlobLog.mem_append hblob with hblob | rfl
    · exact hp.location_eq blob hblob
    · rfl
  content_mem blob hblob := by
    rcases BlobLog.mem_append hblob with hblob | rfl
    · exact hp.content_mem blob hblob
    · exact hcontent
  placed a ha channel hchannel hmentions := by
    obtain ⟨blob, hblob, hrest⟩ := hp.placed a ha channel hchannel hmentions
    exact ⟨blob, BlobLog.mem_append_of_mem hblob content time, hrest⟩

/-- Blocks of the log may be indexed. -/
theorem learn (hp : Placed contents log h) {added : History}
    (hadded : ∀ a ∈ added, ∀ channel, ContentHash.isWellFormed channel = true → a.mentions channel = true →
      ∃ blob ∈ log.blobs, blob.location = a.location ∧ ∃ block, Block.parse blob.content = .ok block) :
    Placed contents log (h ++ added) where
  location_eq := hp.location_eq
  content_mem := hp.content_mem
  placed a ha := (List.mem_append.1 ha).elim (hp.placed a) (hadded a)

theorem learn_blobs (hp : Placed contents log h) {added : History}
    (hadded : ∀ a ∈ added, ∃ blob ∈ log.blobs, blob.addition? = some a) : Placed contents log (h ++ added) := by
  refine hp.learn fun a ha channel _ _ => ?_
  obtain ⟨blob, hblob, ha⟩ := hadded a ha
  refine ⟨blob, hblob, ?_⟩
  unfold Blob.addition? at ha
  split at ha
  · next block hparse =>
    cases ha
    exact ⟨rfl, block, hparse⟩
  · cases ha

/-- What the history lists for a channel that is a content hash is found in the log and is a block. -/
theorem find? (hp : Placed contents log h) (hfree : CollisionFree contents) {channel location : String}
    (hchannel : ContentHash.isWellFormed channel = true) (hlocation : location ∈ h.locationsOf channel) :
    ∃ blob, log.find? location = some blob ∧ ∃ block, Block.parse blob.content = .ok block := by
  obtain ⟨a, ha, hmentions, rfl⟩ := History.mem_locationsOf.1 hlocation
  obtain ⟨blob, hblob, hloc, block, hparse⟩ := hp.placed a ha channel hchannel hmentions
  obtain ⟨found, hfound, hcontent⟩ := BlobLog.find?_of_mem hp.location_eq hp.content_mem hfree hblob
  exact ⟨found, hloc ▸ hfound, block, hcontent ▸ hparse⟩

/-- The block of a stored transaction is in the log, under the location that the index learns. -/
theorem exists_additionFor {site : Site} (hp : Placed contents site.storage.log h) (hfree : CollisionFree contents)
    {t : Transaction} {channel : String} {topics : List String}
    (hcontent : (Block.empty.push t channel topics).render ∈ contents) :
    let stored := site.storage.log.append (Block.empty.push t channel topics).render site.clock.now
    ∃ blob ∈ stored.2.blobs, blob.location = (site.additionFor t channel topics).location ∧
      blob.content = (Block.empty.push t channel topics).render ∧ blob.info = stored.1.info := by
  obtain ⟨-, blob, hfind, hblob, hinfo⟩ :=
    BlobLog.find?_append_self hp.location_eq hp.content_mem hfree hcontent site.clock.now
  have hbeq := List.find?_some hfind
  exact ⟨blob, List.mem_of_find?_eq_some hfind, beq_iff_eq.1 hbeq, hblob, hinfo⟩

end Placed

namespace Engine

variable {e : Engine} {h : History} {contents : List String}

theorem mentions_additionFor {t : Transaction} {channel c : String} {topics : List String} {site : Site} :
    (site.additionFor t channel topics).mentions c = true ↔ c = channel := by
  show (List.lookup c [(channel, [(0 : Position)])]).isSome = true ↔ c = channel
  rw [Dict.lookup_cons]
  split
  · next heq => simp [heq]
  · next hne => simp [hne]

/-- An event keeps the invariant, whatever it does. -/
theorem Growth.placed {event : Event} {added : History} {log : BlobLog} (hgrowth : Growth e event added log)
    (hcontents : ∀ content ∈ event.contents, content ∈ contents) (hfree : CollisionFree contents)
    (hp : Placed contents e.site.storage.log h) : Placed contents log (h ++ added) := by
  cases hgrowth with
  | index event added hadded => exact hp.learn_blobs hadded
  | persist t channel topics added htopics hadded =>
    have hrender := hcontents _ List.mem_cons_self
    have hp' := hp.append hrender e.site.clock.now
    refine hp'.learn fun a ha c hc hmentions => ?_
    obtain rfl : a = e.site.additionFor t channel topics := by
      rcases hadded with rfl | rfl
      · cases ha
      · exact List.mem_singleton.1 ha
    -- The block has transactions of its own channel alone, and that channel is a content hash.
    obtain rfl := mentions_additionFor.1 hmentions
    obtain ⟨blob, hblob, hlocation, hcontent, -⟩ := hp.exists_additionFor hfree hrender
    have hparse := Block.parse_render_push_empty t hc (Task.checkTopics_eq_ok.1 htopics)
    exact ⟨blob, hblob, hlocation, _, hcontent ▸ hparse⟩
  | append content time =>
    rw [List.append_nil]
    exact hp.append (hcontents content List.mem_cons_self) time

theorem Change.placed {event : Event} {added : History} {s : Status} (hchange : Change e event added s)
    (hcontents : ∀ content ∈ event.contents, content ∈ contents) (hfree : CollisionFree contents)
    (hp : Placed contents e.status.log h) : Placed contents s.log (h ++ added) :=
  hchange.growth.placed hcontents hfree hp

/-- A run keeps the invariant. -/
theorem placed_after (events : List Event) (ht : e.Tracks h) (hp : Placed contents e.status.log h)
    (hcontents : ∀ content ∈ events.flatMap Event.contents, content ∈ contents)
    (hfree : CollisionFree contents) :
    ∃ h', (e.after events).Tracks h' ∧ Placed contents (e.after events).status.log h' := by
  induction events generalizing e h with
  | nil => exact ⟨h, ht, hp⟩
  | cons event events ih =>
    rw [List.flatMap_cons] at hcontents
    obtain ⟨added, ht', hchange⟩ := ht.change event
    have hp' := hchange.placed (fun c hc => hcontents c (List.mem_append_left _ hc)) hfree hp
    exact ih ht' hp' fun c hc => hcontents c (List.mem_append_right _ hc)

theorem placed_new (now : Timestamp) : Placed contents (Engine.new (.empty now)).status.log [] :=
  ⟨nofun, nofun, nofun⟩

end Engine

/-! ## Reading a channel -/

/-- The entries of an outcome, none if it is an error. -/
def Task.entriesIn (outcome : Except BlockError (List ChannelEntry)) : List ChannelEntry :=
  match outcome with
  | .ok entries => entries
  | .error _ => []

/-- What the log holds at a location, and an empty text where it holds nothing. -/
def BlobLog.held (log : BlobLog) (location : String) : ReadResult :=
  match log.read location with
  | .ok result => result
  | .error _ => ⟨"", default⟩

/-- The channel's transactions at a location of the log. -/
def BlobLog.entriesAt (log : BlobLog) (channel location : String) : List ChannelEntry :=
  Task.entriesIn (Task.entriesOf channel location (log.held location))

theorem BlobLog.held_of_find? {log : BlobLog} {location : String} {blob : Blob}
    (h : log.find? location = some blob) : log.held location = ⟨blob.content, blob.info⟩ := by
  rw [held, read, h]

/-- What a log has at each of some locations. -/
def BlobLog.readAll (log : BlobLog) (locations : List String) : Except ServiceError (List (String × ReadResult)) :=
  locations.mapM fun l => ((log.read l).mapError ServiceError.storage).map (l, ·)

/-- What a log has for a channel at some locations, or the first trouble with it. -/
def BlobLog.readChannel (log : BlobLog) (channel : String) (locations : List String) :
    Except ServiceError (List ChannelEntry) :=
  log.readAll locations >>= fun stored =>
    ((stored.mapM fun read => Task.entriesOf channel read.1 read.2).mapError ServiceError.block).map List.flatten

theorem BlobLog.readAll_of_find? {log : BlobLog} {locations : List String}
    (hfound : ∀ l ∈ locations, ∃ blob, log.find? l = some blob) :
    log.readAll locations = .ok (locations.map fun l => (l, log.held l)) := by
  refine Effect.mapM_ok fun l hl => ?_
  obtain ⟨blob, hfind⟩ := hfound l hl
  rw [held_of_find? hfind, read, hfind]
  rfl

theorem BlobLog.readChannel_of_readAll {log : BlobLog} {channel : String} {locations : List String}
    {stored : List (String × ReadResult)} (h : log.readAll locations = .ok stored) :
    log.readChannel channel locations =
      ((stored.mapM fun read => Task.entriesOf channel read.1 read.2).mapError ServiceError.block).map
        List.flatten := by
  rw [readChannel, h]
  rfl

theorem Task.entriesOf_eq_ok {channel location : String} (stored : ReadResult) {block : Block}
    (h : Block.parse stored.content = .ok block) :
    entriesOf channel location stored = .ok ((positionsOf block channel).filterMap fun i =>
      block.transactions[i]?.map fun t => ⟨t, location, stored.info⟩) := by
  rw [entriesOf, h]
  rfl

/-- An entry at a location has the meta data that the log keeps there. -/
theorem BlobLog.exists_of_mem_entriesAt {log : BlobLog} {channel location : String} {entry : ChannelEntry}
    (h : entry ∈ log.entriesAt channel location) : ∃ t, entry = ⟨t, location, (log.held location).info⟩ := by
  cases hparse : Block.parse (log.held location).content with
  | error e =>
    have hentries : Task.entriesOf channel location (log.held location) = .error e := by
      rw [Task.entriesOf, hparse]
      rfl
    rw [entriesAt, hentries] at h
    cases h
  | ok block =>
    rw [entriesAt, Task.entriesOf_eq_ok _ hparse] at h
    obtain ⟨i, -, hi⟩ := List.mem_filterMap.1 h
    obtain ⟨t, -, rfl⟩ := Option.map_eq_some_iff.1 hi
    exact ⟨t, rfl⟩

/-- At locations of blocks nothing is missing. -/
theorem BlobLog.readChannel_of_blocks {log : BlobLog} {channel : String} {locations : List String}
    (hblocks : ∀ l ∈ locations, ∃ blob, log.find? l = some blob ∧ ∃ block, Block.parse blob.content = .ok block) :
    log.readChannel channel locations = .ok (locations.flatMap (log.entriesAt channel)) := by
  have hread := readAll_of_find? fun l hl => (hblocks l hl).imp fun _ => And.left
  have hentries : (locations.map fun l => (l, log.held l)).mapM (fun read => Task.entriesOf channel read.1 read.2) =
      .ok ((locations.map fun l => (l, log.held l)).map fun read =>
        Task.entriesIn (Task.entriesOf channel read.1 read.2)) := by
    refine Effect.mapM_ok fun read hmem => ?_
    obtain ⟨l, hl, rfl⟩ := List.mem_map.1 hmem
    obtain ⟨blob, hfind, block, hparse⟩ := hblocks l hl
    rw [held_of_find? hfind, Task.entriesOf_eq_ok ⟨blob.content, blob.info⟩ hparse]
    rfl
  rw [readChannel_of_readAll hread, hentries, List.map_map]
  rfl

namespace Task

variable {site : Site}

/-- Locations are read as what the log has there. -/
theorem run_readAll (hscript : site.storage.script = .empty) (locations : List String) :
    ((readAll locations).run site).1 = site.storage.log.readAll locations := by
  obtain ⟨log, hlog⟩ : ∃ log, log = site.storage.log := ⟨_, rfl⟩
  rw [← hlog]
  refine run_mapM (I := fun s => s.storage.log = log ∧ s.storage.script = .empty) locations ?_ site
    ⟨hlog.symm, hscript⟩
  rintro l - s ⟨hslog, hsscript⟩
  rw [← map_eq_pure_bind, run_map, run_ofStorage]
  simp only [Call.run, Call.onStorage, StorageNode.read_unscripted hsscript, hslog]
  exact ⟨trivial, trivial, hsscript⟩

/-- What is read for a channel depends on the log alone. -/
theorem run_readChannel_fst (hscript : site.storage.script = .empty) (channel : String) (locations : List String) :
    ((readChannel channel locations).run site).1 = site.storage.log.readChannel channel locations := by
  rw [readChannel, run_bind, run_readAll hscript]
  cases hstored : site.storage.log.readAll locations with
  | error e =>
    rw [BlobLog.readChannel, hstored]
    rfl
  | ok stored =>
    rw [BlobLog.readChannel_of_readAll hstored]
    show (Task.run (List.mapM _ stored >>= _) _).1 = _
    rw [mapM_ofBlock]
    cases stored.mapM fun read => entriesOf channel read.1 read.2 <;> rfl

end Task

theorem Task.run_closeWindow (window : Option Window) (site : Site) :
    (closeWindow window).run site = (.ok (window.map (·.closedAt site.serviceTime)), site) := by
  cases window <;> rfl

/-- A query for a channel looks it up once, and the log has the rest. -/
theorem Task.run_channelEntries_fst {site : Site} (hscript : site.storage.script = .empty) (channel : String)
    (window : Option Window) :
    ((channelEntries channel window).run site).1 =
      ((Index.locations channel (window.map (·.closedAt site.serviceTime))).run.run site.index.store).1.mapError
        ServiceError.index >>= site.storage.log.readChannel channel := by
  obtain ⟨closed, hclosed⟩ : ∃ closed, closed = window.map (·.closedAt site.serviceTime) := ⟨_, rfl⟩
  have hrun : (channelEntries channel window).run site =
      (ofIndex (.locations channel closed) >>= readChannel channel).run site := by
    rw [channelEntries, run_bind_ok (congrArg Prod.fst (run_closeWindow window site)), run_closeWindow, hclosed]
  have hcall : (ofIndex (.locations channel closed)).run site =
      (((Index.locations channel closed).run.run site.index.store).1.mapError .index,
        { site with index.store := ((Index.locations channel closed).run.run site.index.store).2 }) :=
    run_ofIndex _ site
  rw [hrun, run_bind, hcall, ← hclosed]
  cases ((Index.locations channel closed).run.run site.index.store).1 with
  | error e => rfl
  | ok found =>
    show ((readChannel channel found).run _).1 = site.storage.log.readChannel channel found
    apply run_readChannel_fst
    exact hscript

/-- Unless a read of the index fails, a query comes to what the log has at the locations that the index lists. -/
theorem Task.run_channelEntries_answers {site : Site} {channel : String} {window : Option Window}
    {locations : List String} (hscript : site.storage.script = .empty)
    (hlocations : (Index.locations channel (window.map (·.closedAt site.serviceTime))).Answers
      site.index.store.records (.ok locations)) :
    ((channelEntries channel window).run site).1 = site.storage.log.readChannel channel locations ∨
      ¬ site.index.store.reading.Quiet ∧ ∃ e, ((channelEntries channel window).run site).1 = .error e := by
  rw [run_channelEntries_fst hscript]
  rcases (hlocations site.index.store rfl).2 with hok | ⟨hnq, failure, herror⟩
  · rw [hok]
    exact .inl rfl
  · rw [herror]
    exact .inr ⟨hnq, _, rfl⟩

/-- Reading a channel gives what the log holds at the locations that the index lists, if all of it are blocks, unless a
read of the index fails. -/
theorem Task.run_channelEntries_cases {site : Site} {channel : String} {window : Option Window}
    {locations : List String} (hscript : site.storage.script = .empty)
    (hlocations : (Index.locations channel (window.map (·.closedAt site.serviceTime))).Answers
      site.index.store.records (.ok locations))
    (hblocks : ∀ l ∈ locations, ∃ blob, site.storage.log.find? l = some blob ∧
      ∃ block, Block.parse blob.content = .ok block) :
    ((channelEntries channel window).run site).1 = .ok (locations.flatMap (site.storage.log.entriesAt channel)) ∨
      ¬ site.index.store.reading.Quiet ∧ ∃ e, ((channelEntries channel window).run site).1 = .error e := by
  rcases run_channelEntries_answers hscript hlocations with hread | hfails
  · exact .inl (hread.trans (BlobLog.readChannel_of_blocks hblocks))
  · exact .inr hfails

/-- What the index lists for a channel that is a content hash are blocks, so it is read. -/
theorem Task.run_channelEntries {site : Site} {h : History} {contents : List String} {channel : String}
    (hscript : site.storage.script = .empty) (hold : site.index.store.records.Hold h)
    (hq : site.index.store.reading.Quiet) (hp : Placed contents site.storage.log h)
    (hfree : CollisionFree contents) (hchannel : ContentHash.isWellFormed channel = true) :
    ((channelEntries channel none).run site).1 =
      .ok ((h.locationsOf channel).flatMap (site.storage.log.entriesAt channel)) := by
  have hlocations := Index.answers_locations_none (hold.spells_channel channel)
  rw [hold.locationsOf_eq] at hlocations
  refine (run_channelEntries_cases hscript hlocations fun l hl => hp.find? hfree hchannel hl).resolve_right ?_
  exact fun hfails => hfails.1 hq

/-- To keep all or nothing of each part is to keep some of the parts. -/
theorem filter_flatMap_of_forall {α β : Type} {f : α → List β} {p : α → Bool} {q : β → Bool} {as : List α}
    (h : ∀ a ∈ as, ∀ b ∈ f a, q b = p a) : (as.flatMap f).filter q = (as.filter p).flatMap f := by
  induction as with
  | nil => rfl
  | cons a as ih =>
    rw [List.forall_mem_cons] at h
    rw [List.flatMap_cons, List.filter_append, ih h.2, List.filter_cons]
    split
    · next hp =>
      rw [List.flatMap_cons, List.filter_eq_self.2 fun b hb => (h.1 b hb).trans hp]
    · next hp =>
      rw [List.filter_eq_nil_iff.2 fun b hb => by rw [h.1 b hb]; exact hp, List.nil_append]

namespace DataService

/-- What a query for a channel answers once the service is set up. -/
theorem channel_eq_map {s : DataService} (hready : s.engine.isReady = true) (channel : String)
    (window : Option Window) :
    (s.channel channel window).1 =
      ((Task.channelEntries channel window).run s.engine.site).1.map ChannelView.ofEntries := by
  show (s.engine.perform (ChannelView.ofEntries <$> Task.channelEntries channel window)).1 = _
  rw [Engine.perform_ready hready, Task.run_map]

theorem channel_fst {s : DataService} (hready : s.engine.isReady = true) (channel : String)
    {entries : List ChannelEntry}
    (hentries : ((Task.channelEntries channel none).run s.engine.site).1 = .ok entries) :
    (s.channel channel none).1 = .ok (.ofEntries entries) := by
  rw [channel_eq_map hready, hentries]
  rfl

end DataService

end Invoicing
