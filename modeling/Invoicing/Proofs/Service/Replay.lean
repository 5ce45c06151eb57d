import Invoicing.Proofs.Block
import Invoicing.Proofs.Index.Replay
import Invoicing.Proofs.Service.Lifecycle

set_option autoImplicit false

/-! # Synchronizing again

Blobs that the index knows can be indexed again without a change of any record, so a synchronization that brings
nothing else changes the answer to no query (`DataService.replay`). It makes no difference what the records held before the
blobs were indexed for the first time. -/

namespace Invoicing

namespace StorageNode

/-- A read leaves all but the journal as it is. -/
theorem read_eq (node : StorageNode) (location : String) :
    node.read location = ((node.script.reads.lookup location).getD (node.log.read location),
      { node with journal.reads := node.journal.reads ++ [location] }) := by
  simp only [read]
  cases node.script.reads.lookup location <;> rfl

/-- A query for data leaves the blobs as they are, and what reads are answered. -/
theorem log_data (node : StorageNode) (window : Option Window) (now : Timestamp) :
    (node.data window now).2.log = node.log ∧ (node.data window now).2.script.reads = node.script.reads := by
  simp only [data]
  split
  · exact ⟨rfl, rfl⟩
  · split
    · exact ⟨rfl, rfl⟩
    · split <;> exact ⟨rfl, rfl⟩

end StorageNode

/-! ## Sites that no reader can tell apart -/

/-- The sites have the same blobs, records and times, and no call to their indexes fails. -/
structure Site.Alike (site site' : Site) : Prop where
  log : site'.storage.log = site.storage.log
  reads : site'.storage.script.reads = site.storage.script.reads
  clock : site'.clock = site.clock
  ownTime : site'.ownTime = site.ownTime
  records : site'.index.store.records = site.index.store.records
  quiet : site.index.store.reading.Quiet
  quiet' : site'.index.store.reading.Quiet

/-- What only reads leaves a site that is alike. -/
theorem Site.ReadOnly.alike {site site' : Site} (hro : site.ReadOnly site')
    (hq : site.index.store.reading.Quiet) : site.Alike site' :=
  ⟨hro.log, congrArg (·.reads) hro.script, hro.clock, hro.ownTime, hro.store.records, hq, hro.store.quiet hq⟩

/-- A look-up in the index has the same answer on both sites. -/
theorem Site.Alike.onIndex {α : Type} {site site' : Site} (h : site.Alike site') {m : StoreM α} (hm : m.Determined) :
    (Call.onIndex site' fun index => index.run m).1 = (Call.onIndex site fun index => index.run m).1 ∧
      Site.Alike (Call.onIndex site fun index => index.run m).2 (Call.onIndex site' fun index => index.run m).2 := by
  have hro := hm.readOnly site.index.store
  have hro' := hm.readOnly site'.index.store
  exact ⟨hm.fst_eq h.records h.quiet h.quiet', h.log, h.reads, h.clock, h.ownTime,
    hro'.records.trans (h.records.trans hro.records.symm), hro.quiet h.quiet, hro'.quiet h.quiet'⟩

theorem Call.Reads.alike {α : Type} {c : Call α} (hc : c.Reads) {site site' : Site} (h : site.Alike site') :
    (c.run site').1 = (c.run site).1 ∧ Site.Alike (c.run site).2 (c.run site').2 := by
  cases hc with
  | now =>
    refine ⟨?_, h⟩
    show site'.serviceTime = site.serviceTime
    rw [Site.serviceTime, h.ownTime, h.clock, Site.serviceTime]
  | read location =>
    simp only [Call.run, Call.onStorage, StorageNode.read_eq]
    exact ⟨by rw [h.reads, h.log], h.log, h.reads, h.clock, h.ownTime, h.records, h.quiet, h.quiet'⟩
  | locations channel window => exact h.onIndex (Index.determined_locations channel window)
  | channels topics window => exact h.onIndex (Index.determined_channelsOfTopics topics window)

theorem Program.Reads.alike {α : Type} {p : Program α} (hp : p.Reads) {site site' : Site} (h : site.Alike site') :
    (p.run site').1 = (p.run site).1 := by
  induction p generalizing site site' with
  | done a => rfl
  | call c next ih =>
    obtain ⟨hanswer, hafter⟩ := hp.1.alike h
    show ((next (c.run site').1).run (c.run site').2).1 = ((next (c.run site).1).run (c.run site).2).1
    rw [hanswer]
    exact ih _ (hp.2 _) hafter

/-- A query of two engines that are ready has the same answer on sites that are alike. -/
theorem Engine.perform_alike {α : Type} {e e' : Engine} (hready : e.isReady = true) (hready' : e'.isReady = true)
    (h : e.site.Alike e'.site) {task : Task α} (htask : task.Reads) :
    (e'.perform task).1 = (e.perform task).1 := by
  rw [perform_ready hready, perform_ready hready']
  exact Program.Reads.alike htask h

/-! ## Indexing what is known -/

/-- The records know the block of every blob that is one. -/
def Records.KnowsAll (records : Records) (blobs : List Blob) : Prop :=
  ∀ blob ∈ blobs, ∀ block, Block.parse blob.content = .ok block →
    ∃ time, records.Knows blob.location block.header time

theorem Records.KnowsAll.each {records : Records} {blobs : List Blob} (hknown : records.KnowsAll blobs) :
    records.KnowsEach (additionsOf blobs) := by
  intro a ha
  obtain ⟨blob, hblob, ha⟩ := List.mem_filterMap.1 ha
  unfold Blob.addition? at ha
  split at ha
  · next block hparse =>
    cases ha
    exact hknown blob hblob block hparse
  · cases ha

/-- Only the store's counters change when known blobs are indexed again. -/
theorem Task.run_indexBlobs_known {site : Site} {blobs : List Blob}
    (hknown : site.index.store.records.KnowsAll blobs) (hquiet : site.index.store.Quiet) (report : SyncReport) :
    ∃ report' store, (indexBlobs report blobs).run site = (.ok report', { site with index.store := store }) ∧
      store.records = site.index.store.records ∧ store.Quiet := by
  obtain ⟨hadmits, hsame⟩ := hknown.each.again
  rw [run_indexBlobs_eq]
  rcases Index.run_addAll_cases site.index.store (additionsOf blobs) with
    ⟨hok, -, hrecords, hquiet'⟩ | ⟨-, -, hnot⟩
  · rw [hok]
    exact ⟨_, _, rfl, hrecords.trans hsame, hquiet' hquiet⟩
  · exact absurd ⟨hquiet, hadmits⟩ hnot

/-- A synchronization whose answer brings only known blobs ends well, and no reader can tell that it took place. -/
theorem Engine.synchronize_known {e : Engine} {data : StorageData} {blobs : List Blob} (hready : e.isReady = true)
    (hquiet : e.site.index.store.Quiet) (hdata : .ok data ∈ e.received (.event .synchronize))
    (hblobs : Task.blobsOf data = .ok blobs) (hknown : e.site.index.store.records.KnowsAll blobs) :
    (∃ report, e.synchronize.1 = .ok report) ∧ e.synchronize.2.isReady = true ∧ e.site.Alike e.synchronize.2.site := by
  rw [received, receivedBy, if_pos hready] at hdata
  obtain ⟨hrun, hanswers⟩ := Task.run_synchronize e.watermark e.site
  rw [hanswers, Task.received_catchUp, List.mem_singleton] at hdata
  rw [Engine.synchronize, perform_ready hready, hrun, Task.run_catchUp_answered hdata.symm]
  generalize some (Window.between e.watermark e.site.serviceTime) = window
  obtain ⟨hlog, hreads⟩ := e.site.storage.log_data window e.site.clock.now
  generalize hsite : ((Call.data window).run e.site).2 = site
  have hstorage : site.storage = (e.site.storage.data window e.site.clock.now).2 := hsite ▸ rfl
  have hindex : site.index = e.site.index := hsite ▸ rfl
  have htimes : site.clock = e.site.clock ∧ site.ownTime = e.site.ownTime := hsite ▸ ⟨rfl, rfl⟩
  obtain ⟨report, store, hindexed, hrecords, hquiet'⟩ :=
    Task.run_indexBlobs_known (hindex ▸ hknown) (hindex ▸ hquiet) ⟨0, 0⟩
  have hdone : (Task.indexData data).run site = (.ok report, { site with index.store := store }) := by
    rw [Task.indexData, hblobs]
    exact hindexed
  rw [Task.run_bind_ok (congrArg Prod.fst hdone), hdone]
  refine ⟨⟨report, rfl⟩, hready, ?_, ?_, htimes.1, htimes.2, ?_, hquiet.reading, hquiet'.reading⟩
  · exact hstorage ▸ hlog
  · exact hstorage ▸ hreads
  · exact hrecords.trans (congrArg (·.store.records) hindex)

namespace DataService

/-- **Replay changes nothing.** Take any store at all and additions that it takes without trouble. Each of their blocks can
then be added again, with any time, and no byte of a record changes. So a service that synchronizes with an answer whose
blocks are all among them ends well, with the same records, and every query is answered as before. -/
theorem replay (h : History) (s₀ s : Store) (hadd : (Index.addAll h).run.run s₀ = (.ok (), s)) :
    (∀ a ∈ h, ∀ timestamp, ∀ s' : Store, s'.records = s.records → s'.Quiet → ∃ s'',
      (Index.add a.location a.header timestamp).run.run s' = (.ok (), s'') ∧ s''.records = s.records) ∧
    ∀ service : DataService, service.engine.isReady = true →
      service.engine.site.index.store.records = s.records → service.engine.site.index.store.Quiet →
      ∀ data blobs, .ok data ∈ service.engine.received (.event .synchronize) → Task.blobsOf data = .ok blobs →
        (∀ blob ∈ blobs, ∀ block, Block.parse blob.content = .ok block →
          ∃ a ∈ h, a.location = blob.location ∧ a.header = block.header) →
        (∃ report, service.synchronize.1 = .ok report) ∧
        service.synchronize.2.engine.site.index.store.records = s.records ∧
        (∀ channel window,
          (service.synchronize.2.channel channel window).1 = (service.channel channel window).1) ∧
        ∀ topics window,
          (service.synchronize.2.channelsOfTopics topics window).1 = (service.channelsOfTopics topics window).1 := by
  have hknown := Index.exists_knows_addAll hadd
  refine ⟨fun a ha timestamp s' hrecords hquiet => ?_, fun service hready hrecords hquiet data blobs hdata hblobs hold => ?_⟩
  · obtain ⟨time, hknows⟩ := hknown a ha
    rw [← hrecords] at hknows
    obtain ⟨hsame, hok⟩ := Index.add_again hknows timestamp
    refine ⟨_, Prod.ext (hok hquiet).1 rfl, hsame.trans hrecords⟩
  · have hall : service.engine.site.index.store.records.KnowsAll blobs := by
      intro blob hblob block hparse
      obtain ⟨a, ha, hlocation, hheader⟩ := hold blob hblob block hparse
      obtain ⟨time, hknows⟩ := hknown a ha
      rw [hlocation, hheader, ← hrecords] at hknows
      exact ⟨time, hknows⟩
    obtain ⟨hok, hready', halike⟩ := Engine.synchronize_known hready hquiet hdata hblobs hall
    refine ⟨hok, halike.records.trans hrecords, fun channel window => ?_, fun topics window => ?_⟩
    · exact Engine.perform_alike hready hready' halike (Task.reads_channelEntries channel window).map
    · exact Engine.perform_alike hready hready' halike (Task.reads_topicsEntries topics window).map

/-- Two blocks that have their channel and their topic in common. -/
def trialReplay : History := [⟨"l", Block.trial.header, 5⟩, ⟨"m", Block.trial.header, 8⟩]

/-- In the trial the storage brings the first of the two blocks again, with a later time. -/
theorem replay_trial : ∃ s : Store, (Index.addAll trialReplay).run.run .empty = (.ok (), s) ∧
    (∃ s', (Index.add "l" Block.trial.header 99).run.run s = (.ok (), s') ∧ s'.records = s.records) ∧
    ∃ service : DataService, service.engine.site.index.store = s ∧ (∃ report, service.synchronize.1 = .ok report) ∧
      ∀ channel window, (service.synchronize.2.channel channel window).1 = (service.channel channel window).1 := by
  obtain ⟨hok, hq⟩ := Index.run_addAll_quiet trialReplay (s := .empty) Records.hold_empty
    ⟨Faults.quiet_never, Faults.quiet_never⟩
  generalize hrun : (Index.addAll trialReplay).run.run .empty = out at hok hq
  obtain ⟨result, s⟩ := out
  cases hok
  obtain ⟨hagain, hsync⟩ := replay trialReplay .empty s hrun
  let data : StorageData := ⟨some [Block.trial.render], some ["l"], 99, [.ofTimestamp 99]⟩
  let node : StorageNode := { StorageNode.empty with script.data := [.ok data] }
  let service : DataService := ⟨.brisk, ⟨true, 10, ⟨node, ⟨true, s⟩, ⟨99⟩, none⟩⟩, .new 0 1 0⟩
  have hparse : Block.parse Block.trial.render = .ok Block.trial := Block.parse_render_push_empty _ rfl (by decide)
  have hreceived : service.engine.received (.event .synchronize) = [.ok data] := by
    rw [Engine.received, Engine.receivedBy, if_pos rfl, (Task.run_synchronize _ _).2, Task.received_catchUp]
    rfl
  have hdata : .ok data ∈ service.engine.received (.event .synchronize) := hreceived ▸ List.mem_cons_self
  obtain ⟨hreport, -, hchannel, -⟩ := hsync service rfl rfl hq data [⟨"l", Block.trial.render, .ofTimestamp 99⟩] hdata
    rfl fun blob hblob block hblock => by
      rw [List.mem_singleton.1 hblob, hparse] at hblock
      cases hblock
      exact ⟨⟨"l", Block.trial.header, 5⟩, List.mem_cons_self, by rw [List.mem_singleton.1 hblob], rfl⟩
  exact ⟨s, rfl, hagain _ List.mem_cons_self 99 s rfl hq, service, rfl, hreport, hchannel⟩

end DataService

end Invoicing
