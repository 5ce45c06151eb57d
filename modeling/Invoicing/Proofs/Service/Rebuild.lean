import Invoicing.Proofs.Service.Clock
import Invoicing.Proofs.Service.Watermark

set_option autoImplicit false

/-! # The index as a cache

An index that is filled while transactions are stored and others append blocks, in whatever order, agrees with one
that is built from the log at once (`DataService.agree_with_rebuilt`). The invariant is `Engine.Status.Mirrored`: what
was indexed is a block of the log, and blocks before the watermark were indexed. After a synchronization there
is nothing after the watermark, so that both indexes hold the same blocks. -/

namespace Invoicing

/-- The log has the block. -/
def Backed (log : BlobLog) (a : Addition) : Prop := ∃ blob ∈ log.blobs, blob.addition? = some a

theorem Backed.stored {log : BlobLog} {a : Addition} (hb : Backed log a) : Stored log a := by
  obtain ⟨blob, hblob, ha⟩ := hb
  exact stored_of_addition? hblob ha

/-- The block of a stored transaction is in the log as it was indexed. -/
theorem Placed.backed_additionFor {contents : List String} {site : Site} {h : History}
    (hp : Placed contents site.storage.log h) (hfree : CollisionFree contents) {t : Transaction} {channel : String}
    {topics : List String} (hchannel : ContentHash.isWellFormed channel = true)
    (htopics : Task.checkTopics topics = .ok ())
    (hcontent : (Block.empty.push t channel topics).render ∈ contents) :
    Backed (site.storage.log.append (Block.empty.push t channel topics).render site.clock.now).2
      (site.additionFor t channel topics) := by
  obtain ⟨blob, hblob, hlocation, hrender, hinfo⟩ := hp.exists_additionFor hfree hcontent
  refine ⟨blob, hblob, ?_⟩
  rw [Blob.addition?, hrender, Block.parse_render_push_empty t hchannel (Task.checkTopics_eq_ok.1 htopics)]
  show some (Addition.mk blob.location _ blob.info.timestamp) = _
  rw [hlocation, hinfo]
  rfl

namespace Engine

/-! ## The invariant -/

/-- Does a turn store transactions under content hashes alone? -/
def Labelled (e : Engine) : Turn → Prop
  | .event (.persist t channel topics) =>
    ∀ receipt, (e.perform (Task.persist t channel topics)).1 = .ok receipt → ContentHash.isWellFormed channel = true
  | _ => True

/-- The history mirrors the log: it has all blocks before the watermark, and the log has all that is in it. -/
structure Status.Mirrored (contents : List String) (s : Status) (h : History) : Prop extends s.Chronicle where
  covered : s.Covered h
  placed : Placed contents s.log h
  backed : ∀ a ∈ h, Backed s.log a

variable {e : Engine} {h added : History} {contents : List String} {event : Event}

theorem mirrored_new (now : Timestamp) : (Engine.new (.empty now)).status.Mirrored contents [] :=
  ⟨chronicle_new now, covered_new now, placed_new now, nofun⟩

/-- An event that keeps to the labels indexes blocks of the log alone. -/
theorem Progress.backed {s : Status} (hprogress : Progress e h event added s)
    (hcontents : ∀ content ∈ event.contents, content ∈ contents) (hfree : CollisionFree contents)
    (hlabelled : e.Labelled (.event event)) (hp : Placed contents e.site.storage.log h)
    (hbacked : ∀ a ∈ h, Backed e.site.storage.log a) : ∀ a ∈ h ++ added, Backed s.log a := by
  refine hprogress.growth.forall_mem (R := Backed) (fun content time a ha => ?_)
    (fun blob hblob a ha => ⟨blob, hblob, ha⟩) ?_ hbacked
  · obtain ⟨blob, hblob, ha⟩ := ha
    exact ⟨blob, BlobLog.mem_append_of_mem hblob content time, ha⟩
  · rintro t channel topics rfl htopics hadded
    obtain ⟨receipt, hreceipt⟩ := hprogress.exists_receipt (hadded ▸ List.cons_ne_nil _ _)
    exact hp.backed_additionFor hfree (hlabelled receipt hreceipt) htopics (hcontents _ List.mem_cons_self)

/-- On one clock nobody appends anything before the watermark. -/
theorem Status.Covered.allows (hc : e.status.Covered h) (htimely : e.Timely (.event event)) : e.Allows event := by
  cases event with
  | append content time =>
    obtain rfl := htimely
    exact hc.watermark_le
  | setClock now => exact htimely
  | _ => trivial

/-- A run within the rules keeps the invariant. -/
theorem mirrored_after (events : List Event) (ht : e.Tracks h) (hm : e.status.Mirrored contents h)
    (halong : e.Along (fun e turn => e.Timely turn ∧ e.Labelled turn) (events.map .event))
    (hcontents : ∀ content ∈ events.flatMap Event.contents, content ∈ contents) (hfree : CollisionFree contents) :
    ∃ h', (e.after events).Tracks h' ∧ (e.after events).status.Mirrored contents h' := by
  induction events generalizing e h with
  | nil => exact ⟨h, ht, hm⟩
  | cons event events ih =>
    obtain ⟨⟨htimely, hlabelled⟩, hrest⟩ := halong
    rw [List.flatMap_cons] at hcontents
    obtain ⟨added, -, ht', hprogress⟩ := ht.carries.progress event
    have hcontents' : ∀ content ∈ event.contents, content ∈ contents :=
      fun content hcontent => hcontents content (List.mem_append_left _ hcontent)
    have hm' : (e.next event).status.Mirrored contents (h ++ added) :=
      ⟨hprogress.chronicle htimely hm.toChronicle,
        (hprogress.change ht).covered (hm.covered.allows htimely) hm.covered,
        hprogress.growth.placed hcontents' hfree hm.placed,
        hprogress.backed hcontents' hfree hlabelled hm.placed hm.backed⟩
    exact ih (ht' ht) hm' hrest fun content hcontent => hcontents content (List.mem_append_right _ hcontent)

/-! ## Building anew -/

/-- A new engine with an empty index over the same storage, in which no query fails. -/
def rebuilt (e : Engine) : Engine := .new { e.site with storage.faults := .never, index := .empty }

theorem Carries.rebuilt (hc : e.Carries h) : e.rebuilt.Carries [] :=
  ⟨hc.script, hc.ownTime, Records.hold_empty, nofun⟩

/-- The set-up of such an engine gives its index the blocks of the log. -/
theorem Carries.setUp_rebuilt (hc : e.Carries h) : e.rebuilt.setUp.1 = .ok () ∧
    e.rebuilt.setUp.2.site.index.store.records.Hold (additionsOf e.site.storage.log.blobs) := by
  have hok := hc.rebuilt.setUp_ok rfl rfl ⟨Faults.quiet_never, Faults.quiet_never, Faults.quiet_never⟩
  obtain ⟨added, ht', -, ⟨-, -, -, hadded, -⟩ | ⟨⟨error, herror⟩, -⟩⟩ := hc.rebuilt.setUp
  · rw [show History.resume? [] e.rebuilt.site.clock.now = none from rfl, BlobLog.select_none] at hadded
    have hrecords := ht'.records
    rw [List.nil_append, hadded] at hrecords
    exact ⟨hok.1, hrecords⟩
  · cases hok.1.symm.trans herror

/-- After a synchronization the history has the blocks of the log, and nothing else. -/
theorem Status.Mirrored.mem_iff (hm : e.status.Mirrored contents h) (a : Addition) :
    a ∈ h ++ additionsOf (e.site.storage.log.select (some (.between e.watermark e.site.clock.now))) ↔
      a ∈ additionsOf e.site.storage.log.blobs := by
  rw [List.mem_filterMap]
  constructor
  · intro ha
    rcases List.mem_append.1 ha with ha | ha
    · exact hm.backed a ha
    · exact BlobLog.mem_of_mem_additionsOf_select ha
  · rintro ⟨blob, hblob, ha⟩
    exact caught_synchronize hm.covered blob hblob (hm.le_now blob hblob) a ha

end Engine

namespace DataService

/-- **The index can be built anew from the log.** In a run on one clock whose transactions have content hashes for
channels, an index that was just synchronized agrees with the one that a new service builds from the same storage. -/
theorem agree_with_rebuilt (events : List Event) (now : Timestamp) (s : DataService)
    (hs : s.engine = (Engine.new (.empty now)).after events)
    (halong : (Engine.new (.empty now)).Along (fun e turn => e.Timely turn ∧ e.Labelled turn) (events.map .event))
    (hfree : CollisionFree (events.flatMap Event.contents))
    {report : Task.SyncReport} (hok : s.synchronize.1 = .ok report) :
    let synced := s.synchronize.2.engine
    synced.rebuilt.setUp.1 = .ok () ∧
      synced.site.index.store.records.Agree synced.rebuilt.setUp.2.site.index.store.records := by
  intro synced
  obtain ⟨h, ht, hm⟩ := Engine.mirrored_after events (Engine.tracks_new now) (Engine.mirrored_new now) halong
    (fun _ hcontent => hcontent) hfree
  rw [← hs] at ht hm
  obtain ⟨added, ht', ⟨-, -, rfl, hstatus⟩ | ⟨⟨error, herror⟩, -⟩⟩ := ht.synchronize
  · have hlog : synced.site.storage.log = s.engine.site.storage.log := congrArg Engine.Status.log hstatus
    obtain ⟨hsetUp, hrebuilt⟩ := ht'.carries.setUp_rebuilt
    rw [show s.engine.synchronize.2.site.storage.log = _ from hlog] at hrebuilt
    refine ⟨hsetUp, ht'.records.agree hrebuilt (History.dated_of_stored hm.nodup fun a ha => ?_) hm.mem_iff⟩
    obtain ⟨blob, hblob, ha⟩ := List.mem_filterMap.1 ((hm.mem_iff a).1 ha)
    exact stored_of_addition? hblob ha
  · cases hok.symm.trans herror

/-- A transaction is stored, and the clock moves on. -/
def rebuildTrial : List Event :=
  [.setUp, .persist Block.trialTransaction Block.trialChannel [Block.trialTopic], .setClock 20,
    .schedule .never .never .never]

/-- A new index over the same storage agrees with the one that was filled by the service. -/
theorem agree_with_rebuilt_trial :
    ∃ s : DataService, s.engine = (Engine.new (.empty 10)).after rebuildTrial ∧
      (∃ report, s.synchronize.1 = .ok report) ∧ s.synchronize.2.engine.rebuilt.setUp.1 = .ok () ∧
      s.synchronize.2.engine.site.index.store.records.Agree
        s.synchronize.2.engine.rebuilt.setUp.2.site.index.store.records := by
  obtain ⟨e, he⟩ : ∃ e, e = (Engine.new (.empty 10)).after rebuildTrial := ⟨_, rfl⟩
  let s : DataService := ⟨.standard, e, .new 0 1 0⟩
  have hfree : CollisionFree (rebuildTrial.flatMap Event.contents) := by
    intro x hx y hy _
    rw [List.mem_singleton.1 hx, List.mem_singleton.1 hy]
  obtain ⟨report, hok⟩ : ∃ report, s.synchronize.1 = .ok report := by
    obtain ⟨h, ht, -⟩ := Engine.placed_after rebuildTrial (Engine.tracks_new 10) (Engine.placed_new 10)
      (fun _ hcontent => hcontent) hfree
    have hready : e.isReady = true := by
      rw [he]
      decide +kernel
    exact (he ▸ ht).synchronize_ok hready (he ▸ Engine.quiet_schedule _)
  have halong : (Engine.new (.empty 10)).Along (fun e turn => e.Timely turn ∧ e.Labelled turn)
      (rebuildTrial.map .event) := by
    refine ⟨⟨trivial, trivial⟩, ⟨trivial, fun _ _ => rfl⟩, ⟨?_, trivial⟩, ⟨trivial, trivial⟩, trivial⟩
    show ((Engine.new (.empty 10)).after (rebuildTrial.take 2)).site.clock.now ≤ 20
    decide +kernel
  exact ⟨s, he, ⟨report, hok⟩, agree_with_rebuilt rebuildTrial 10 s he halong hfree hok⟩

end DataService

end Invoicing
