import Invoicing.Proofs.Block
import Invoicing.Proofs.Service.Run
import Invoicing.Proofs.Timer

set_option autoImplicit false

/-! # The watermark

No blob is lost: whatever failed before, a set-up or a synchronization that succeeds leaves every block up to the
watermark in the index (`Engine.complete_of_synchronize`). The invariant is `Engine.Status.Covered`: blobs before
the watermark are indexed. Blobs at the watermark itself may have come after it was moved, so the
next synchronization has to take them again, which it does because its window has both its ends. -/

namespace Invoicing

namespace Engine

/-! ## The rules of a run -/

/-- Does an event keep to the rules? Nobody gives a content a time before the watermark in force, and the clock
does not go back. -/
def Allows (e : Engine) : Event → Prop
  | .append _ time => e.watermark ≤ time
  | .setClock now => e.site.clock.now ≤ now
  | _ => True

/-- Does every event of a run keep to the rules when it happens? -/
def AllowsAll (e : Engine) : List Event → Prop
  | [] => True
  | event :: events => e.Allows event ∧ (e.next event).AllowsAll events

/-- The index answers for every block up to the watermark: its location is among those of each of its
channels, and each of its channels is among those of each topic that tags it. -/
def Complete (e : Engine) : Prop :=
  ∀ blob ∈ e.site.storage.log.blobs, blob.info.timestamp ≤ e.watermark →
    ∀ block, Block.parse blob.content = .ok block →
      (∀ c ∈ block.header.channels.keys, ∃ found,
        (Index.locations c none).Answers e.site.index.store.records (.ok found) ∧ blob.location ∈ found) ∧
      ∀ c topics, block.header.topics.get? c = some topics → ∀ t ∈ topics, ∃ found,
        (Index.channelsOfTopic t none).Answers e.site.index.store.records (.ok found) ∧ c ∈ found

/-! ## The invariant -/

/-- The clock has reached the watermark, and the history has every blob before the watermark. -/
structure Status.Covered (s : Status) (h : History) : Prop where
  watermark_le : s.watermark ≤ s.now
  covered : ∀ blob ∈ s.log.blobs, blob.info.timestamp < s.watermark →
    ∀ a, blob.addition? = some a → a ∈ h

/-- The history has every blob up to the watermark. -/
def Status.Caught (s : Status) (h : History) : Prop :=
  ∀ blob ∈ s.log.blobs, blob.info.timestamp ≤ s.watermark → ∀ a, blob.addition? = some a → a ∈ h


variable {e : Engine} {h : History}

theorem Status.Covered.append {s : Status} (hc : s.Covered h) (content : String) {time : Timestamp}
    (htime : s.watermark ≤ time) (added : History) :
    Status.Covered { s with log := (s.log.append content time).2 } (h ++ added) where
  watermark_le := hc.watermark_le
  covered blob hblob hlt a ha := by
    rcases BlobLog.mem_append hblob with hold | rfl
    · exact List.mem_append_left _ (hc.covered blob hold hlt a ha)
    · exact absurd hlt (UInt64.not_lt.2 htime)

/-- Once all up to the present is in the history, the watermark can move there. -/
theorem Status.Caught.covered {s : Status} (hcaught : s.Caught h) (hnow : s.watermark ≤ s.now) :
    s.Covered h :=
  ⟨hnow, fun blob hblob hlt a ha => hcaught blob hblob (UInt64.le_of_lt hlt) a ha⟩

theorem caught_setUp (h : History) :
    Status.Caught { e.status with isReady := true, watermark := e.site.clock.now }
      (h ++ additionsOf e.site.storage.log.blobs) :=
  fun blob hblob _ _ ha => List.mem_append_right h (List.mem_filterMap.2 ⟨blob, hblob, ha⟩)

theorem caught_synchronize (hc : e.status.Covered h) :
    Status.Caught { e.status with watermark := e.site.clock.now }
      (h ++ additionsOf (e.site.storage.log.select (some (.between e.watermark e.site.clock.now)))) := by
  intro blob hblob hle a ha
  -- Blobs at the old watermark are in the window as well, for it has its lower end.
  by_cases hlt : blob.info.timestamp < e.watermark
  · exact List.mem_append_left _ (hc.covered blob hblob hlt a ha)
  · have hge : e.watermark ≤ blob.info.timestamp := UInt64.not_lt.1 hlt
    have hmem := BlobLog.mem_select_between hblob hge hle
    exact List.mem_append_right h (List.mem_filterMap.2 ⟨blob, hmem, ha⟩)

/-- An event that keeps to the rules leaves no blob before the watermark out. -/
theorem Change.covered {event : Event} {added : History} {s : Status} (hchange : Change e event added s)
    (hallows : e.Allows event) (hc : e.status.Covered h) : s.Covered (h ++ added) := by
  cases hchange with
  | still event added _ =>
    exact ⟨hc.watermark_le, fun blob hblob hlt a ha => List.mem_append_left _ (hc.covered blob hblob hlt a ha)⟩
  | setUp _ => exact (caught_setUp h).covered (UInt64.le_refl _)
  | synchronize _ => exact (caught_synchronize hc).covered (UInt64.le_refl _)
  | persist t channel topics added _ _ => exact hc.append _ hc.watermark_le added
  | append content time => exact hc.append content hallows []
  | setClock now =>
    exact ⟨UInt64.le_trans hc.watermark_le hallows, fun blob hblob hlt a ha =>
      List.mem_append_left _ (hc.covered blob hblob hlt a ha)⟩

theorem covered_new (now : Timestamp) : (Engine.new (.empty now)).status.Covered [] :=
  ⟨UInt64.zero_le, fun _ hblob => nomatch hblob⟩

/-- A run within the rules leaves no blob before the watermark out. -/
theorem covered_after (events : List Event) (ht : e.Tracks h) (hc : e.status.Covered h)
    (hallows : e.AllowsAll events) :
    ∃ h', (e.after events).Tracks h' ∧ (e.after events).status.Covered h' := by
  induction events generalizing e h with
  | nil => exact ⟨h, ht, hc⟩
  | cons event events ih =>
    obtain ⟨added, ht', hchange⟩ := ht.change event
    exact ih ht' (hchange.covered hallows.1 hc) hallows.2

/-! ## What the index answers -/

theorem complete_of_caught (ht : e.Tracks h) (hcaught : e.status.Caught h) : e.Complete := by
  intro blob hblob hle block hparse
  have ha := hcaught blob hblob hle ⟨blob.location, block.header, blob.info.timestamp⟩
    (by rw [Blob.addition?, hparse])
  refine ⟨fun c hc => ⟨_, Index.answers_locations_none (ht.records.spells_channel c), ?_⟩,
    fun c topics htopics t hmem => ⟨_, Index.answers_channelsOfTopic none (ht.records.spells_topic t), ?_⟩⟩
  · rw [ht.records.locationsOf_eq]
    exact History.mem_locationsOf.2 ⟨_, ha, Dict.mem_keys_iff.1 hc, rfl⟩
  · have htags : Addition.tags ⟨blob.location, block.header, blob.info.timestamp⟩ c t = true := by
      simp only [Addition.tags, htopics, Option.any_some, List.contains_iff_mem, hmem]
    obtain ⟨time, htime⟩ := Option.isSome_iff_exists.1 (History.isSome_latest? ha htags)
    rw [← ht.records.get?_latestOf] at htime
    exact Records.mem_channelsOf.2 ⟨time, htime, rfl⟩

theorem complete_of_setUp (ht : e.Tracks h) (hok : e.setUp.1 = .ok ()) : e.setUp.2.Complete := by
  obtain ⟨added, ht', ⟨-, -, rfl, hstatus⟩ | ⟨⟨error, herror⟩, -⟩⟩ := ht.setUp
  · refine complete_of_caught ht' ?_
    rw [hstatus]
    exact caught_setUp h
  · cases hok.symm.trans herror

theorem complete_of_synchronize (ht : e.Tracks h) (hc : e.status.Covered h) {report : Task.SyncReport}
    (hok : e.synchronize.1 = .ok report) : e.synchronize.2.Complete := by
  obtain ⟨added, ht', ⟨-, -, rfl, hstatus⟩ | ⟨⟨error, herror⟩, -⟩⟩ := ht.synchronize
  · refine complete_of_caught ht' ?_
    rw [hstatus]
    exact caught_synchronize hc
  · cases hok.symm.trans herror

/-- A synchronization succeeds while nothing fails. -/
theorem Tracks.synchronize_ok (ht : e.Tracks h) (hready : e.isReady = true) (hq : e.site.Quiet) :
    ∃ report, e.synchronize.1 = .ok report := by
  obtain ⟨_, -, ⟨hok, -⟩ | ⟨-, hnot, -⟩⟩ := ht.synchronize
  · exact hok
  · exact absurd ⟨hready, hq⟩ hnot

end Engine

/-- The timer does nothing to the engine but synchronize it. -/
theorem DataService.engine_sleep (s : DataService) (ms : Nat) :
    ∃ n, (s.sleep ms).engine = s.engine.after (List.replicate n .synchronize) := by
  refine @Timer.advance_preserves _ _ synchronizeCall
    (fun e => ∃ n, e = s.engine.after (List.replicate n .synchronize)) ?_ s.timer ms _ ⟨0, rfl⟩
  -- One call of the task is one more synchronization, whatever comes of it.
  rintro _ _ ⟨n, rfl⟩
  refine ⟨n + 1, ?_⟩
  rw [List.replicate_succ', Engine.after_append]
  show (synchronizeCall () (s.engine.after (List.replicate n .synchronize))).2.2 =
    (s.engine.after (List.replicate n .synchronize)).synchronize.2
  generalize s.engine.after (List.replicate n .synchronize) = e
  simp only [synchronizeCall]
  split <;> next h => rw [h]

/-- **No blob is lost.** After any run within the rules, a set-up or a synchronization that succeeds leaves an
index that is complete up to the watermark. Passing time only adds synchronizations to the run. -/
theorem DataService.complete_after_run (events : List Event) (now : Timestamp)
    (hallows : (Engine.new (.empty now)).AllowsAll events) (s : DataService)
    (hs : s.engine = (Engine.new (.empty now)).after events) :
    (s.setUp.1 = .ok () → s.setUp.2.engine.Complete) ∧
    (∀ report, s.synchronize.1 = .ok report → s.synchronize.2.engine.Complete) ∧
    ∀ ms, ∃ n, (s.sleep ms).engine =
      (Engine.new (.empty now)).after (events ++ List.replicate n .synchronize) := by
  obtain ⟨h, ht, hc⟩ := Engine.covered_after events (Engine.tracks_new now) (Engine.covered_new now) hallows
  rw [← hs] at ht hc
  refine ⟨Engine.complete_of_setUp ht, fun report => Engine.complete_of_synchronize ht hc, fun ms => ?_⟩
  obtain ⟨n, hn⟩ := s.engine_sleep ms
  exact ⟨n, by rw [Engine.after_append, ← hs, hn]⟩

/-- A block is appended at the watermark, and the synchronization after it fails. -/
def Event.trial : List Event :=
  [.setUp, .append Block.trial.render 10, .schedule (Faults.never.next 1) .never .never, .synchronize,
    .setClock 12, .schedule .never .never .never]

/-- The next synchronization makes up for the one that failed. -/
theorem DataService.complete_after_trial :
    (Engine.new (.empty 10)).AllowsAll Event.trial ∧
      ∃ s : DataService, s.engine = (Engine.new (.empty 10)).after Event.trial ∧
        (∃ report, s.synchronize.1 = .ok report) ∧ s.synchronize.2.engine.Complete := by
  have hallows : (Engine.new (.empty 10)).AllowsAll Event.trial := by
    refine ⟨trivial, ?_, trivial, trivial, ?_, trivial, trivial⟩
    · show ((Engine.new (.empty 10)).next .setUp).watermark ≤ 10
      decide +kernel
    · show ((Engine.new (.empty 10)).after (Event.trial.take 4)).site.clock.now ≤ 12
      decide +kernel
  have hready : ((Engine.new (.empty 10)).after Event.trial).isReady = true := by decide +kernel
  obtain ⟨h, ht, -⟩ := Engine.covered_after Event.trial (Engine.tracks_new 10) (Engine.covered_new 10) hallows
  have hquiet : ((Engine.new (.empty 10)).after Event.trial).site.Quiet := by
    rw [show Event.trial = Event.trial.take 5 ++ [.schedule .never .never .never] from rfl, Engine.after_append]
    exact Engine.quiet_schedule _
  obtain ⟨report, hok⟩ := ht.synchronize_ok hready hquiet
  obtain ⟨e, he⟩ : ∃ e, e = (Engine.new (.empty 10)).after Event.trial := ⟨_, rfl⟩
  rw [← he] at hok
  let s : DataService := ⟨.standard, e, .new 0 1 0⟩
  exact ⟨hallows, s, he, ⟨report, hok⟩, (complete_after_run Event.trial 10 hallows s he).2.1 report hok⟩

end Invoicing
