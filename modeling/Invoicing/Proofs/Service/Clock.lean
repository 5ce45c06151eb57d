import Invoicing.Proofs.Index.Order
import Invoicing.Proofs.Service.Restart

set_option autoImplicit false

/-! # Runs on one clock

Whoever appends a content gives it the time of the clock, and the clock does not go back (`Engine.Timely`). Then the
log is in the order of its times and holds nothing from the future (`Engine.Status.Chronicle`), and what the index
has learnt has the times of the log (`Stored`). -/

namespace Invoicing

/-! ## Times of the log -/

theorem Blob.eq_of_addition? {blob : Blob} {a : Addition} (ha : blob.addition? = some a) :
    a.location = blob.location ∧ a.timestamp = blob.info.timestamp := by
  unfold Blob.addition? at ha
  split at ha
  · cases ha
    exact ⟨rfl, rfl⟩
  · cases ha

/-- The block is in the log, under its location and with its time. -/
def Stored (log : BlobLog) (a : Addition) : Prop :=
  ∃ blob ∈ log.blobs, blob.location = a.location ∧ blob.info.timestamp = a.timestamp

theorem stored_of_addition? {log : BlobLog} {blob : Blob} (hblob : blob ∈ log.blobs) {a : Addition}
    (ha : blob.addition? = some a) : Stored log a :=
  ⟨blob, hblob, (Blob.eq_of_addition? ha).1.symm, (Blob.eq_of_addition? ha).2.symm⟩

/-- So something is found there. -/
theorem Stored.exists_find? {log : BlobLog} {a : Addition} (hstored : Stored log a) :
    ∃ blob, log.find? a.location = some blob := by
  obtain ⟨blob, hblob, hlocation, -⟩ := hstored
  rw [← Option.isSome_iff_exists, BlobLog.find?, List.find?_isSome]
  exact ⟨blob, hblob, by simp [hlocation]⟩

theorem BlobLog.eq_of_location {log : BlobLog} (hnodup : (log.blobs.map (·.location)).Nodup) {b b' : Blob}
    (hb : b ∈ log.blobs) (hb' : b' ∈ log.blobs) (hlocation : b.location = b'.location) : b = b' :=
  List.inj_on_of_nodup_map hnodup hb hb' hlocation

/-- A log that uses every location once gives every location one time. -/
theorem History.dated_of_stored {log : BlobLog} (hnodup : (log.blobs.map (·.location)).Nodup) {h : History}
    (hstored : ∀ a ∈ h, Stored log a) : h.Dated := by
  intro a ha b hb hlocation
  obtain ⟨blob, hblob, hl, ht⟩ := hstored a ha
  obtain ⟨blob', hblob', hl', ht'⟩ := hstored b hb
  obtain rfl := BlobLog.eq_of_location hnodup hblob hblob' (by rw [hl, hl', hlocation])
  exact ht.symm.trans ht'

namespace Engine

variable {e : Engine} {h added : History} {event : Event}

theorem Growth.stored {log : BlobLog} (hgrowth : Growth e event added log)
    (hstored : ∀ a ∈ h, Stored e.site.storage.log a) : ∀ a ∈ h ++ added, Stored log a := by
  refine hgrowth.forall_mem (R := Stored) (fun content time a ha => ?_)
    (fun blob hblob a ha => stored_of_addition? hblob ha) ?_ hstored
  · obtain ⟨blob, hblob, hrest⟩ := ha
    exact ⟨blob, BlobLog.mem_append_of_mem hblob content time, hrest⟩
  · rintro t channel topics rfl - -
    obtain ⟨blob, hblob, hlocation, hinfo⟩ := BlobLog.exists_append_self e.site.storage.log
      (Block.empty.push t channel topics).render e.site.clock.now
    exact ⟨blob, hblob, hlocation, congrArg StorageMeta.timestamp hinfo⟩

theorem Growth.nodup {log : BlobLog} (hgrowth : Growth e event added log)
    (hnodup : (e.site.storage.log.blobs.map (·.location)).Nodup) : (log.blobs.map (·.location)).Nodup := by
  cases hgrowth with
  | index => exact hnodup
  | persist => exact BlobLog.nodup_append hnodup _ _
  | append => exact BlobLog.nodup_append hnodup _ _

/-! ## The rules -/

/-- Does a turn keep to the clock? Whoever appends a content uses its time, and it does not go back. -/
def Timely (e : Engine) : Turn → Prop
  | .event (.append _ time) => time = e.site.clock.now
  | .event (.setClock now) => e.site.clock.now ≤ now
  | _ => True

/-- The log uses every location once, its blobs are in the order of their times, and none of them is later than the
present. -/
structure Status.Chronicle (s : Status) : Prop where
  nodup : (s.log.blobs.map (·.location)).Nodup
  sorted : s.log.blobs.Pairwise fun b b' => b.info.timestamp ≤ b'.info.timestamp
  le_now : ∀ blob ∈ s.log.blobs, blob.info.timestamp ≤ s.now

theorem chronicle_new (now : Timestamp) : (Engine.new (.empty now)).status.Chronicle :=
  ⟨List.nodup_nil, .nil, nofun⟩

theorem Status.Chronicle.append {s : Status} (hc : s.Chronicle) (content : String) :
    Status.Chronicle { s with log := (s.log.append content s.now).2 } where
  nodup := BlobLog.nodup_append hc.nodup content s.now
  sorted := by
    simp only [BlobLog.append]
    split
    · exact hc.sorted
    · rw [List.pairwise_append]
      refine ⟨hc.sorted, List.pairwise_singleton _ _, fun blob hblob last hlast => ?_⟩
      rw [List.mem_singleton.1 hlast]
      exact hc.le_now blob hblob
  le_now blob hblob := by
    rcases BlobLog.mem_append hblob with hold | rfl
    · exact hc.le_now blob hold
    · exact UInt64.le_refl _

/-- An event that keeps to the clock keeps the log in order. -/
theorem Progress.chronicle {s : Status} (hprogress : Progress e h event added s)
    (htimely : e.Timely (.event event)) (hc : e.status.Chronicle) : s.Chronicle := by
  cases hprogress with
  | still => exact hc
  | broken => exact hc
  | setUp => exact ⟨hc.nodup, hc.sorted, hc.le_now⟩
  | synchronize => exact ⟨hc.nodup, hc.sorted, hc.le_now⟩
  | persist t channel topics => exact hc.append _
  | append content time =>
    obtain rfl := htimely
    exact hc.append content
  | setClock now =>
    exact ⟨hc.nodup, hc.sorted, fun blob hblob => UInt64.le_trans (hc.le_now blob hblob) htimely⟩

end Engine

end Invoicing
