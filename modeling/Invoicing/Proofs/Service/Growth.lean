import Invoicing.Proofs.Service.Run

set_option autoImplicit false

/-! # How log and history grow

An event indexes blobs of the log, stores a transaction or lets someone else append a content: `Engine.Growth` is all
that it can do to log and history. So a fact about indexed blocks holds along a run if it survives appends and if
it holds of blobs and of stored transactions (`Engine.Growth.forall_mem`). -/

namespace Invoicing

namespace Engine

/-- What an event can do to the log and to the history of an index. -/
inductive Growth (e : Engine) : Event → History → BlobLog → Prop where
  /-- Some blobs of the log are indexed, or nothing happens. -/
  | index (event : Event) (added : History)
      (hadded : ∀ a ∈ added, ∃ blob ∈ e.site.storage.log.blobs, blob.addition? = some a) :
      Growth e event added e.site.storage.log
  | persist (t : Transaction) (channel : String) (topics : List String) (added : History)
      (htopics : Task.checkTopics topics = .ok ())
      (hadded : added = [] ∨ added = [e.site.additionFor t channel topics]) :
      Growth e (.persist t channel topics) added
        (e.site.storage.log.append (Block.empty.push t channel topics).render e.site.clock.now).2
  | append (content : String) (time : Timestamp) :
      Growth e (.append content time) [] (e.site.storage.log.append content time).2

variable {e : Engine} {h : History} {event : Event} {added : History} {s : Status} {log : BlobLog}

theorem Change.growth (hchange : Change e event added s) : Growth e event added s.log := by
  cases hchange with
  | still event added hadded => exact .index event added hadded
  | setUp _ => exact .index .setUp _ fun a ha => List.mem_filterMap.1 ha
  | synchronize _ => exact .index .synchronize _ fun a ha => BlobLog.mem_of_mem_additionsOf_select ha
  | persist t channel topics added htopics hadded => exact .persist t channel topics added htopics hadded
  | append content time => exact .append content time
  | setClock now => exact .index (.setClock now) [] (by simp)

theorem Progress.growth (hprogress : Progress e h event added s) : Growth e event added s.log := by
  cases hprogress with
  | still => exact .index event [] (by simp)
  | broken _ hinit =>
    exact .index event added fun a ha => BlobLog.mem_of_mem_additionsOf_select (hinit.subset ha)
  | setUp _ _ => exact .index .setUp _ fun a ha => BlobLog.mem_of_mem_additionsOf_select ha
  | synchronize _ => exact .index .synchronize _ fun a ha => BlobLog.mem_of_mem_additionsOf_select ha
  | persist t channel topics htopics hadded =>
    exact .persist t channel topics added htopics (hadded.imp_right And.left)
  | append content time => exact .append content time
  | setClock now => exact .index (.setClock now) [] (by simp)

/-- What holds of the blobs and of every block that is stored, and survives appends, holds of all that is indexed. -/
theorem Growth.forall_mem {R : BlobLog → Addition → Prop} (hgrowth : Growth e event added log)
    (hkeep : ∀ content time a, R e.site.storage.log a → R (e.site.storage.log.append content time).2 a)
    (hblob : ∀ blob ∈ e.site.storage.log.blobs, ∀ a, blob.addition? = some a → R e.site.storage.log a)
    (hstored : ∀ t channel topics, event = .persist t channel topics → Task.checkTopics topics = .ok () →
      added = [e.site.additionFor t channel topics] →
      R (e.site.storage.log.append (Block.empty.push t channel topics).render e.site.clock.now).2
        (e.site.additionFor t channel topics))
    (hold : ∀ a ∈ h, R e.site.storage.log a) : ∀ a ∈ h ++ added, R log a := by
  intro a ha
  cases hgrowth with
  | index event added hadded =>
    rcases List.mem_append.1 ha with ha | ha
    · exact hold a ha
    · obtain ⟨blob, hblob', haddition⟩ := hadded a ha
      exact hblob blob hblob' a haddition
  | persist t channel topics added htopics hadded =>
    rcases List.mem_append.1 ha with ha | ha
    · exact hkeep _ _ a (hold a ha)
    · rcases hadded with rfl | rfl
      · cases ha
      · rw [List.mem_singleton.1 ha]
        exact hstored t channel topics rfl htopics rfl
  | append content time => exact hkeep content time a (hold a (by simpa using ha))

end Engine

end Invoicing
