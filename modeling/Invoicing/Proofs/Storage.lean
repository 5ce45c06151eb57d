import Invoicing.Storage.Node
import Mathlib.Data.List.Nodup

set_option autoImplicit false

/-! # The log and its node

What is appended to the log is found there again under the hash of its content (`BlobLog.find?_append_self`), as long
as contents with the same hash are the same (`CollisionFree`). A node without a script answers from its log. -/

namespace Invoicing

/-- Different contents have different hashes. -/
def CollisionFree (contents : List String) : Prop :=
  ∀ x ∈ contents, ∀ y ∈ contents, ContentHash.ofText x = ContentHash.ofText y → x = y

namespace BlobLog

variable {log : BlobLog} {contents : List String}

theorem select_none (log : BlobLog) : log.select none = log.blobs :=
  List.filter_eq_self.2 fun _ _ => rfl

theorem mem_select_between {lower upper : Timestamp} {blob : Blob} (hblob : blob ∈ log.blobs)
    (hlower : lower ≤ blob.info.timestamp) (hupper : blob.info.timestamp ≤ upper) :
    blob ∈ log.select (some (.between lower upper)) := by
  rw [select, List.mem_filter]
  simp [Window.between, Window.contains, hblob, hlower, hupper]

/-! ## Appending -/

section Append

variable (log) (content : String) (time : Timestamp)

/-- The answer to an append tells the first meta data at its location. -/
theorem fst_append :
    (log.append content time).1 =
      ⟨ContentHash.ofText content,
        ((log.find? (ContentHash.ofText content)).map (·.info)).getD (.ofTimestamp time)⟩ := by
  cases hfind : log.find? (ContentHash.ofText content) <;> simp [append, hfind]

/-- An append adds a blob at the end if its location is new, and nothing otherwise. -/
theorem blobs_append :
    (log.append content time).2.blobs =
      if (log.find? (ContentHash.ofText content)).isSome then log.blobs
      else log.blobs ++ [⟨ContentHash.ofText content, content, .ofTimestamp time⟩] := by
  cases hfind : log.find? (ContentHash.ofText content) <;> simp [append, hfind]

theorem find?_append (location : String) :
    (log.append content time).2.find? location =
      (log.find? location).or
        (if ContentHash.ofText content = location then some ⟨location, content, .ofTimestamp time⟩ else none) := by
  rw [find?, blobs_append]
  by_cases hlocation : ContentHash.ofText content = location
  · subst hlocation
    cases hfind : log.find? (ContentHash.ofText content) with
    | some blob => rw [Option.isSome_some, if_pos rfl, ← find?, hfind, Option.some_or]
    | none =>
      rw [Option.isSome_none, if_neg Bool.false_ne_true, List.find?_append, ← find?, hfind]
      simp
  · rw [if_neg hlocation, Option.or_none]
    split
    · rw [find?]
    · rw [List.find?_append, ← find?]
      simp [hlocation]

/-- An append leaves the blobs that are there where they are. -/
theorem prefix_append : log.blobs <+: (log.append content time).2.blobs := by
  rw [blobs_append]
  split
  · exact List.prefix_rfl
  · exact List.prefix_append _ _

end Append

theorem mem_append {log : BlobLog} {content : String} {time : Timestamp} {blob : Blob}
    (h : blob ∈ (log.append content time).2.blobs) :
    blob ∈ log.blobs ∨ blob = ⟨ContentHash.ofText content, content, .ofTimestamp time⟩ := by
  rw [blobs_append] at h
  split at h
  · exact .inl h
  · simpa using h

theorem find?_append_of_find? {location : String} {blob : Blob} (hfind : log.find? location = some blob)
    (content : String) (time : Timestamp) : (log.append content time).2.find? location = some blob := by
  rw [find?_append, hfind, Option.some_or]

theorem mem_append_of_mem {blob : Blob} (hblob : blob ∈ log.blobs) (content : String) (time : Timestamp) :
    blob ∈ (log.append content time).2.blobs :=
  (prefix_append log content time).subset hblob

/-- The log uses every location once. -/
theorem nodup_append (hnodup : (log.blobs.map (·.location)).Nodup) (content : String) (time : Timestamp) :
    ((log.append content time).2.blobs.map (·.location)).Nodup := by
  rw [blobs_append]
  split
  · exact hnodup
  · next hfind =>
    rw [Option.not_isSome_iff_eq_none, find?, List.find?_eq_none] at hfind
    rw [List.map_append, List.nodup_append]
    refine ⟨hnodup, List.nodup_singleton _, fun l hl l' hl' heq => ?_⟩
    obtain ⟨blob, hblob, rfl⟩ := List.mem_map.1 hl
    exact hfind blob hblob (by simpa using heq.trans (List.mem_singleton.1 hl'))

/-- What was appended is in the log, with the meta data of the answer. -/
theorem exists_append_self (log : BlobLog) (content : String) (time : Timestamp) :
    ∃ blob ∈ (log.append content time).2.blobs, blob.location = (log.append content time).1.location ∧
      blob.info = (log.append content time).1.info := by
  have hfound := find?_append log content time (ContentHash.ofText content)
  rw [if_pos rfl] at hfound
  rw [fst_append]
  cases hfind : log.find? (ContentHash.ofText content) with
  | some blob =>
    rw [hfind, Option.some_or] at hfound
    exact ⟨blob, List.mem_of_find?_eq_some hfound, by simpa using List.find?_some hfind, rfl⟩
  | none =>
    rw [hfind, Option.none_or] at hfound
    exact ⟨_, List.mem_of_find?_eq_some hfound, rfl, rfl⟩

/-- The blob under a location is one with the content that was put there. -/
theorem find?_of_mem (hlog : ∀ blob ∈ log.blobs, blob.location = ContentHash.ofText blob.content)
    (hcontents : ∀ blob ∈ log.blobs, blob.content ∈ contents) (hfree : CollisionFree contents) {blob : Blob}
    (hblob : blob ∈ log.blobs) : ∃ found, log.find? blob.location = some found ∧ found.content = blob.content := by
  have hsome : (log.find? blob.location).isSome := by
    rw [find?, List.find?_isSome]
    exact ⟨blob, hblob, by simp⟩
  obtain ⟨found, hfound⟩ := Option.isSome_iff_exists.1 hsome
  have hmem : found ∈ log.blobs := List.mem_of_find?_eq_some hfound
  have hlocation : found.location = blob.location := by simpa using List.find?_some hfound
  rw [hlog found hmem, hlog blob hblob] at hlocation
  exact ⟨found, hfound, hfree _ (hcontents found hmem) _ (hcontents blob hblob) hlocation⟩

/-- What was appended is found under the location of the answer, with its content and its meta data. -/
theorem find?_append_self (hlog : ∀ blob ∈ log.blobs, blob.location = ContentHash.ofText blob.content)
    (hcontents : ∀ blob ∈ log.blobs, blob.content ∈ contents) (hfree : CollisionFree contents)
    {content : String} (hcontent : content ∈ contents) (time : Timestamp) :
    let stored := log.append content time
    stored.1.location = ContentHash.ofText content ∧
      ∃ blob, stored.2.find? stored.1.location = some blob ∧ blob.content = content ∧
        blob.info = stored.1.info := by
  intro stored
  have hanswer : stored.1 = _ := fst_append log content time
  rw [hanswer]
  refine ⟨rfl, ?_⟩
  rw [find?_append, if_pos rfl]
  cases hfind : log.find? (ContentHash.ofText content) with
  | some blob =>
    have hmem : blob ∈ log.blobs := List.mem_of_find?_eq_some hfind
    have hlocation : blob.location = ContentHash.ofText content := by simpa using List.find?_some hfind
    rw [hlog blob hmem] at hlocation
    exact ⟨blob, rfl, hfree _ (hcontents blob hmem) _ hcontent hlocation, rfl⟩
  | none => exact ⟨_, rfl, rfl, rfl⟩

end BlobLog

namespace StorageNode

theorem data_unscripted {node : StorageNode} (hscript : node.script = .empty)
    (window : Option Window) (now : Timestamp) :
    (node.data window now).2.log = node.log ∧ (node.data window now).2.script = .empty ∧
      ((node.data window now).1 = .ok (node.log.data window now) ∨
        (∃ e, (node.data window now).1 = .error e) ∧ ¬ node.faults.Quiet) := by
  obtain ⟨log, faults, script, journal⟩ := node
  subst hscript
  simp only [data, Script.empty, Bool.false_eq_true, if_false]
  split
  · next hfail =>
    refine ⟨rfl, rfl, .inr ⟨⟨_, rfl⟩, fun hq => ?_⟩⟩
    rw [hq.failing] at hfail
    cases hfail
  · exact ⟨rfl, rfl, .inl rfl⟩

theorem read_unscripted {node : StorageNode} (hscript : node.script = .empty) (location : String) :
    node.read location =
      (node.log.read location, { node with journal.reads := node.journal.reads ++ [location] }) := by
  obtain ⟨log, faults, script, journal⟩ := node
  subst hscript
  rfl

theorem append_unscripted {node : StorageNode} (hscript : node.script = .empty)
    (content : String) (now : Timestamp) :
    node.append content now =
      (.ok (node.log.append content now).1, { node with log := (node.log.append content now).2 }) := by
  obtain ⟨log, faults, script, journal⟩ := node
  subst hscript
  rfl

end StorageNode

end Invoicing
