import Invoicing.Proofs.Service.Clock

set_option autoImplicit false

/-! # What a restart resumes

A set-up indexes what is not older than the latest time that the index knows. So it makes up for a blob exactly if
the blob is not older than that (`DataService.lists_after_setUp`). A transaction that is stored moves the latest time
as well, past blobs that no synchronization has taken yet, and a restart passes over these. None is lost if a
transaction is stored only while the index lists all blobs that are older (`Engine.Abreast`). The invariant of such
runs is `Engine.Status.Settled`: what is older than anything in the index is in the index. -/

namespace Invoicing

/-- The history has a blob at each of its channels, if the blob is a block. -/
def History.Lists (h : History) (blob : Blob) : Prop :=
  ∀ block, Block.parse blob.content = .ok block →
    ∀ c ∈ block.header.channels.keys, blob.location ∈ h.locationsOf c

/-- The index lists a blob for each of its channels, if the blob is a block. -/
def Engine.Lists (e : Engine) (blob : Blob) : Prop :=
  ∀ block, Block.parse blob.content = .ok block → ∀ c ∈ block.header.channels.keys, ∃ found,
    (Index.locations c none).Answers e.site.index.store.records (.ok found) ∧ blob.location ∈ found

/-! ## Listed blobs -/

section

variable {h added : History} {blob : Blob} {log : BlobLog}

theorem History.Lists.append (hl : h.Lists blob) (added : History) : History.Lists (h ++ added) blob := by
  intro block hparse c hc
  obtain ⟨a, ha, hrest⟩ := History.mem_locationsOf.1 (hl block hparse c hc)
  exact History.mem_locationsOf.2 ⟨a, List.mem_append_left _ ha, hrest⟩

theorem History.lists_of_mem (hmem : ∀ a, blob.addition? = some a → a ∈ h) : h.Lists blob := by
  intro block hparse c hc
  have ha := hmem ⟨blob.location, block.header, blob.info.timestamp⟩ (by rw [Blob.addition?, hparse])
  exact History.mem_locationsOf.2 ⟨_, ha, Dict.mem_keys_iff.1 hc, rfl⟩

/-- A blob that is not listed yet is listed only if its very location is added. -/
theorem History.Lists.of_append (hl : History.Lists (h ++ added) blob)
    (hnew : ∀ a ∈ added, a.location ≠ blob.location) : h.Lists blob := by
  intro block hparse c hc
  obtain ⟨a, ha, hmentions, hlocation⟩ := History.mem_locationsOf.1 (hl block hparse c hc)
  rcases List.mem_append.1 ha with ha | ha
  · exact History.mem_locationsOf.2 ⟨a, ha, hmentions, hlocation⟩
  · exact absurd hlocation (hnew a ha)

theorem Engine.Carries.lists_iff {e : Engine} (hc : e.Carries h) : e.Lists blob ↔ h.Lists blob := by
  have hanswers (c : String) := Index.answers_locations_none (hc.records.spells_channel c)
  simp only [hc.records.locationsOf_eq] at hanswers
  refine ⟨fun hl block hparse c hmem => ?_, fun hl block hparse c hmem => ⟨_, hanswers c, hl block hparse c hmem⟩⟩
  obtain ⟨found, hfound, hlocation⟩ := hl block hparse c hmem
  cases hfound.unique (hanswers c)
  exact hlocation

/-! ## Windows -/

/-- A set-up asks for what is not older than the latest time of the history. -/
theorem BlobLog.mem_select_resume? {now : Timestamp} (hblob : blob ∈ log.blobs) (hnow : blob.info.timestamp ≤ now) :
    blob ∈ log.select (h.resume? now) ↔ ∀ last, h.lastTime? = some last → last ≤ blob.info.timestamp := by
  rw [select, List.mem_filter, History.resume?]
  cases h.lastTime? <;> simp [Window.between, Window.contains, hblob, hnow]

/-- Blobs are indexed in the order of their times, so all that is older than an indexed one is indexed. -/
theorem mem_of_prefix_additionsOf {blobs : List Blob}
    (hsorted : blobs.Pairwise fun b b' => b.info.timestamp ≤ b'.info.timestamp) (hinit : added <+: additionsOf blobs)
    (hblob : blob ∈ blobs) {a b : Addition} (ha : blob.addition? = some a) (hb : b ∈ added)
    (hlt : blob.info.timestamp < b.timestamp) : a ∈ added := by
  obtain ⟨rest, hrest⟩ := hinit
  have hmem : a ∈ added ++ rest := hrest ▸ List.mem_filterMap.2 ⟨blob, hblob, ha⟩
  have hordered : (added ++ rest).Pairwise fun b b' => b.timestamp ≤ b'.timestamp := by
    rw [hrest, List.pairwise_filterMap]
    refine hsorted.imp fun hle b hb b' hb' => ?_
    rw [(Blob.eq_of_addition? hb).2, (Blob.eq_of_addition? hb').2]
    exact hle
  refine (List.mem_append.1 hmem).resolve_right fun hlate => ?_
  have hle := (List.pairwise_append.1 hordered).2.2 b hb a hlate
  rw [(Blob.eq_of_addition? ha).2] at hle
  exact UInt64.not_lt.2 hle hlt

end

/-! ## The invariant -/

namespace Engine

/-- Does a turn store no transaction ahead of the index? When a transaction is stored, the index lists all blobs that
are older. -/
def Abreast (e : Engine) : Turn → Prop
  | .event (.persist t channel topics) =>
    ∀ receipt, (e.perform (Task.persist t channel topics)).1 = .ok receipt →
      ∀ blob ∈ e.site.storage.log.blobs, blob.info.timestamp < receipt.info.timestamp → e.Lists blob
  | _ => True

/-- What the history has is in the log; and it has what is older than the watermark, or than anything else it has. -/
structure Status.Settled (s : Status) (h : History) : Prop extends s.Chronicle where
  stored : ∀ a ∈ h, Stored s.log a
  watermark_le : s.watermark ≤ s.now
  covered : ∀ blob ∈ s.log.blobs, blob.info.timestamp < s.watermark → h.Lists blob
  older : ∀ blob ∈ s.log.blobs, ∀ a ∈ h, blob.info.timestamp < a.timestamp → h.Lists blob

variable {e : Engine} {h added : History} {s : Status} {window : Option Window}

theorem settled_new (now : Timestamp) : (Engine.new (.empty now)).status.Settled [] :=
  ⟨chronicle_new now, nofun, UInt64.zero_le, nofun, nofun⟩

namespace Status.Settled

/-- A set-up asks for all that the history does not have. -/
theorem mem_resume?_or_lists (hs : s.Settled h) {blob : Blob} (hblob : blob ∈ s.log.blobs) :
    blob ∈ s.log.select (h.resume? s.now) ∨ h.Lists blob := by
  by_cases hlate : ∀ last, h.lastTime? = some last → last ≤ blob.info.timestamp
  · exact .inl ((BlobLog.mem_select_resume? hblob (hs.le_now blob hblob)).2 hlate)
  · obtain ⟨last, hlast⟩ := not_forall.1 hlate
    obtain ⟨hlast, hlt⟩ := Classical.not_imp.1 hlast
    rw [(History.dated_of_stored hs.nodup hs.stored).lastTime?_eq] at hlast
    obtain ⟨a, ha, rfl⟩ := List.mem_map.1 (List.max?_mem hlast)
    exact .inr (hs.older blob hblob a ha (UInt64.not_le.1 hlt))

/-- A synchronization asks for all that the history does not have. -/
theorem mem_between_or_lists (hs : s.Settled h) {blob : Blob} (hblob : blob ∈ s.log.blobs) :
    blob ∈ s.log.select (some (.between s.watermark s.now)) ∨ h.Lists blob := by
  by_cases hlt : blob.info.timestamp < s.watermark
  · exact .inr (hs.covered blob hblob hlt)
  · exact .inl (BlobLog.mem_select_between hblob (UInt64.not_lt.1 hlt) (hs.le_now blob hblob))

/-- Once such a window is indexed, nothing of the log is missing. -/
theorem lists_all (hwindow : ∀ blob ∈ s.log.blobs, blob ∈ s.log.select window ∨ h.Lists blob) {blob : Blob}
    (hblob : blob ∈ s.log.blobs) : History.Lists (h ++ additionsOf (s.log.select window)) blob := by
  rcases hwindow blob hblob with hmem | hl
  · exact History.lists_of_mem fun a ha => List.mem_append_right _ (List.mem_filterMap.2 ⟨blob, hmem, ha⟩)
  · exact hl.append _

theorem finish (hs : s.Settled h) (hwindow : ∀ blob ∈ s.log.blobs, blob ∈ s.log.select window ∨ h.Lists blob)
    (isReady : Bool) :
    Settled { s with isReady, watermark := s.now } (h ++ additionsOf (s.log.select window)) where
  toChronicle := ⟨hs.nodup, hs.sorted, hs.le_now⟩
  stored a ha := by
    rcases List.mem_append.1 ha with ha | ha
    · exact hs.stored a ha
    · obtain ⟨blob, hblob, ha⟩ := BlobLog.mem_of_mem_additionsOf_select ha
      exact stored_of_addition? hblob ha
  watermark_le := UInt64.le_refl _
  covered blob hblob _ := lists_all hwindow hblob
  older blob hblob _ _ _ := lists_all hwindow hblob

/-- If only the front of such a window is indexed, then still nothing older is missing. -/
theorem breakOff (hs : s.Settled h) (hwindow : ∀ blob ∈ s.log.blobs, blob ∈ s.log.select window ∨ h.Lists blob)
    (hinit : added <+: additionsOf (s.log.select window)) : s.Settled (h ++ added) where
  toChronicle := hs.toChronicle
  stored a ha := by
    rcases List.mem_append.1 ha with ha | ha
    · exact hs.stored a ha
    · obtain ⟨blob, hblob, ha⟩ := BlobLog.mem_of_mem_additionsOf_select (hinit.subset ha)
      exact stored_of_addition? hblob ha
  watermark_le := hs.watermark_le
  covered blob hblob hlt := (hs.covered blob hblob hlt).append added
  older blob hblob a ha hlt := by
    rcases List.mem_append.1 ha with ha | ha
    · exact (hs.older blob hblob a ha hlt).append added
    · rcases hwindow blob hblob with hmem | hl
      · exact History.lists_of_mem fun b hb => List.mem_append_right _
          (mem_of_prefix_additionsOf (hs.sorted.filter _) hinit hmem hb ha hlt)
      · exact hl.append added

/-- A content is appended, and blocks are indexed that have nothing older missing. -/
theorem append (hs : s.Settled h) (content : String)
    (hstored : ∀ a ∈ h ++ added, Stored (s.log.append content s.now).2 a)
    (hadded : ∀ a ∈ added, ∀ blob ∈ s.log.blobs, blob.info.timestamp < a.timestamp → h.Lists blob) :
    Settled { s with log := (s.log.append content s.now).2 } (h ++ added) where
  toChronicle := hs.toChronicle.append content
  stored := hstored
  watermark_le := hs.watermark_le
  covered blob hblob hlt := by
    rcases BlobLog.mem_append hblob with hold | rfl
    · exact (hs.covered blob hold hlt).append added
    · exact absurd hlt (UInt64.not_lt.2 hs.watermark_le)
  older blob hblob a ha hlt := by
    rcases BlobLog.mem_append hblob with hold | rfl
    · rcases List.mem_append.1 ha with ha | ha
      · exact (hs.older blob hold a ha hlt).append added
      · exact (hadded a ha blob hold hlt).append added
    · -- Nothing is later than a content that is appended now.
      obtain ⟨later, hlater, -, htime⟩ := hstored a ha
      have hle := (hs.toChronicle.append content).le_now later hlater
      rw [htime] at hle
      exact absurd hlt (UInt64.not_lt.2 hle)

theorem restarted (hs : s.Settled h) : s.restarted.Settled h where
  toChronicle := ⟨hs.nodup, hs.sorted, hs.le_now⟩
  stored := hs.stored
  watermark_le := UInt64.zero_le
  covered _ _ hlt := absurd hlt (UInt64.not_lt.2 UInt64.zero_le)
  older := hs.older

end Status.Settled

/-- An event within the rules keeps the invariant. -/
theorem Progress.settled {event : Event} (hprogress : Progress e h event added s) (hc : e.Carries h)
    (htimely : e.Timely (.event event)) (habreast : e.Abreast (.event event)) (hs : e.status.Settled h) :
    s.Settled (h ++ added) := by
  have hgrowth := hprogress.growth
  have hchronicle := hprogress.chronicle htimely hs.toChronicle
  cases hprogress with
  | still => rwa [List.append_nil]
  | broken hwindow hinit =>
    rcases hwindow with ⟨-, rfl⟩ | ⟨-, rfl⟩
    · exact hs.breakOff (fun _ => hs.mem_resume?_or_lists) hinit
    · exact hs.breakOff (fun _ => hs.mem_between_or_lists) hinit
  | setUp hready hidle => exact hs.finish (fun _ => hs.mem_resume?_or_lists) true
  | synchronize hready => exact hs.finish (fun _ => hs.mem_between_or_lists) e.isReady
  | persist t channel topics htopics hadded =>
    refine hs.append _ (hgrowth.stored hs.stored) fun a ha blob hblob hlt => ?_
    rcases hadded with rfl | ⟨rfl, receipt, hreceipt, htime⟩
    · cases ha
    · rw [List.mem_singleton.1 ha, ← htime] at hlt
      exact hc.lists_iff.1 (habreast receipt hreceipt blob hblob hlt)
  | append content time =>
    obtain rfl := htimely
    exact hs.append content (hgrowth.stored hs.stored) fun a ha => nomatch ha
  | setClock now =>
    rw [List.append_nil]
    exact ⟨hchronicle, hs.stored, UInt64.le_trans hs.watermark_le htimely, hs.covered, hs.older⟩

theorem settled_through (turns : List Turn) (hc : e.Carries h) (hs : e.status.Settled h)
    (halong : e.Along (fun e turn => e.Timely turn ∧ e.Abreast turn) turns) :
    ∃ h', (e.through turns).Carries h' ∧ (e.through turns).status.Settled h' :=
  hc.through (fun hc hrules hprogress hs => hprogress.settled hc hrules.1 hrules.2 hs)
    (fun hs => hs.restarted) turns hs halong

/-- After any run the log uses every location once, and has what was indexed. -/
theorem stored_through (turns : List Turn) (now : Timestamp) :
    ∃ h, ((Engine.new (.empty now)).through turns).Carries h ∧
      (((Engine.new (.empty now)).through turns).site.storage.log.blobs.map (·.location)).Nodup ∧
      ∀ a ∈ h, Stored ((Engine.new (.empty now)).through turns).site.storage.log a :=
  (carries_new now).through (C := fun _ _ => True)
    (I := fun s h => (s.log.blobs.map (·.location)).Nodup ∧ ∀ a ∈ h, Stored s.log a)
    (fun _ _ hprogress hi => ⟨hprogress.growth.nodup hi.1, hprogress.growth.stored hi.2⟩) id turns
    ⟨List.nodup_nil, nofun⟩ (along_of_forall (fun _ _ => trivial) _)

/-- A set-up makes up for the blobs that are not older than the latest time of the history. -/
theorem Carries.lists_setUp_iff (hc : e.Carries h) (hnodup : (e.site.storage.log.blobs.map (·.location)).Nodup)
    (hok : e.setUp.1 = .ok ()) {blob : Blob} (hblob : blob ∈ e.site.storage.log.blobs)
    (hnow : blob.info.timestamp ≤ e.site.clock.now) :
    e.setUp.2.Lists blob ↔ e.Lists blob ∨ ∀ last, h.lastTime? = some last → last ≤ blob.info.timestamp := by
  obtain ⟨added, ht', -, ⟨-, -, -, rfl, -⟩ | ⟨⟨error, herror⟩, -⟩⟩ := hc.setUp
  · rw [ht'.carries.lists_iff, hc.lists_iff, ← BlobLog.mem_select_resume? hblob hnow]
    constructor
    · refine fun hl => or_iff_not_imp_right.2 fun hout => hl.of_append fun a ha hlocation => hout ?_
      -- The location of the blob is added for this blob alone.
      obtain ⟨found, hfound, ha⟩ := List.mem_filterMap.1 ha
      obtain rfl := BlobLog.eq_of_location hnodup (List.mem_of_mem_filter hfound) hblob
        ((Blob.eq_of_addition? ha).1.symm.trans hlocation)
      exact hfound
    · rintro (hl | hmem)
      · exact hl.append _
      · exact History.lists_of_mem fun a ha => List.mem_append_right _ (List.mem_filterMap.2 ⟨blob, hmem, ha⟩)
  · cases hok.symm.trans herror

/-- **A restart loses what a stored transaction has overtaken.** Let a blob be older than a transaction that is
stored, and let the index not list it at that time. Then a restart right after it does not list it either. -/
theorem not_lists_of_overtaken (turns : List Turn) (now : Timestamp)
    (he : e = (Engine.new (.empty now)).through turns) {t : Transaction} {channel : String} {topics : List String}
    {receipt : Receipt} (hreceipt : (e.perform (Task.persist t channel topics)).1 = .ok receipt) {blob : Blob}
    (hblob : blob ∈ e.site.storage.log.blobs) (hnow : blob.info.timestamp ≤ e.site.clock.now)
    (holder : blob.info.timestamp < receipt.info.timestamp) (hmissing : ¬ e.Lists blob) :
    let successor := (e.perform (Task.persist t channel topics)).2.restarted
    successor.setUp.1 = .ok () → ¬ successor.setUp.2.Lists blob := by
  intro successor hok
  obtain ⟨h, hc, hnodup, hstored⟩ := stored_through turns now
  rw [← he] at hc hnodup hstored
  obtain ⟨-, htopics, rfl, ht', hstatus, -⟩ := hc.persist_ok hreceipt
  have hgrowth : Growth e (.persist t channel topics) _ _ := .persist t channel topics _ htopics (.inr rfl)
  replace hnodup := hgrowth.nodup hnodup
  replace hstored := hgrowth.stored hstored
  have hlog : successor.site.storage.log = (e.site.storage.log.append
    (Block.empty.push t channel topics).render e.site.clock.now).2 := congrArg Status.log hstatus
  have hclock : successor.site.clock.now = e.site.clock.now := congrArg Status.now hstatus
  rw [← hlog] at hnodup hstored
  have hblob' : blob ∈ successor.site.storage.log.blobs := hlog ▸ BlobLog.mem_append_of_mem hblob _ _
  have hc' : successor.Carries _ := ht'.carries.restarted
  rw [hc'.lists_setUp_iff hnodup hok hblob' (hclock ▸ hnow)]
  rintro (hl | hlate)
  · -- The transaction lies elsewhere, for the log has another time for its location.
    refine hmissing (hc.lists_iff.2 ((hc'.lists_iff.1 hl).of_append fun a ha hlocation => ?_))
    obtain ⟨own, hown, hl', htime⟩ := hstored a (List.mem_append_right _ ha)
    obtain rfl := BlobLog.eq_of_location hnodup hown hblob' (hl'.trans hlocation)
    rw [List.mem_singleton.1 ha] at htime
    exact UInt64.not_lt.2 (UInt64.le_of_eq htime.symm) holder
  · have hmem : (e.site.additionFor t channel topics).timestamp ∈
        (h ++ [e.site.additionFor t channel topics]).map (·.timestamp) :=
      List.mem_map.2 ⟨_, List.mem_append_right _ List.mem_cons_self, rfl⟩
    obtain ⟨last, hlast⟩ := Option.isSome_iff_exists.1 (List.isSome_max?_of_mem hmem)
    have hle := hlate last ((History.dated_of_stored hnodup hstored).lastTime?_eq.trans hlast)
    exact UInt64.not_lt.2 (UInt64.le_trans ((List.max?_eq_some_iff.1 hlast).2 _ hmem) hle) holder

end Engine

namespace DataService

/-- **A set-up makes up for what is not older than the latest time of the index, and for nothing else.** After any
run with restarts, a blob is listed after a set-up if it was listed before or is not older than the latest time that
the index knows. In a run on one clock nothing is lost, if no transaction is stored ahead of the index. -/
theorem lists_after_setUp (turns : List Turn) (now : Timestamp) (s : DataService)
    (hs : s.engine = (Engine.new (.empty now)).through turns) (hok : s.setUp.1 = .ok ()) :
    ∃ last?, Index.lastTimestamp.Answers s.engine.site.index.store.records (.ok last?) ∧
      (∀ blob ∈ s.engine.site.storage.log.blobs, blob.info.timestamp ≤ s.engine.site.clock.now →
        (s.setUp.2.engine.Lists blob ↔
          s.engine.Lists blob ∨ ∀ last, last? = some last → last ≤ blob.info.timestamp)) ∧
      ((Engine.new (.empty now)).Along (fun e turn => e.Timely turn ∧ e.Abreast turn) turns →
        ∀ blob ∈ s.engine.site.storage.log.blobs, s.setUp.2.engine.Lists blob) := by
  obtain ⟨h, hc, hnodup, -⟩ := Engine.stored_through turns now
  rw [← hs] at hc hnodup
  have hlast := Index.answers_lastTimestamp hc.records.spells_lastTimestamp
  rw [hc.records.lastTime?_eq] at hlast
  refine ⟨_, hlast, fun blob hblob hnow => hc.lists_setUp_iff hnodup hok hblob hnow, fun halong blob hblob => ?_⟩
  obtain ⟨h, hc, hsettled⟩ := Engine.settled_through turns (Engine.carries_new now) (Engine.settled_new now) halong
  rw [← hs] at hc hsettled
  refine (hc.lists_setUp_iff hnodup hok hblob (hsettled.le_now blob hblob)).2 ?_
  rcases hsettled.mem_resume?_or_lists hblob with hmem | hl
  · exact .inr ((BlobLog.mem_select_resume? hblob (hsettled.le_now blob hblob)).1 hmem)
  · exact .inl (hc.lists_iff.2 hl)

/-- Someone else stores a block after the set-up, and a new service takes over before any synchronization. -/
def restartTrial : List Turn :=
  [.event .setUp, .event (.setClock 20), .event (.append Block.trial.render 20),
    .event (.schedule .never .never .never), .restart]

/-- The new service lists the block. -/
theorem lists_after_setUp_trial :
    ∃ s : DataService, s.engine = (Engine.new (.empty 10)).through restartTrial ∧ s.setUp.1 = .ok () ∧
      ∃ blob ∈ s.engine.site.storage.log.blobs, blob.content = Block.trial.render ∧
        s.setUp.2.engine.Lists blob := by
  obtain ⟨e₀, he₀⟩ : ∃ e₀, e₀ = (Engine.new (.empty 10)).through (restartTrial.take 2) := ⟨_, rfl⟩
  obtain ⟨e, he⟩ : ∃ e, e = (Engine.new (.empty 10)).through restartTrial := ⟨_, rfl⟩
  have hlast : e = ((e₀.next (.append Block.trial.render 20)).next (.schedule .never .never .never)).restarted := by
    rw [he, he₀]
    rfl
  obtain ⟨blob, hblob, hcontent⟩ : ∃ blob ∈ e.site.storage.log.blobs, blob.content = Block.trial.render := by
    have hempty : e₀.site.storage.log.blobs = [] := by
      rw [he₀, ← List.isEmpty_iff]
      decide +kernel
    have hlog : e.site.storage.log = (e₀.site.storage.log.append Block.trial.render 20).2 := by
      rw [hlast]
      rfl
    refine ⟨⟨ContentHash.ofText Block.trial.render, Block.trial.render, .ofTimestamp 20⟩, ?_, rfl⟩
    simp [hlog, BlobLog.append, BlobLog.find?, hempty]
  let s : DataService := ⟨.standard, e, .new 0 1 0⟩
  have hok : e.setUp.1 = .ok () := by
    obtain ⟨h, hc⟩ := Engine.carries_through restartTrial (Engine.carries_new 10)
    rw [← he] at hc
    rw [hlast] at hc ⊢
    exact (hc.setUp_ok rfl rfl (Engine.quiet_schedule _)).1
  have halong : (Engine.new (.empty 10)).Along (fun e turn => e.Timely turn ∧ e.Abreast turn) restartTrial := by
    refine ⟨⟨trivial, trivial⟩, ⟨?_, trivial⟩, ⟨rfl, trivial⟩, ⟨trivial, trivial⟩, ⟨trivial, trivial⟩, trivial⟩
    show ((Engine.new (.empty 10)).next .setUp).site.clock.now ≤ 20
    decide +kernel
  obtain ⟨last?, -, -, hall⟩ := lists_after_setUp restartTrial 10 s he hok
  exact ⟨s, he, hok, blob, hblob, hcontent, hall halong blob hblob⟩

end DataService

end Invoicing
