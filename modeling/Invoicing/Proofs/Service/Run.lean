import Invoicing.Proofs.Service.Task
import Invoicing.Proofs.Storage

set_option autoImplicit false

/-! # Runs of the service

What can happen to an engine is an `Event`, and a run is a list of them. `Engine.Tracks e h` says that the index
of the engine holds the history `h`; each event appends to this history, and `Engine.Change` lists all the ways in
which it can do so (`Engine.Tracks.change`). Invariants of runs are derived from these ways alone. -/

namespace Invoicing

/-- What can happen to an engine: its operations, and what others do to its site. -/
inductive Event where
  | setUp
  | synchronize
  | persist (t : Transaction) (channel : String) (topics : List String)
  | readChannel (channel : String) (window : Option Window)
  | readTopics (topics : List String) (window : Option Window)
  /-- Someone else appends a content with a time of their own. -/
  | append (content : String) (time : Timestamp)
  | setClock (now : Timestamp)
  /-- From now on the queries for data, and the reads and writes of the index, fail as schedules say. -/
  | schedule (data reads writes : Faults)

namespace Engine

/-- The engine after an event. -/
def next (e : Engine) : Event → Engine
  | .setUp => e.setUp.2
  | .synchronize => e.synchronize.2
  | .persist t channel topics => (e.perform (Task.persist t channel topics)).2
  | .readChannel channel window => (e.perform (Task.channelEntries channel window)).2
  | .readTopics topics window => (e.perform (Task.topicsEntries topics window)).2
  | .append content time => { e with site.storage := (e.site.storage.store content time).2 }
  | .setClock now => { e with site.clock := e.site.clock.set now }
  | .schedule data reads writes =>
    { e with
      site.storage.faults := data
      site.index.store.reading := reads
      site.index.store.writing := writes }

/-- The engine after some events. -/
def after (e : Engine) (events : List Event) : Engine := events.foldl next e

@[simp] theorem after_nil (e : Engine) : e.after [] = e := rfl

@[simp] theorem after_cons (e : Engine) (event : Event) (events : List Event) :
    e.after (event :: events) = (e.next event).after events := rfl

theorem after_append (e : Engine) (events more : List Event) :
    e.after (events ++ more) = (e.after events).after more := List.foldl_append

end Engine

/-- No query for data and no call to the index fails from now on. -/
def Site.Quiet (site : Site) : Prop := site.storage.faults.Quiet ∧ site.index.store.Quiet

theorem Engine.quiet_schedule (e : Engine) : (e.next (.schedule .never .never .never)).site.Quiet :=
  ⟨Faults.quiet_never, Faults.quiet_never, Faults.quiet_never⟩

/-! ## What an event does -/

/-- What the index learns from a blob, if the blob is a block. -/
def Blob.addition? (blob : Blob) : Option Addition :=
  match Block.parse blob.content with
  | .ok block => some ⟨blob.location, block.header, blob.info.timestamp⟩
  | .error _ => none

/-- What some blobs add to the index. -/
abbrev additionsOf (blobs : List Blob) : History := blobs.filterMap Blob.addition?

/-- The window that a set-up asks for: all that is not older than the latest time of the history. -/
def History.resume? (h : History) (now : Timestamp) : Option Window :=
  h.lastTime?.map fun last => .between last now

/-- The part of an engine that says what is to be indexed. -/
structure Engine.Status where
  isReady : Bool
  watermark : Timestamp
  now : Timestamp
  log : BlobLog

/-- What the index learns when a transaction is stored. -/
def Site.additionFor (site : Site) (t : Transaction) (channel : String) (topics : List String) : Addition :=
  let block := Block.empty.push t channel topics
  let stored := (site.storage.log.append block.render site.clock.now).1
  ⟨stored.location, block.header, stored.info.timestamp⟩

namespace Engine

def status (e : Engine) : Status := ⟨e.isReady, e.watermark, e.site.clock.now, e.site.storage.log⟩

/-- The ways in which an event can add to the index and change the status. -/
inductive Change (e : Engine) : Event → History → Status → Prop where
  /-- Some blobs of the log are indexed again or for the first time, and all else stays. -/
  | still (event : Event) (added : History)
      (hadded : ∀ a ∈ added, ∃ blob ∈ e.site.storage.log.blobs, blob.addition? = some a) :
      Change e event added e.status
  | setUp (hready : e.isReady = false) :
      Change e .setUp (additionsOf e.site.storage.log.blobs)
        { e.status with isReady := true, watermark := e.site.clock.now }
  | synchronize (hready : e.isReady = true) :
      Change e .synchronize
        (additionsOf (e.site.storage.log.select (some (.between e.watermark e.site.clock.now))))
        { e.status with watermark := e.site.clock.now }
  /-- A transaction is stored, and its block is indexed unless the index fails. -/
  | persist (t : Transaction) (channel : String) (topics : List String) (added : History)
      (htopics : Task.checkTopics topics = .ok ())
      (hadded : added = [] ∨ added = [e.site.additionFor t channel topics]) :
      Change e (.persist t channel topics) added
        { e.status with log :=
          (e.site.storage.log.append (Block.empty.push t channel topics).render e.site.clock.now).2 }
  | append (content : String) (time : Timestamp) :
      Change e (.append content time) []
        { e.status with log := (e.site.storage.log.append content time).2 }
  | setClock (now : Timestamp) : Change e (.setClock now) [] { e.status with now }

/-- What an event adds to an index that holds `h` and how it changes the status, with the order in which blobs are
indexed. -/
inductive Progress (e : Engine) (h : History) : Event → History → Status → Prop where
  | still (event : Event) : Progress e h event [] e.status
  /-- A set-up or a synchronization fails, and some blobs from the front of its window are indexed. -/
  | broken {event : Event} {window : Option Window} {added : History}
      (hwindow : event = .setUp ∧ window = h.resume? e.site.clock.now ∨
        event = .synchronize ∧ window = some (.between e.watermark e.site.clock.now))
      (hinit : added <+: additionsOf (e.site.storage.log.select window)) :
      Progress e h event added e.status
  | setUp (hready : e.isReady = false) (hidle : e.site.index.isReady = false) :
      Progress e h .setUp (additionsOf (e.site.storage.log.select (h.resume? e.site.clock.now)))
        { e.status with isReady := true, watermark := e.site.clock.now }
  | synchronize (hready : e.isReady = true) :
      Progress e h .synchronize
        (additionsOf (e.site.storage.log.select (some (.between e.watermark e.site.clock.now))))
        { e.status with watermark := e.site.clock.now }
  | persist (t : Transaction) (channel : String) (topics : List String) {added : History}
      (htopics : Task.checkTopics topics = .ok ())
      (hadded : added = [] ∨ added = [e.site.additionFor t channel topics] ∧
        ∃ receipt, (e.perform (Task.persist t channel topics)).1 = .ok receipt ∧
          receipt.info.timestamp = (e.site.additionFor t channel topics).timestamp) :
      Progress e h (.persist t channel topics) added
        { e.status with log :=
          (e.site.storage.log.append (Block.empty.push t channel topics).render e.site.clock.now).2 }
  | append (content : String) (time : Timestamp) :
      Progress e h (.append content time) []
        { e.status with log := (e.site.storage.log.append content time).2 }
  | setClock (now : Timestamp) : Progress e h (.setClock now) [] { e.status with now }

/-- The engine works on the clock of its site and on an unscripted storage, and the records of its index hold a
history, which may be older than the engine and its index. -/
structure Carries (e : Engine) (h : History) : Prop where
  script : e.site.storage.script = .empty
  ownTime : e.site.ownTime = none
  records : e.site.index.store.records.Hold h
  ready : e.isReady = true → e.site.index.isReady = true

/-- The engine works on the clock of its site and on an unscripted storage, and its index holds a history. -/
structure Tracks (e : Engine) (h : History) : Prop where
  script : e.site.storage.script = .empty
  ownTime : e.site.ownTime = none
  records : e.site.index.store.records.Hold h
  ready : e.isReady = true → e.site.index.isReady = true
  fresh : e.site.index.isReady = false → h = []

theorem Carries.serviceTime_eq {e : Engine} {h : History} (hc : e.Carries h) :
    e.site.serviceTime = e.site.clock.now := by
  rw [Site.serviceTime, hc.ownTime, Option.getD_none]

theorem tracks_new (now : Timestamp) : (Engine.new (.empty now)).Tracks [] :=
  ⟨rfl, rfl, Records.hold_empty, nofun, fun _ => rfl⟩

theorem Tracks.carries {e : Engine} {h : History} (ht : e.Tracks h) : e.Carries h :=
  ⟨ht.script, ht.ownTime, ht.records, ht.ready⟩

/-- Once its index is set up, it makes no difference how old the history is. -/
theorem Carries.tracks {e : Engine} {h : History} (hc : e.Carries h) (hindex : e.site.index.isReady = true) :
    e.Tracks h :=
  ⟨hc.script, hc.ownTime, hc.records, hc.ready, fun hidle => nomatch hindex.symm.trans hidle⟩

end Engine

/-! ## What a task does -/

/-- Only the index, counters and journals have changed from `site` to `site'`; the index has learnt `added`. -/
structure Site.Learns (site site' : Site) (h added : History) : Prop where
  log : site'.storage.log = site.storage.log
  script : site'.storage.script = site.storage.script
  clock : site'.clock = site.clock
  ownTime : site'.ownTime = site.ownTime
  indexReady : site'.index.isReady = site.index.isReady
  records : site'.index.store.records.Hold (h ++ added)
  quiet : site.index.store.Quiet → site'.index.store.Quiet

theorem Store.ReadOnly.store_quiet {s s' : Store} (hro : s.ReadOnly s') (hq : s.Quiet) : s'.Quiet :=
  ⟨hro.quiet hq.reading, hro.writing ▸ hq.writing⟩

theorem Site.ReadOnly.learns {site site' : Site} {h : History} (hro : site.ReadOnly site')
    (hold : site.index.store.records.Hold h) : site.Learns site' h [] := by
  refine ⟨hro.log, hro.script, hro.clock, hro.ownTime, hro.indexReady, ?_, hro.store.store_quiet⟩
  rw [hro.store.records, List.append_nil]
  exact hold

theorem Site.Learns.trans {site site' site'' : Site} {h added more : History}
    (h₁ : site.Learns site' h added) (h₂ : site'.Learns site'' (h ++ added) more) :
    site.Learns site'' h (added ++ more) := by
  refine ⟨h₂.log.trans h₁.log, h₂.script.trans h₁.script, h₂.clock.trans h₁.clock,
    h₂.ownTime.trans h₁.ownTime, h₂.indexReady.trans h₁.indexReady, ?_, fun hq => h₂.quiet (h₁.quiet hq)⟩
  rw [← List.append_assoc]
  exact h₂.records

namespace Task

variable {site : Site} {h : History}

/-- A block is added as a whole or not at all. -/
theorem run_add (hold : site.index.store.records.Hold h) (a : Addition) :
    let out := (ofIndex (.add a.location a.header a.timestamp)).run site
    out.1 = .ok () ∧ site.Learns out.2 h [a] ∨
      (∃ e, out.1 = .error e) ∧ ¬ site.index.store.Quiet ∧ site.Learns out.2 h [] := by
  intro out
  have hout : out = (((Index.add a.location a.header a.timestamp).run.run site.index.store).1.mapError .index,
      { site with index.store := ((Index.add a.location a.header a.timestamp).run.run site.index.store).2 }) :=
    run_ofIndex _ site
  rw [hout]
  obtain ⟨hq, ⟨hok, hrec⟩ | ⟨hnq, ⟨f, hf⟩, hrec⟩⟩ :=
    Index.run_add (hold.readableFor a.location a.header) a.timestamp
  · refine .inl ⟨by rw [hok]; rfl, rfl, rfl, rfl, rfl, rfl, ?_, hq⟩
    rw [hrec]
    exact hold.write_batchFor a
  · refine .inr ⟨⟨.index (.store f), by rw [hf]; rfl⟩, hnq, rfl, rfl, rfl, rfl, rfl, ?_, hq⟩
    rw [hrec, List.append_nil]
    exact hold

/-- Blobs are indexed one by one, until the index fails. -/
theorem run_indexBlobs (hold : site.index.store.records.Hold h) (report : SyncReport) (blobs : List Blob) :
    let out := (indexBlobs report blobs).run site
    ∃ added, site.Learns out.2 h added ∧ added <+: additionsOf blobs ∧
      ((∃ r, out.1 = .ok r) ∧ added = additionsOf blobs ∨
        (∃ e, out.1 = .error e) ∧ ¬ site.index.store.Quiet) := by
  induction blobs generalizing site h report with
  | nil => exact ⟨[], (Site.ReadOnly.refl site).learns hold, List.prefix_rfl, .inl ⟨⟨report, rfl⟩, rfl⟩⟩
  | cons blob blobs ih =>
    rw [indexBlobs, additionsOf]
    cases hparse : Block.parse blob.content with
    | error e =>
      rw [List.filterMap_cons_none (by rw [Blob.addition?, hparse])]
      exact ih hold _
    | ok block =>
      rw [List.filterMap_cons_some (by rw [Blob.addition?, hparse])]
      rcases run_add hold ⟨blob.location, block.header, blob.info.timestamp⟩ with
        ⟨hok, hadd⟩ | ⟨⟨e, he⟩, hnq, hadd⟩
      · obtain ⟨added, hlearns, hinit, hres⟩ := ih hadd.records { report with indexed := report.indexed + 1 }
        simp only [run_bind_ok hok]
        refine ⟨_ :: added, hadd.trans hlearns, (List.prefix_cons_inj _).2 hinit, ?_⟩
        exact hres.imp (fun ⟨hr, hall⟩ => ⟨hr, congrArg _ hall⟩)
          fun ⟨he, hnq⟩ => ⟨he, fun hq => hnq (hadd.quiet hq)⟩
      · simp only [run_bind_error he]
        exact ⟨[], hadd, List.nil_prefix, .inr ⟨⟨e, rfl⟩, hnq⟩⟩

/-- The three lists of an answer fit together again. -/
theorem blobsOf_data (log : BlobLog) (window : Option Window) (now : Timestamp) :
    blobsOf (log.data window now) = .ok (log.select window) := by
  have hzip (blobs : List Blob) : (((blobs.map (·.content)).zip (blobs.map (·.location))).zip
      (blobs.map (·.info))).map (fun e => Blob.mk e.1.2 e.1.1 e.2) = blobs := by
    induction blobs with
    | nil => rfl
    | cons blob blobs ih => exact congrArg (blob :: ·) ih
  simp only [blobsOf, BlobLog.data, List.length_map, and_self, if_true]
  exact congrArg Except.ok (hzip _)

/-- The blobs of a window are indexed, and if none is left out the answer says how far they reach. -/
theorem run_catchUp (hscript : site.storage.script = .empty) (hold : site.index.store.records.Hold h)
    (window : Option Window) :
    let blobs := site.storage.log.select window
    let out := (catchUp window).run site
    ∃ added, site.Learns out.2 h added ∧ added <+: additionsOf blobs ∧
      ((∃ r, out.1 = .ok (r, (window.bind (·.upper)).getD site.clock.now)) ∧ added = additionsOf blobs ∨
        (∃ e, out.1 = .error e) ∧ ¬ site.Quiet) := by
  intro blobs out
  obtain ⟨hlog, hscript', hanswer⟩ := StorageNode.data_unscripted hscript window site.clock.now
  generalize hnode : site.storage.data window site.clock.now = answer at hlog hscript' hanswer
  obtain ⟨result, node⟩ := answer
  have hdata : (ofStorage (.data window)).run site =
      (result.mapError .storage, { site with storage := node }) := by
    have hcall : (Call.data window).run site = (result, { site with storage := node }) := by
      simp only [Call.run, Call.onStorage, hnode]
    rw [run_ofStorage, hcall]
  have hlearns : site.Learns { site with storage := node } h [] :=
    ⟨hlog, hscript'.trans hscript.symm, rfl, rfl, rfl, by simpa using hold, id⟩
  rcases hanswer with hok | ⟨⟨e, he⟩, hnq⟩
  · replace hok : result = .ok (site.storage.log.data window site.clock.now) := hok
    subst hok
    obtain ⟨added, hmore, hinit, hres⟩ := @run_indexBlobs { site with storage := node } h hold ⟨0, 0⟩ blobs
    have htotal := hlearns.trans (by simpa using hmore)
    have hindex : (indexData (site.storage.log.data window site.clock.now)).run
        { site with storage := node } = (indexBlobs ⟨0, 0⟩ blobs).run { site with storage := node } := by
      rw [indexData, blobsOf_data]
      rfl
    have hout : out = (indexData (site.storage.log.data window site.clock.now) >>= fun report =>
        pure (report, (window.bind (·.upper)).getD site.clock.now)).run { site with storage := node } := by
      show (catchUp window).run site = _
      rw [catchUp, run_bind, hdata]
      rfl
    rcases hres with ⟨⟨report, hr⟩, hall⟩ | ⟨⟨e, he⟩, hnq⟩
    · rw [hout, run_bind_ok (hindex ▸ hr), hindex]
      exact ⟨added, htotal, hinit, .inl ⟨⟨report, rfl⟩, hall⟩⟩
    · rw [hout, run_bind_error (hindex ▸ he), hindex]
      exact ⟨added, htotal, hinit, .inr ⟨⟨e, rfl⟩, fun hq => hnq hq.2⟩⟩
  · replace he : result = .error e := he
    subst he
    have hout : out = (.error (.storage e), { site with storage := node }) := by
      show (catchUp window).run site = _
      rw [catchUp, run_bind, hdata]
      rfl
    rw [hout]
    exact ⟨[], hlearns, List.nil_prefix, .inr ⟨⟨_, rfl⟩, fun hq => hnq hq.1⟩⟩

/-- The index is set up once. -/
theorem run_setUpIndex (site : Site) :
    (ofIndex .setUpIndex).run site =
      if site.index.isReady then (.error (.index .alreadyReady), site)
      else (.ok (), { site with index.isReady := true }) := by
  rw [run_ofIndex]
  simp only [Call.run, Call.onIndex, Index.setUp]
  split <;> rfl

theorem run_setUpStorage (hscript : site.storage.script = .empty) :
    (ofStorage .setUpStorage).run site = (.ok (), site) := by
  rw [run_ofStorage]
  simp only [Call.run, Call.onStorage, StorageNode.setUp, hscript, Script.empty]
  rfl

/-- To catch up from the latest time on takes all that is not older, and reaches to the present. -/
theorem run_resume (hscript : site.storage.script = .empty) (hold : site.index.store.records.Hold h) :
    let blobs := site.storage.log.select (h.resume? site.clock.now)
    let out := (catchUp (h.resume? site.clock.now) >>= fun answer => pure answer.2).run site
    ∃ added, site.Learns out.2 h added ∧ added <+: additionsOf blobs ∧
      (out.1 = .ok site.clock.now ∧ added = additionsOf blobs ∨ (∃ e, out.1 = .error e) ∧ ¬ site.Quiet) := by
  intro blobs out
  have hreach : ((h.resume? site.clock.now).bind (·.upper)).getD site.clock.now = site.clock.now := by
    rw [History.resume?]
    cases h.lastTime? <;> rfl
  obtain ⟨added, hadd, hinit, hres⟩ := run_catchUp hscript hold (h.resume? site.clock.now)
  rw [hreach] at hres
  have hout : out = (((catchUp (h.resume? site.clock.now)).run site).1.map Prod.snd,
      ((catchUp (h.resume? site.clock.now)).run site).2) := by
    show Task.run _ site = _
    rw [← map_eq_pure_bind, run_map]
  rw [hout]
  refine ⟨added, hadd, hinit, ?_⟩
  rcases hres with ⟨⟨r, hr⟩, hall⟩ | ⟨⟨e, he⟩, hnq⟩
  · exact .inl ⟨congrArg (Except.map Prod.snd) hr, hall⟩
  · exact .inr ⟨⟨e, congrArg (Except.map Prod.snd) he⟩, hnq⟩

/-- A set-up takes all that is not older than what the index knows, unless the index was set up before. -/
theorem run_setUp (hscript : site.storage.script = .empty) (hown : site.ownTime = none)
    (hold : site.index.store.records.Hold h) :
    let blobs := site.storage.log.select (h.resume? site.clock.now)
    let out := setUp.run site
    ∃ added, Site.Learns { site with index.isReady := true } out.2 h added ∧ added <+: additionsOf blobs ∧
      (out.1 = .ok site.clock.now ∧ site.index.isReady = false ∧ added = additionsOf blobs ∨
        (∃ e, out.1 = .error e) ∧ ¬ (site.index.isReady = false ∧ site.Quiet)) := by
  intro blobs out
  have hcall := run_setUpIndex site
  by_cases hready : site.index.isReady = true
  · have hsite : { site with index.isReady := true } = site := by rw [← hready]
    have hout : out = (.error (.index .alreadyReady), site) := by
      show setUp.run site = _
      rw [setUp, run_bind, hcall, if_pos hready]
    rw [hout, hsite]
    exact ⟨[], (Site.ReadOnly.refl site).learns hold, List.nil_prefix, .inr ⟨⟨_, rfl⟩, fun hidle => nomatch
      hready.symm.trans hidle.1⟩⟩
  · rw [if_neg hready] at hcall
    obtain ⟨site₁, hsite₁⟩ : ∃ site₁ : Site, site₁ = { site with index.isReady := true } := ⟨_, rfl⟩
    rw [← hsite₁] at hcall ⊢
    obtain ⟨hscript₁, hlog₁, hclock₁, hown₁, hquiet₁⟩ : site₁.storage.script = .empty ∧
        site₁.storage.log = site.storage.log ∧ site₁.clock = site.clock ∧ site₁.ownTime = none ∧
        (site.Quiet → site₁.Quiet) := by
      rw [hsite₁]
      exact ⟨hscript, rfl, rfl, hown, id⟩
    have hstorage := run_setUpStorage hscript₁
    have hold₁ : site₁.index.store.records.Hold h := hsite₁ ▸ hold
    have hlast := Index.answers_lastTimestamp hold₁.spells_lastTimestamp
    obtain ⟨hro, hresult⟩ := run_ofIndex_answers (c := .lastTimestamp) rfl hlast
    rw [hold₁.lastTime?_eq] at hresult
    have hlearns := hro.learns hold₁
    show ∃ added, site₁.Learns (setUp.run site).2 _ added ∧ _ ∧ ((setUp.run site).1 = _ ∧ _ ∨
      (∃ e, (setUp.run site).1 = .error e) ∧ _)
    rw [setUp, run_bind_ok (congrArg Prod.fst hcall), hcall, run_bind_ok (congrArg Prod.fst hstorage), hstorage]
    rcases hresult with hfound | ⟨hnq, e, he⟩
    · rw [run_bind_ok hfound]
      have hquiet₂ : site.Quiet → Site.Quiet ((ofIndex Call.lastTimestamp).run site₁).2 := by
        intro hq
        refine ⟨?_, hro.store.store_quiet (hquiet₁ hq).2⟩
        rw [run_ofIndex]
        exact (hquiet₁ hq).1
      generalize ((ofIndex Call.lastTimestamp).run site₁).2 = site₂ at hro hlearns hquiet₂
      have hlog₂ : site₂.storage.log = site.storage.log := hro.log.trans hlog₁
      have hclock₂ : site₂.clock = site.clock := hro.clock.trans hclock₁
      have htime : site₂.serviceTime = site.clock.now := by
        rw [Site.serviceTime, hro.ownTime, hown₁, hclock₂, Option.getD_none]
      obtain ⟨added, hadd, hinit, hres⟩ :=
        @run_resume site₂ h (hro.script.trans hscript₁) (by simpa using hlearns.records)
      rw [hclock₂] at hadd
      rw [hlog₂, hclock₂] at hinit hres
      have hrest : ∃ added, site₁.Learns ((catchUp (h.resume? site.clock.now) >>= fun answer =>
          pure answer.2).run site₂).2 h added ∧ added <+: additionsOf blobs ∧
          (((catchUp (h.resume? site.clock.now) >>= fun answer => pure answer.2).run site₂).1 =
              .ok site.clock.now ∧ site.index.isReady = false ∧ added = additionsOf blobs ∨
            (∃ e, ((catchUp (h.resume? site.clock.now) >>= fun answer => pure answer.2).run site₂).1 = .error e) ∧
              ¬ (site.index.isReady = false ∧ site.Quiet)) :=
        ⟨added, hlearns.trans (by simpa using hadd), hinit,
          hres.imp (fun ⟨hok, hall⟩ => ⟨hok, by simpa using hready, hall⟩)
            (And.imp_right fun hnq hq => hnq (hquiet₂ hq.2))⟩
      unfold History.resume? at hrest
      cases hlt : h.lastTime? with
      | none =>
        rw [hlt] at hrest
        exact hrest
      | some last =>
        have hnow : (now >>= fun present => catchUp (some (.between last present)) >>= fun answer =>
            pure answer.2).run site₂ = (catchUp (some (.between last site.clock.now)) >>= fun answer =>
              pure answer.2).run site₂ := by
          rw [run_bind_ok (congrArg Prod.fst (run_now site₂)), run_now, htime]
        rw [hlt, Option.map_some, ← hnow] at hrest
        exact hrest
    · rw [run_bind_error he]
      exact ⟨[], hlearns, List.nil_prefix, .inr ⟨⟨e, rfl⟩, fun hq => hnq (hquiet₁ hq.2).2.reading⟩⟩

/-- A transaction with good topics is stored first, and then it is for the index to take its block. -/
theorem run_persist_stored (hscript : site.storage.script = .empty) {t : Transaction} {channel : String}
    {topics : List String} (htopics : checkTopics topics = .ok ()) :
    let stored := site.storage.log.append (Block.empty.push t channel topics).render site.clock.now
    let a := site.additionFor t channel topics
    (persist t channel topics).run site =
      (ofIndex (.add a.location a.header a.timestamp) >>= fun _ =>
        pure ⟨stored.1.location, stored.1.info, topics⟩).run { site with storage.log := stored.2 } := by
  intro stored a
  have hstored : (ofStorage (.append (Block.empty.push t channel topics).render)).run site =
      (.ok stored.1, { site with storage.log := stored.2 }) := by
    rw [run_ofStorage]
    simp only [Call.run, Call.onStorage, StorageNode.append_unscripted hscript]
    rfl
  rw [persist, htopics, run_bind_ok rfl]
  show (ofStorage _ >>= _).run site = _
  rw [run_bind, hstored]
  rfl

/-- A transaction with good topics is stored, and its block is indexed unless the index fails. -/
theorem run_persist (hscript : site.storage.script = .empty) (hold : site.index.store.records.Hold h)
    {t : Transaction} {channel : String} {topics : List String} (htopics : checkTopics topics = .ok ()) :
    let stored := site.storage.log.append (Block.empty.push t channel topics).render site.clock.now
    let site₁ : Site := { site with storage.log := stored.2 }
    let out := (persist t channel topics).run site
    out.1 = .ok ⟨stored.1.location, stored.1.info, topics⟩ ∧
        site₁.Learns out.2 h [site.additionFor t channel topics] ∨
      (∃ e, out.1 = .error e) ∧ ¬ site.index.store.Quiet ∧ site₁.Learns out.2 h [] := by
  intro stored site₁ out
  have hout : out = _ := run_persist_stored hscript htopics
  have hold₁ : site₁.index.store.records.Hold h := hold
  rcases run_add hold₁ (site.additionFor t channel topics) with ⟨hok, hlearns⟩ | ⟨⟨e, he⟩, hnq, hlearns⟩
  · refine .inl ?_
    rw [hout, run_bind_ok hok]
    exact ⟨rfl, hlearns⟩
  · refine .inr ?_
    rw [hout, run_bind_error he]
    exact ⟨⟨e, rfl⟩, hnq, hlearns⟩

theorem run_persist_malformed {t : Transaction} {channel : String} {topics : List String}
    {e : ServiceError} (htopics : checkTopics topics = .error e) (site : Site) :
    (persist t channel topics).run site = (.error e, site) := by
  rw [persist, htopics, run_bind_error rfl]
  rfl

end Task

/-! ## What an operation does -/

theorem BlobLog.mem_of_mem_additionsOf_select {log : BlobLog} {window : Option Window} {a : Addition}
    (ha : a ∈ additionsOf (log.select window)) : ∃ blob ∈ log.blobs, blob.addition? = some a := by
  obtain ⟨blob, hblob, ha⟩ := List.mem_filterMap.1 ha
  exact ⟨blob, List.mem_of_mem_filter hblob, ha⟩

namespace Engine

variable {α : Type} {e : Engine} {h : History}

theorem perform_ready (hready : e.isReady = true) (task : Task α) :
    e.perform task = ((task.run e.site).1, { e with site := (task.run e.site).2 }) := by
  rw [perform, if_pos hready]

theorem perform_not_ready (hready : ¬ e.isReady = true) (task : Task α) :
    e.perform task = (.error .notReady, e) := by
  rw [perform, if_neg hready]

/-- An engine that is ready stays on track while its site learns. -/
theorem Tracks.learn (ht : e.Tracks h) (hready : e.isReady = true) {e' : Engine} {added : History}
    (hlearns : e.site.Learns e'.site h added) : e'.Tracks (h ++ added) where
  script := hlearns.script.trans ht.script
  ownTime := hlearns.ownTime.trans ht.ownTime
  records := hlearns.records
  ready _ := hlearns.indexReady.trans (ht.ready hready)
  fresh hidle := by
    rw [hlearns.indexReady, ht.ready hready] at hidle
    cases hidle

/-- A task that only reads leaves the engine on track. -/
theorem Tracks.perform_reads (ht : e.Tracks h) {task : Task α} (htask : task.Reads) :
    (e.perform task).2.Tracks h ∧ (e.perform task).2.status = e.status := by
  by_cases hready : e.isReady = true
  · rw [perform_ready hready]
    have hro := htask.readOnly ht.records
    have ht' : Tracks { e with site := (task.run e.site).2 } (h ++ []) :=
      ht.learn hready (hro.learns ht.records)
    rw [List.append_nil] at ht'
    exact ⟨ht', by simp only [status, hro.clock, hro.log]⟩
  · rw [perform_not_ready hready]
    exact ⟨ht, rfl⟩

/-- A set-up leaves the index set up, whatever comes of it; it succeeds only with an index that was not. -/
theorem Carries.setUp (hc : e.Carries h) :
    let blobs := e.site.storage.log.select (h.resume? e.site.clock.now)
    ∃ added, e.setUp.2.Tracks (h ++ added) ∧ added <+: additionsOf blobs ∧
      (e.setUp.1 = .ok () ∧ e.isReady = false ∧ e.site.index.isReady = false ∧ added = additionsOf blobs ∧
          e.setUp.2.status = { e.status with isReady := true, watermark := e.site.clock.now } ∨
        (∃ error, e.setUp.1 = .error error) ∧
          ¬ (e.isReady = false ∧ e.site.index.isReady = false ∧ e.site.Quiet) ∧ e.setUp.2.status = e.status) := by
  intro blobs
  by_cases hready : e.isReady = true
  · rw [Engine.setUp, if_pos hready]
    refine ⟨[], by simpa using hc.tracks (hc.ready hready), List.nil_prefix, .inr ⟨⟨_, rfl⟩, ?_, rfl⟩⟩
    exact fun hidle => Bool.noConfusion (hready.symm.trans hidle.1)
  · obtain ⟨added, hlearns, hinit, hres⟩ := Task.run_setUp hc.script hc.ownTime hc.records
    rw [Engine.setUp, if_neg hready]
    generalize Task.setUp.run e.site = out at hlearns hres
    obtain ⟨result, site⟩ := out
    have hlog : site.storage.log = e.site.storage.log := hlearns.log
    have hclock : site.clock = e.site.clock := hlearns.clock
    have htracks (isReady : Bool) (watermark : Timestamp) : Tracks ⟨isReady, watermark, site⟩ (h ++ added) :=
      ⟨hlearns.script.trans hc.script, hlearns.ownTime.trans hc.ownTime, hlearns.records,
        fun _ => hlearns.indexReady, fun hidle => nomatch hlearns.indexReady.symm.trans hidle⟩
    rcases hres with ⟨hok, hidle, hadded⟩ | ⟨⟨error, herror⟩, hnq⟩
    · replace hok : result = .ok e.site.clock.now := hok
      subst hok
      exact ⟨added, htracks _ _, hinit, .inl ⟨rfl, by simpa using hready, hidle, hadded,
        by simp only [status, hlog, hclock]⟩⟩
    · replace herror : result = .error error := herror
      subst herror
      exact ⟨added, htracks _ _, hinit, .inr ⟨⟨error, rfl⟩, fun hidle => hnq hidle.2,
        by simp only [status, hlog, hclock]⟩⟩

/-- A set-up succeeds with an index that was not set up, while nothing fails. -/
theorem Carries.setUp_ok (hc : e.Carries h) (hready : e.isReady = false) (hidle : e.site.index.isReady = false)
    (hq : e.site.Quiet) : e.setUp.1 = .ok () ∧ e.setUp.2.isReady = true := by
  obtain ⟨_, -, -, ⟨hok, -, -, -, hstatus⟩ | ⟨-, hnot, -⟩⟩ := hc.setUp
  · exact ⟨hok, congrArg Status.isReady hstatus⟩
  · exact absurd ⟨hready, hidle, hq⟩ hnot

/-- The first set-up takes all of the log. -/
theorem Tracks.setUp (ht : e.Tracks h) :
    ∃ added, e.setUp.2.Tracks (h ++ added) ∧
      (e.setUp.1 = .ok () ∧ e.isReady = false ∧ added = additionsOf e.site.storage.log.blobs ∧
          e.setUp.2.status = { e.status with isReady := true, watermark := e.site.clock.now } ∨
        (∃ error, e.setUp.1 = .error error) ∧ e.setUp.2.status = e.status ∧
          ∀ a ∈ added, ∃ blob ∈ e.site.storage.log.blobs, blob.addition? = some a) := by
  obtain ⟨added, ht', hinit, ⟨hok, hready, hidle, hadded, hstatus⟩ | ⟨herror, -, hstatus⟩⟩ := ht.carries.setUp
  · obtain rfl := ht.fresh hidle
    refine ⟨added, ht', .inl ⟨hok, hready, ?_, hstatus⟩⟩
    rw [hadded, show History.resume? [] e.site.clock.now = none from rfl, BlobLog.select_none]
  · exact ⟨added, ht', .inr ⟨herror, hstatus, fun a ha =>
      BlobLog.mem_of_mem_additionsOf_select (hinit.subset ha)⟩⟩

theorem Tracks.synchronize (ht : e.Tracks h) :
    ∃ added, e.synchronize.2.Tracks (h ++ added) ∧
      ((∃ report, e.synchronize.1 = .ok report) ∧ e.isReady = true ∧
          added = additionsOf (e.site.storage.log.select (some (.between e.watermark e.site.clock.now))) ∧
          e.synchronize.2.status = { e.status with watermark := e.site.clock.now } ∨
        (∃ error, e.synchronize.1 = .error error) ∧ ¬ (e.isReady = true ∧ e.site.Quiet) ∧
          e.synchronize.2.status = e.status ∧
          added <+: additionsOf (e.site.storage.log.select (some (.between e.watermark e.site.clock.now)))) := by
  by_cases hready : e.isReady = true
  · obtain ⟨added, hlearns, hinit, hres⟩ := Task.run_catchUp ht.script ht.records
      (some (.between e.watermark e.site.clock.now))
    have htask : (Task.synchronize e.watermark).run e.site =
        (Task.catchUp (some (.between e.watermark e.site.clock.now))).run e.site := by
      rw [Task.synchronize, Task.run_bind_ok rfl, Task.run_now, Site.serviceTime, ht.ownTime]
      rfl
    rw [Engine.synchronize, perform_ready hready, htask]
    generalize Task.run _ _ = out at hlearns hres
    obtain ⟨result, site⟩ := out
    have hlog : site.storage.log = e.site.storage.log := hlearns.log
    have hclock : site.clock = e.site.clock := hlearns.clock
    have htracks (watermark : Timestamp) : Tracks ⟨e.isReady, watermark, site⟩ (h ++ added) :=
      ht.learn hready hlearns
    rcases hres with ⟨⟨report, hok⟩, hadded⟩ | ⟨⟨error, herror⟩, hnq⟩
    · replace hok : result = .ok (report, e.site.clock.now) := hok
      subst hok
      exact ⟨added, htracks _, .inl ⟨⟨report, rfl⟩, hready, hadded, by simp only [status, hlog, hclock]⟩⟩
    · replace herror : result = .error error := herror
      subst herror
      exact ⟨added, htracks _, .inr ⟨⟨error, rfl⟩, fun hq => hnq hq.2, by simp only [status, hlog, hclock], hinit⟩⟩
  · rw [Engine.synchronize, perform_not_ready hready]
    exact ⟨[], by simpa using ht, .inr ⟨⟨_, rfl⟩, fun hr => hready hr.1, rfl, List.nil_prefix⟩⟩

theorem Tracks.persist (ht : e.Tracks h) (hready : e.isReady = true) (t : Transaction) (channel : String)
    {topics : List String} (htopics : Task.checkTopics topics = .ok ()) :
    let stored := e.site.storage.log.append (Block.empty.push t channel topics).render e.site.clock.now
    let out := e.perform (Task.persist t channel topics)
    ∃ added, out.2.Tracks (h ++ added) ∧ out.2.status = { e.status with log := stored.2 } ∧
      (e.site.index.store.Quiet → out.2.site.index.store.Quiet) ∧
      (out.1 = .ok ⟨stored.1.location, stored.1.info, topics⟩ ∧
          added = [e.site.additionFor t channel topics] ∨
        (∃ error, out.1 = .error error) ∧ ¬ e.site.index.store.Quiet ∧ added = []) := by
  intro stored out
  have hout : out = _ := perform_ready hready _
  have htracks {site : Site} {added : History}
      (hlearns : Site.Learns { e.site with storage.log := stored.2 } site h added) :
      Tracks { e with site } (h ++ added) ∧
        Engine.status { e with site } = { e.status with log := stored.2 } := by
    have ht₁ : Tracks { e with site.storage.log := stored.2 } h :=
      ⟨ht.script, ht.ownTime, ht.records, ht.ready, ht.fresh⟩
    exact ⟨ht₁.learn hready hlearns, by simp only [status, hlearns.log, hlearns.clock]⟩
  rcases Task.run_persist ht.script ht.records htopics with ⟨hok, hlearns⟩ | ⟨herror, hnq, hlearns⟩
  · rw [hout]
    exact ⟨_, (htracks hlearns).1, (htracks hlearns).2, hlearns.quiet, .inl ⟨hok, rfl⟩⟩
  · rw [hout]
    exact ⟨_, (htracks hlearns).1, (htracks hlearns).2, hlearns.quiet, .inr ⟨herror, hnq, rfl⟩⟩

/-- A transaction with a receipt was stored and its block was indexed. -/
theorem Carries.persist_ok (hc : e.Carries h) {t : Transaction} {channel : String} {topics : List String}
    {receipt : Receipt} (hreceipt : (e.perform (Task.persist t channel topics)).1 = .ok receipt) :
    let stored := e.site.storage.log.append (Block.empty.push t channel topics).render e.site.clock.now
    let out := e.perform (Task.persist t channel topics)
    e.isReady = true ∧ Task.checkTopics topics = .ok () ∧ receipt = ⟨stored.1.location, stored.1.info, topics⟩ ∧
      out.2.Tracks (h ++ [e.site.additionFor t channel topics]) ∧
      out.2.status = { e.status with log := stored.2 } ∧
      (e.site.index.store.Quiet → out.2.site.index.store.Quiet) := by
  intro stored out
  by_cases hready : e.isReady = true
  · cases htopics : Task.checkTopics topics with
    | ok =>
      obtain ⟨added, ht', hstatus, hquiet, ⟨hok, rfl⟩ | ⟨⟨error, herror⟩, -⟩⟩ :=
        (hc.tracks (hc.ready hready)).persist hready t channel htopics
      · cases hreceipt.symm.trans hok
        exact ⟨hready, rfl, rfl, ht', hstatus, hquiet⟩
      · cases hreceipt.symm.trans herror
    | error error =>
      rw [perform_ready hready, Task.run_persist_malformed htopics] at hreceipt
      cases hreceipt
  · rw [perform_not_ready hready] at hreceipt
    cases hreceipt

/-- **An engine goes on with a history in one of the ways of `Progress`,** and on its own history it stays on
track. -/
theorem Carries.progress (hc : e.Carries h) (event : Event) :
    ∃ added, (e.next event).Carries (h ++ added) ∧ (e.Tracks h → (e.next event).Tracks (h ++ added)) ∧
      Progress e h event added (e.next event).status := by
  have hsame (hnext : e.next event = e) : ∃ added, (e.next event).Carries (h ++ added) ∧
      (e.Tracks h → (e.next event).Tracks (h ++ added)) ∧ Progress e h event added (e.next event).status := by
    rw [hnext]
    exact ⟨[], by simpa using hc, by simp, .still event⟩
  have hon {added : History} (ht : (e.next event).Tracks (h ++ added))
      (hprogress : Progress e h event added (e.next event).status) :
      ∃ added, (e.next event).Carries (h ++ added) ∧ (e.Tracks h → (e.next event).Tracks (h ++ added)) ∧
        Progress e h event added (e.next event).status := ⟨added, ht.carries, fun _ => ht, hprogress⟩
  have hread {α : Type} {task : Task α} (htask : task.Reads) (hnext : e.next event = (e.perform task).2) :
      ∃ added, (e.next event).Carries (h ++ added) ∧ (e.Tracks h → (e.next event).Tracks (h ++ added)) ∧
        Progress e h event added (e.next event).status := by
    by_cases hready : e.isReady = true
    · obtain ⟨ht', hstatus⟩ := (hc.tracks (hc.ready hready)).perform_reads htask
      rw [← hnext] at ht' hstatus
      exact @hon [] (by simpa using ht') (hstatus ▸ .still event)
    · exact hsame (by rw [hnext, perform_not_ready hready])
  cases event with
  | setUp =>
    obtain ⟨added, ht', hinit, ⟨-, hready, hidle, rfl, hstatus⟩ | ⟨-, -, hstatus⟩⟩ := hc.setUp
    · exact hon ht' (hstatus ▸ .setUp hready hidle)
    · exact hon ht' (hstatus ▸ .broken (.inl ⟨rfl, rfl⟩) hinit)
  | synchronize =>
    by_cases hready : e.isReady = true
    · obtain ⟨added, ht', ⟨-, -, rfl, hstatus⟩ | ⟨-, -, hstatus, hinit⟩⟩ :=
        (hc.tracks (hc.ready hready)).synchronize
      · exact hon ht' (hstatus ▸ .synchronize hready)
      · exact hon ht' (hstatus ▸ .broken (.inr ⟨rfl, rfl⟩) hinit)
    · exact hsame (by rw [next, Engine.synchronize, perform_not_ready hready])
  | persist t channel topics =>
    by_cases hready : e.isReady = true
    · cases htopics : Task.checkTopics topics with
      | ok =>
        obtain ⟨added, ht', hstatus, -, hadded⟩ := (hc.tracks (hc.ready hready)).persist hready t channel htopics
        -- The block is stored even if the index fails, and then the history stays as it is.
        have hprogress := Progress.persist (e := e) (h := h) t channel topics htopics
          (hadded.symm.imp (And.right ∘ And.right) fun ⟨hok, hadded⟩ => ⟨hadded, _, hok, rfl⟩)
        exact hon ht' (hstatus ▸ hprogress)
      | error error => exact hsame (by rw [next, perform_ready hready, Task.run_persist_malformed htopics])
    · exact hsame (by rw [next, perform_not_ready hready])
  | readChannel channel window => exact hread (Task.reads_channelEntries channel window) rfl
  | readTopics topics window => exact hread (Task.reads_topicsEntries topics window) rfl
  | append content time =>
    refine ⟨[], ?_, fun ht => ?_, .append content time⟩
    · simpa using ⟨hc.script, hc.ownTime, hc.records, hc.ready⟩
    · simpa using ⟨ht.script, ht.ownTime, ht.records, ht.ready, ht.fresh⟩
  | setClock now =>
    refine ⟨[], ?_, fun ht => ?_, .setClock now⟩
    · simpa using ⟨hc.script, hc.ownTime, hc.records, hc.ready⟩
    · simpa using ⟨ht.script, ht.ownTime, ht.records, ht.ready, ht.fresh⟩
  | schedule data reads writes =>
    refine ⟨[], ?_, fun ht => ?_, .still _⟩
    · simpa using ⟨hc.script, hc.ownTime, hc.records, hc.ready⟩
    · simpa using ⟨ht.script, ht.ownTime, ht.records, ht.ready, ht.fresh⟩

/-- A transaction whose block was indexed has a receipt. -/
theorem Progress.exists_receipt {t : Transaction} {channel : String} {topics : List String} {added : History}
    {s : Status} (hprogress : Progress e h (.persist t channel topics) added s) (hadded : added ≠ []) :
    ∃ receipt, (e.perform (Task.persist t channel topics)).1 = .ok receipt := by
  cases hprogress with
  | still => exact absurd rfl hadded
  | broken hwindow _ => rcases hwindow with ⟨hevent, -⟩ | ⟨hevent, -⟩ <;> cases hevent
  | persist _ _ _ _ hindexed =>
    obtain ⟨-, receipt, hreceipt, -⟩ := hindexed.resolve_left hadded
    exact ⟨receipt, hreceipt⟩

/-- The index of an engine on track is empty before it is set up. -/
theorem Progress.change {event : Event} {added : History} {s : Status} (hprogress : Progress e h event added s)
    (ht : e.Tracks h) : Change e event added s := by
  cases hprogress with
  | still => exact .still event [] (by simp)
  | broken _ hinit =>
    exact .still event added fun a ha => BlobLog.mem_of_mem_additionsOf_select (hinit.subset ha)
  | setUp hready hidle =>
    obtain rfl := ht.fresh hidle
    rw [show History.resume? [] e.site.clock.now = none from rfl, BlobLog.select_none]
    exact .setUp hready
  | synchronize hready => exact .synchronize hready
  | persist t channel topics htopics hadded =>
    exact .persist t channel topics added htopics (hadded.imp_right And.left)
  | append content time => exact .append content time
  | setClock now => exact .setClock now

/-- **Every event leaves the engine on track, in one of the ways of `Change`.** -/
theorem Tracks.change (ht : e.Tracks h) (event : Event) :
    ∃ added, (e.next event).Tracks (h ++ added) ∧ Change e event added (e.next event).status := by
  obtain ⟨added, -, ht', hprogress⟩ := ht.carries.progress event
  exact ⟨added, ht' ht, hprogress.change ht⟩

end Engine

end Invoicing
