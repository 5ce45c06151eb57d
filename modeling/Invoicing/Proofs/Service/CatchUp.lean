import Invoicing.Proofs.Index.Replay
import Invoicing.Proofs.Service.Run

set_option autoImplicit false

/-! # Catching up with any storage

What a set-up and a synchronization come to when nothing is known of the storage and of the store of the index. All
that counts is the answer that the storage gives to the query for data (`Task.received`): an answer whose lists do not
match is refused before the index is asked to do anything, and an answer that is processed without error is the one whose
reach is handed back. -/

namespace Invoicing

/-! ## Answers that fit together -/

/-- The contents and the locations are there, and the three lists are equally long. -/
def StorageData.WellFormed (data : StorageData) : Prop :=
  ∃ contents locations, data.contents = some contents ∧ data.locations = some locations ∧
    contents.length = locations.length ∧ contents.length = data.infos.length

namespace Task

variable {data : StorageData}

/-- There is a blob for every one of the meta data. -/
theorem length_of_blobsOf {blobs : List Blob} (h : blobsOf data = .ok blobs) :
    data.WellFormed ∧ blobs.length = data.infos.length := by
  unfold blobsOf at h
  split at h
  · next contents locations hcontents hlocations =>
    split at h
    · next hlengths =>
      refine ⟨⟨contents, locations, hcontents, hlocations, hlengths⟩, ?_⟩
      rw [← Except.ok.inj h, List.length_map, List.length_zip, List.length_zip]
      omega
    · cases h
  · cases h

theorem exists_blobsOf (h : data.WellFormed) : ∃ blobs, blobsOf data = .ok blobs := by
  obtain ⟨contents, locations, hcontents, hlocations, hlengths⟩ := h
  unfold blobsOf
  simp only [hcontents, hlocations, if_pos hlengths]
  exact ⟨_, rfl⟩

/-- What does not fit together is refused. -/
theorem blobsOf_malformed (h : ¬ data.WellFormed) : ∃ reason, blobsOf data = .error (.malformedAnswer reason) := by
  cases hblobs : blobsOf data with
  | ok blobs => exact absurd (length_of_blobsOf hblobs).1 h
  | error e =>
    unfold blobsOf at hblobs
    split at hblobs
    · split at hblobs
      · cases hblobs
      · exact ⟨_, congrArg Except.error (Except.error.inj hblobs).symm⟩
    · exact ⟨_, congrArg Except.error (Except.error.inj hblobs).symm⟩

end Task

/-! ## What was received -/

/-- The answer to a query for data, if the call is one. -/
def Call.received {α : Type} : Call α → Site → List (Except StorageError StorageData)
  | .data window, site => [((Call.data window).run site).1]
  | _, _ => []

/-- The answers to the queries for data that a program makes, in order. -/
def Program.received {α : Type} : Program α → Site → List (Except StorageError StorageData)
  | done _, _ => []
  | call c next, site => c.received site ++ (next (c.run site).1).received (c.run site).2

theorem Program.received_bind {α β : Type} (p : Program α) (f : α → Program β) (site : Site) :
    (p >>= f).received site = p.received site ++ (f (p.run site).1).received (p.run site).2 := by
  show (p.bind f).received site = _
  induction p generalizing site with
  | done a => rfl
  | call c next ih =>
    unfold bind
    simp only [received, ih, run, List.append_assoc]

namespace Task

variable {α β : Type}

/-- The answers to the queries for data that a task makes, in order. -/
def received (t : Task α) (site : Site) : List (Except StorageError StorageData) :=
  Program.received (ExceptT.run t) site

theorem received_bind_ok {t : Task α} {f : α → Task β} {site : Site} {a : α} (h : (t.run site).1 = .ok a) :
    (t >>= f).received site = t.received site ++ (f a).received (t.run site).2 := by
  show Program.received (ExceptT.run t >>= ExceptT.bindCont f) site = _
  rw [Program.received_bind]
  show _ ++ Program.received (ExceptT.bindCont f (t.run site).1) (t.run site).2 = _
  rw [h]
  rfl

theorem received_bind_error {t : Task α} {f : α → Task β} {site : Site} {e : ServiceError}
    (h : (t.run site).1 = .error e) : (t >>= f).received site = t.received site := by
  show Program.received (ExceptT.run t >>= ExceptT.bindCont f) site = _
  rw [Program.received_bind]
  show _ ++ Program.received (ExceptT.bindCont f (t.run site).1) (t.run site).2 = _
  rw [h]
  exact List.append_nil _

theorem received_ofIndex (c : Call (Except IndexError α)) (site : Site) (hc : c.received site = []) :
    (ofIndex c).received site = [] := by
  show c.received site ++ Program.received _ _ = []
  rw [hc, List.nil_append]
  cases (c.run site).1 <;> rfl

theorem received_ofStorage (c : Call (Except StorageError α)) (site : Site) :
    (ofStorage c).received site = c.received site := by
  show c.received site ++ Program.received _ _ = _
  cases (c.run site).1 <;> exact List.append_nil _

theorem received_ofExcept (r : Except ServiceError α) (site : Site) :
    (MonadExcept.ofExcept r : Task α).received site = [] := by
  cases r <;> rfl

/-- What asks for nothing in both its parts asks for nothing. -/
theorem received_bind_eq_nil {t : Task α} {f : α → Task β} (ht : ∀ site, t.received site = [])
    (hf : ∀ a site, (f a).received site = []) (site : Site) : (t >>= f).received site = [] := by
  cases hres : (t.run site).1 with
  | ok a => rw [received_bind_ok hres, ht, hf, List.append_nil]
  | error e => rw [received_bind_error hres, ht]

/-- Indexing asks the storage for nothing. -/
theorem received_indexBlobs (report : SyncReport) (blobs : List Blob) (site : Site) :
    (indexBlobs report blobs).received site = [] := by
  induction blobs generalizing report site with
  | nil => rfl
  | cons blob blobs ih =>
    rw [indexBlobs]
    split
    · exact received_bind_eq_nil (fun site => received_ofIndex _ site rfl) (fun _ site => ih _ site) site
    · exact ih _ site

theorem received_indexData (data : StorageData) (site : Site) : (indexData data).received site = [] := by
  unfold indexData
  exact received_bind_eq_nil (received_ofExcept _) (fun blobs => received_indexBlobs _ blobs) site

/-! ## What catching up comes to -/

/-- The report with some blobs counted. -/
def SyncReport.counting (report : SyncReport) (blobs : List Blob) : SyncReport where
  indexed := report.indexed + (additionsOf blobs).length
  skipped := report.skipped + (blobs.filter (·.addition?.isNone)).length

theorem SyncReport.counting_none (report : SyncReport) {blob : Blob} (blobs : List Blob) (h : blob.addition? = none) :
    report.counting (blob :: blobs) = SyncReport.counting { report with skipped := report.skipped + 1 } blobs := by
  simp [counting, additionsOf, h, Nat.add_assoc, Nat.add_comm 1]

theorem SyncReport.counting_some (report : SyncReport) {blob : Blob} (blobs : List Blob) {a : Addition}
    (h : blob.addition? = some a) :
    report.counting (blob :: blobs) = SyncReport.counting { report with indexed := report.indexed + 1 } blobs := by
  simp [counting, additionsOf, h, Nat.add_assoc, Nat.add_comm 1]

/-- To index blobs is to add those that are blocks, and to count the others. -/
theorem run_indexBlobs_eq (site : Site) (report : SyncReport) (blobs : List Blob) :
    let out := (Index.addAll (additionsOf blobs)).run.run site.index.store
    (indexBlobs report blobs).run site =
      ((out.1.mapError ServiceError.index).map fun _ => report.counting blobs,
        { site with index.store := out.2 }) := by
  induction blobs generalizing site report with
  | nil => rfl
  | cons blob blobs ih =>
    rw [indexBlobs]
    cases hparse : Block.parse blob.content with
    | error e =>
      have hnone : blob.addition? = none := by rw [Blob.addition?, hparse]
      rw [additionsOf, List.filterMap_cons_none hnone, report.counting_none blobs hnone]
      exact ih site _
    | ok block =>
      have hsome : blob.addition? = some ⟨blob.location, block.header, blob.info.timestamp⟩ := by
        rw [Blob.addition?, hparse]
      have hall (a : Addition) (h : History) :
          Index.addAll (a :: h) = Index.add a.location a.header a.timestamp >>= fun _ => Index.addAll h := rfl
      rw [additionsOf, List.filterMap_cons_some hsome, report.counting_some blobs hsome, hall]
      have hrun : (ofIndex (.add blob.location block.header blob.info.timestamp)).run site =
          (((Index.add blob.location block.header blob.info.timestamp).run.run site.index.store).1.mapError .index,
            { site with index.store :=
              ((Index.add blob.location block.header blob.info.timestamp).run.run site.index.store).2 }) :=
        run_ofIndex _ site
      cases hres : ((Index.add blob.location block.header blob.info.timestamp).run.run site.index.store).1 with
      | error e =>
        rw [hres] at hrun
        rw [Effect.run_bind_error hres, run_bind_error (congrArg Prod.fst hrun), hrun]
        rfl
      | ok u =>
        rw [hres] at hrun
        rw [Effect.run_bind_ok hres, run_bind_ok (congrArg Prod.fst hrun), hrun]
        exact ih _ _

/-- Every blob is either indexed or passed over. -/
theorem report_of_indexBlobs {report report' : SyncReport} {blobs : List Blob} {site : Site}
    (h : ((indexBlobs report blobs).run site).1 = .ok report') :
    report'.indexed + report'.skipped = report.indexed + report.skipped + blobs.length := by
  induction blobs generalizing report site with
  | nil =>
    cases h
    rfl
  | cons blob blobs ih =>
    rw [indexBlobs] at h
    rw [List.length_cons]
    split at h
    · obtain ⟨-, -, h⟩ := run_bind_eq_ok h
      have hrest := ih h
      simp only at hrest
      omega
    · have hrest := ih h
      simp only at hrest
      omega

variable {window : Option Window} {site : Site}

theorem run_catchUp_refused {e : StorageError} (h : ((Call.data window).run site).1 = .error e) :
    (catchUp window).run site = (.error (.storage e), ((Call.data window).run site).2) := by
  have hanswer : ((ofStorage (.data window)).run site).1 = .error (.storage e) := by
    rw [run_ofStorage, h]
    rfl
  rw [catchUp, run_bind_error hanswer, run_ofStorage]

/-- Once the storage has answered, the answer is indexed. -/
theorem run_catchUp_answered {data : StorageData} (h : ((Call.data window).run site).1 = .ok data) :
    (catchUp window).run site =
      (indexData data >>= fun report => pure (report, data.lastTimestamp)).run ((Call.data window).run site).2 := by
  have hanswer : ((ofStorage (.data window)).run site).1 = .ok data := by
    rw [run_ofStorage, h]
    rfl
  rw [catchUp, run_bind_ok hanswer, run_ofStorage]

theorem received_catchUp (window : Option Window) (site : Site) :
    (catchUp window).received site = [((Call.data window).run site).1] := by
  have hdata : (ofStorage (.data window)).received site = [((Call.data window).run site).1] :=
    received_ofStorage _ site
  unfold catchUp
  cases h : ((ofStorage (.data window)).run site).1 with
  | error e => rw [received_bind_error h, hdata]
  | ok data =>
    rw [received_bind_ok h, hdata, received_bind_eq_nil (received_indexData data) (fun _ _ => rfl), List.append_nil]

/-- Catching up succeeds only with an answer that fits together, and hands back how far it reaches. -/
theorem answer_of_catchUp {report : SyncReport} {last : Timestamp}
    (h : ((catchUp window).run site).1 = .ok (report, last)) :
    ∃ data, ((Call.data window).run site).1 = .ok data ∧ data.WellFormed ∧ last = data.lastTimestamp ∧
      report.indexed + report.skipped = data.infos.length := by
  cases hanswer : ((Call.data window).run site).1 with
  | error e =>
    rw [run_catchUp_refused hanswer] at h
    cases h
  | ok data =>
    rw [run_catchUp_answered hanswer] at h
    obtain ⟨report', hindex, h⟩ := run_bind_eq_ok h
    obtain ⟨rfl, rfl⟩ := Prod.mk.inj (Except.ok.inj h)
    obtain ⟨blobs, hblobs, hindex⟩ := run_bind_eq_ok hindex
    rw [run_ofExcept] at hblobs
    obtain ⟨hwell, hlength⟩ := length_of_blobsOf hblobs
    refine ⟨data, rfl, hwell, rfl, ?_⟩
    rw [report_of_indexBlobs hindex, hlength, Nat.add_zero, Nat.zero_add]

/-- An answer that does not fit together is refused before anything is indexed. -/
theorem run_catchUp_malformed {data : StorageData} (h : ((Call.data window).run site).1 = .ok data)
    (hmalformed : ¬ data.WellFormed) : ∃ reason,
      (catchUp window).run site = (.error (.malformedAnswer reason), ((Call.data window).run site).2) := by
  obtain ⟨reason, hblobs⟩ := blobsOf_malformed hmalformed
  refine ⟨reason, ?_⟩
  rw [run_catchUp_answered h, indexData, hblobs]
  rfl

/-! ## Set-up and synchronization -/

/-- A synchronization catches up from the watermark to the present. -/
theorem run_synchronize (watermark : Timestamp) (site : Site) :
    (synchronize watermark).run site = (catchUp (some (.between watermark site.serviceTime))).run site ∧
      (synchronize watermark).received site =
        (catchUp (some (.between watermark site.serviceTime))).received site := by
  have hnow : (now.run site).1 = .ok site.serviceTime := rfl
  exact ⟨run_bind_ok hnow, received_bind_ok hnow⟩

theorem records_run_lastTimestamp (site : Site) :
    ((ofIndex .lastTimestamp).run site).2.index.store.records = site.index.store.records := by
  rw [run_ofIndex]
  exact (StoreM.readsOnly_load? (α := Timestamp) .lastTimestamp site.index.store).records

/-- What a set-up does once it has found the latest time of all blocks. -/
def resume : Option Timestamp → Task Timestamp
  | none => do return (← catchUp none).2
  | some last => do return (← catchUp (some (.between last (← now)))).2

theorem setUp_eq : setUp = (do
    ofIndex .setUpIndex
    ofStorage .setUpStorage
    resume (← ofIndex .lastTimestamp)) := rfl

/-- The window from the latest time on. -/
def resumeWindow (last : Option Timestamp) (site : Site) : Option Window :=
  last.map fun last => .between last site.serviceTime

theorem run_resume_eq (last : Option Timestamp) (site : Site) :
    (resume last).run site = (((catchUp (resumeWindow last site)).run site).1.map Prod.snd,
        ((catchUp (resumeWindow last site)).run site).2) ∧
      (resume last).received site = (catchUp (resumeWindow last site)).received site := by
  have hrest (window : Option Window) :
      (catchUp window >>= fun answer => pure answer.2 : Task Timestamp).run site =
        (((catchUp window).run site).1.map Prod.snd, ((catchUp window).run site).2) ∧
      (catchUp window >>= fun answer => pure answer.2 : Task Timestamp).received site =
        (catchUp window).received site := by
    refine ⟨by rw [← map_eq_pure_bind, run_map], ?_⟩
    cases h : ((catchUp window).run site).1 with
    | error e => rw [received_bind_error h]
    | ok answer => exact (received_bind_ok h).trans (List.append_nil _)
  cases last with
  | none => exact hrest none
  | some last =>
    have hnow : (now.run site).1 = .ok site.serviceTime := rfl
    obtain ⟨hrun, hreceived⟩ := hrest (some (.between last site.serviceTime))
    exact ⟨(run_bind_ok hnow).trans hrun, (received_bind_ok hnow).trans hreceived⟩

/-- A set-up either fails before the storage is asked for data, or it ends as catching up does. Up to there no record
has changed. -/
theorem setUp_cases (site : Site) :
    (∃ e, (setUp.run site).1 = .error e) ∧ setUp.received site = [] ∧
        (setUp.run site).2.index.store.records = site.index.store.records ∨
      ∃ window site₁, site₁.index.store.records = site.index.store.records ∧
        setUp.run site = (((catchUp window).run site₁).1.map Prod.snd, ((catchUp window).run site₁).2) ∧
        setUp.received site = (catchUp window).received site₁ := by
  have hindex : (ofIndex .setUpIndex).received site = [] := received_ofIndex _ site rfl
  have hrecords : ((ofIndex .setUpIndex).run site).2.index.store.records = site.index.store.records := by
    rw [run_setUpIndex]
    split <;> rfl
  rw [setUp_eq]
  cases hset : ((ofIndex .setUpIndex).run site).1 with
  | error e =>
    rw [run_bind_error hset, received_bind_error hset]
    exact .inl ⟨⟨e, rfl⟩, hindex, hrecords⟩
  | ok u =>
    rw [run_bind_ok hset, received_bind_ok hset, hindex, List.nil_append]
    generalize ((ofIndex .setUpIndex).run site).2 = site₁ at hrecords
    have hstorage : (ofStorage .setUpStorage).received site₁ = [] := received_ofStorage _ site₁
    have hrecords₂ : ((ofStorage .setUpStorage).run site₁).2.index.store.records = site.index.store.records := by
      rw [run_ofStorage]
      exact hrecords
    cases hstart : ((ofStorage .setUpStorage).run site₁).1 with
    | error e =>
      rw [run_bind_error hstart, received_bind_error hstart]
      exact .inl ⟨⟨e, rfl⟩, hstorage, hrecords₂⟩
    | ok u =>
      rw [run_bind_ok hstart, received_bind_ok hstart, hstorage, List.nil_append]
      generalize ((ofStorage .setUpStorage).run site₁).2 = site₂ at hrecords₂
      have hlast : (ofIndex .lastTimestamp).received site₂ = [] := received_ofIndex _ site₂ rfl
      have hrecords₃ := (records_run_lastTimestamp site₂).trans hrecords₂
      cases hfound : ((ofIndex .lastTimestamp).run site₂).1 with
      | error e =>
        rw [run_bind_error hfound, received_bind_error hfound]
        exact .inl ⟨⟨e, rfl⟩, hlast, hrecords₃⟩
      | ok last =>
        rw [run_bind_ok hfound, received_bind_ok hfound, hlast, List.nil_append]
        obtain ⟨hrun, hreceived⟩ := run_resume_eq last ((ofIndex .lastTimestamp).run site₂).2
        exact .inr ⟨_, _, hrecords₃, hrun, hreceived⟩

end Task

end Invoicing
