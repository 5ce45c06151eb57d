import Invoicing.Proofs.Service.Replay

set_option autoImplicit false

/-! # Synchronizations that are cut short

Whatever the index holds and wherever its store fails, a synchronization has added some blocks from the front of the
storage's answer, and nothing else. When the same answer is indexed again, these blocks are known and change no byte, so
a second attempt that succeeds ends where a single one would have ended (`Engine.synchronize_retried`). -/

namespace Invoicing

namespace Engine

/-- A synchronization that receives an answer indexes it, with the index as it is. -/
theorem synchronize_answered {e : Engine} {data : StorageData} (hdata : .ok data ∈ e.received (.event .synchronize)) :
    ∃ site : Site, site.index = e.site.index ∧
      e.synchronize = match (Task.indexData data).run site with
        | (.ok report, site') => (.ok report, ⟨e.isReady, data.lastTimestamp, site'⟩)
        | (.error error, site') => (.error error, { e with site := site' }) := by
  have hready : e.isReady = true := by
    by_contra hnot
    rw [received, receivedBy, if_neg hnot] at hdata
    cases hdata
  rw [received, receivedBy, if_pos hready] at hdata
  obtain ⟨hrun, hanswers⟩ := Task.run_synchronize e.watermark e.site
  rw [hanswers, Task.received_catchUp, List.mem_singleton] at hdata
  rw [Engine.synchronize, perform_ready hready, hrun, Task.run_catchUp_answered hdata.symm, Task.run_bind]
  refine ⟨((Call.data (some (.between e.watermark e.site.serviceTime))).run e.site).2, rfl, ?_⟩
  generalize ((Call.data _).run e.site).2 = site
  rcases (Task.indexData data).run site with ⟨_ | _, _⟩ <;> rfl

/-- A synchronization that receives some blobs adds the blocks among them, and if that succeeds it counts the blobs. -/
theorem synchronize_eq {e : Engine} {data : StorageData} {blobs : List Blob} {result : Except IndexError Unit}
    {store : Store} (hdata : .ok data ∈ e.received (.event .synchronize)) (hblobs : Task.blobsOf data = .ok blobs)
    (hrun : (Index.addAll (additionsOf blobs)).run.run e.site.index.store = (result, store)) :
    e.synchronize.1 = (result.mapError ServiceError.index).map (fun _ => Task.SyncReport.counting ⟨0, 0⟩ blobs) ∧
      e.synchronize.2.site.index.store = store ∧
      (result = .ok () → e.synchronize.2.watermark = data.lastTimestamp) := by
  obtain ⟨site, hindex, hsync⟩ := synchronize_answered hdata
  have hindexed : (Task.indexData data).run site = (Task.indexBlobs ⟨0, 0⟩ blobs).run site := by
    rw [Task.indexData, hblobs]
    rfl
  rw [hindexed, Task.run_indexBlobs_eq, hindex, hrun] at hsync
  rw [hsync]
  cases result with
  | error e =>
    refine ⟨rfl, rfl, ?_⟩
    intro hok
    cases hok
  | ok u => exact ⟨rfl, rfl, fun _ => rfl⟩

/-- How a synchronization ends that receives some blobs, on any records and whichever calls fail. -/
theorem synchronize_cases {e : Engine} {data : StorageData} {blobs : List Blob}
    (hdata : .ok data ∈ e.received (.event .synchronize)) (hblobs : Task.blobsOf data = .ok blobs) :
    let out := e.synchronize
    let records := e.site.index.store.records
    out.1 = .ok (Task.SyncReport.counting ⟨0, 0⟩ blobs) ∧ records.Admits (additionsOf blobs) ∧
        out.2.site.index.store.records = records.addAll (additionsOf blobs) ∧ out.2.watermark = data.lastTimestamp ∨
      (∃ error, out.1 = .error error) ∧
        (∃ done, done <+: additionsOf blobs ∧ records.Admits done ∧
          out.2.site.index.store.records = records.addAll done) ∧
        ¬ (e.site.index.store.Quiet ∧ records.Admits (additionsOf blobs)) := by
  intro out records
  have hcases := Index.run_addAll_cases e.site.index.store (additionsOf blobs)
  rcases hrun : (Index.addAll (additionsOf blobs)).run.run e.site.index.store with ⟨result, store⟩
  obtain ⟨hresult, rfl, hreach⟩ := synchronize_eq hdata hblobs hrun
  rw [hrun] at hcases
  rcases hcases with ⟨hok, hadmits, hrecords, -⟩ | ⟨⟨error, herror⟩, hdone, hnot⟩
  · cases hok
    exact .inl ⟨hresult, hadmits, hrecords, hreach rfl⟩
  · cases herror
    exact .inr ⟨⟨_, hresult⟩, hdone, hnot⟩

/-- Whether it fails or not, a synchronization has added some blocks from the front of the answer. -/
theorem exists_addAll_synchronize {e : Engine} {data : StorageData} {blobs : List Blob}
    (hdata : .ok data ∈ e.received (.event .synchronize)) (hblobs : Task.blobsOf data = .ok blobs) :
    ∃ done, done <+: additionsOf blobs ∧ e.site.index.store.records.Admits done ∧
      e.synchronize.2.site.index.store.records = e.site.index.store.records.addAll done := by
  rcases synchronize_cases hdata hblobs with ⟨-, hadmits, hrecords, -⟩ | ⟨-, hdone, -⟩
  · exact ⟨_, List.prefix_rfl, hadmits, hrecords⟩
  · exact hdone

/-- **A retried synchronization ends where an undisturbed one does.** An engine receives an answer, and the indexing of
it may fail at any point, or not. A second attempt with the records that this leaves and a direct one with the records
of the beginning receive the same answer. While no call fails each of them succeeds if the other one does; and if both
succeed, they come to the same report, the same records and the same watermark. -/
theorem synchronize_retried {e retried direct : Engine} {data : StorageData}
    (hdata : .ok data ∈ e.received (.event .synchronize))
    (hretried : .ok data ∈ retried.received (.event .synchronize))
    (hdirect : .ok data ∈ direct.received (.event .synchronize))
    (hleft : retried.site.index.store.records = e.synchronize.2.site.index.store.records)
    (hbegun : direct.site.index.store.records = e.site.index.store.records) :
    (∀ report, retried.synchronize.1 = .ok report → direct.site.index.store.Quiet →
      direct.synchronize.1 = .ok report) ∧
    (∀ report, direct.synchronize.1 = .ok report → retried.site.index.store.Quiet →
      retried.synchronize.1 = .ok report) ∧
    ∀ report report', retried.synchronize.1 = .ok report → direct.synchronize.1 = .ok report' →
      report = report' ∧
      retried.synchronize.2.site.index.store.records = direct.synchronize.2.site.index.store.records ∧
      retried.synchronize.2.watermark = direct.synchronize.2.watermark := by
  by_cases hwell : data.WellFormed
  · obtain ⟨blobs, hblobs⟩ := Task.exists_blobsOf hwell
    obtain ⟨done, hinit, hdone, hrecords⟩ := exists_addAll_synchronize hdata hblobs
    obtain ⟨hsame, hadmits⟩ := Records.addAll_after_prefix hinit hdone
    have hagain := synchronize_cases hretried hblobs
    have honce := synchronize_cases hdirect hblobs
    simp only [hleft, hrecords, hsame, hadmits] at hagain
    simp only [hbegun] at honce
    rcases hagain with ⟨hok, hreadable, hend, hreach⟩ | ⟨⟨error, herror⟩, -, hnot⟩
    · rcases honce with ⟨hok', -, hend', hreach'⟩ | ⟨⟨error, herror⟩, -, hnot⟩
      · refine ⟨fun report hreport _ => ?_, fun report hreport _ => ?_, fun report report' hreport hreport' => ?_⟩
        · rw [hok', ← hok, hreport]
        · rw [hok, ← hok', hreport]
        · rw [hok] at hreport
          rw [hok'] at hreport'
          exact ⟨Except.ok.inj (hreport.symm.trans hreport'), hend.trans hend'.symm, hreach.trans hreach'.symm⟩
      · exact ⟨fun _ _ hquiet => absurd ⟨hquiet, hreadable⟩ hnot, fun _ hok' => (nomatch hok'.symm.trans herror),
          fun _ _ _ hok' => (nomatch hok'.symm.trans herror)⟩
    · refine ⟨fun _ hok => (nomatch hok.symm.trans herror), fun _ hok' hquiet => ?_,
        fun _ _ hok => (nomatch hok.symm.trans herror)⟩
      rcases honce with ⟨-, hreadable, -⟩ | ⟨⟨error', herror'⟩, -⟩
      · exact absurd ⟨hquiet, hreadable⟩ hnot
      · exact nomatch hok'.symm.trans herror'
  · obtain ⟨⟨_, hnot⟩, -⟩ := synchronize_malformed hretried hwell
    obtain ⟨⟨_, hnot'⟩, -⟩ := synchronize_malformed hdirect hwell
    exact ⟨fun _ hok => (nomatch hok.symm.trans hnot), fun _ hok => (nomatch hok.symm.trans hnot'),
      fun _ _ hok => (nomatch hok.symm.trans hnot)⟩

/-- The answer of the trial: two blobs with the same content. -/
def trialAnswer (content : String) : StorageData :=
  ⟨some [content, content], some ["l", "m"], 99, [.ofTimestamp 5, .ofTimestamp 8]⟩

/-- An engine that is about to receive the answer of the trial. -/
def trialAttempt (content : String) (store : Store) : Engine :=
  ⟨true, 10, ⟨{ StorageNode.empty with script.data := [.ok (trialAnswer content)] }, ⟨true, store⟩, ⟨99⟩, none⟩⟩

theorem received_trialAttempt (content : String) (store : Store) :
    .ok (trialAnswer content) ∈ (trialAttempt content store).received (.event .synchronize) := by
  have hreceived : (trialAttempt content store).received (.event .synchronize) = [.ok (trialAnswer content)] := by
    rw [received, receivedBy, if_pos (show (trialAttempt content store).isReady = true from rfl),
      (Task.run_synchronize _ _).2, Task.received_catchUp]
    rfl
  exact hreceived ▸ List.mem_cons_self

/-- The blobs of the answer. -/
def trialBlobs (content : String) : List Blob :=
  [⟨"l", content, .ofTimestamp 5⟩, ⟨"m", content, .ofTimestamp 8⟩]

theorem additionsOf_trialBlobs {content : String} (hparse : Block.parse content = .ok Block.trial) :
    additionsOf (trialBlobs content) = [⟨"l", Block.trial.header, 5⟩, ⟨"m", Block.trial.header, 8⟩] ∧
      Task.SyncReport.counting ⟨0, 0⟩ (trialBlobs content) = ⟨2, 0⟩ := by
  have hblob (location : String) (time : Timestamp) :
      Blob.addition? ⟨location, content, .ofTimestamp time⟩ = some ⟨location, Block.trial.header, time⟩ := by
    simp only [Blob.addition?, hparse]
    rfl
  refine ⟨?_, ?_⟩
  · simp [trialBlobs, hblob]
  · simp [trialBlobs, Task.SyncReport.counting, hblob]

/-- In the trial the write of the second block fails at the first attempt. -/
theorem synchronize_retried_trial : ∃ e retried direct : Engine,
    (∃ error, e.synchronize.1 = .error error) ∧
    retried.site.index.store.records = e.synchronize.2.site.index.store.records ∧
    direct.site.index.store.records = e.site.index.store.records ∧
    retried.synchronize.1 = .ok ⟨2, 0⟩ ∧ direct.synchronize.1 = .ok ⟨2, 0⟩ ∧
    retried.synchronize.2.site.index.store.records = direct.synchronize.2.site.index.store.records := by
  have hparse : Block.parse Block.trial.render = .ok Block.trial := Block.parse_render_push_empty _ rfl (by decide)
  generalize Block.trial.render = content at hparse
  obtain ⟨hadditions, hcount⟩ := additionsOf_trialBlobs hparse
  have hblobs : Task.blobsOf (trialAnswer content) = .ok (trialBlobs content) := rfl
  let store : Store := { Store.empty with writing := ⟨fun n => n == 1, 0⟩ }
  have hfails : ∃ error, (trialAttempt content store).synchronize.1 = .error error := by
    have hwrite : ((Index.addAll (additionsOf (trialBlobs content))).run.run store).1 =
        .error (.store ⟨"injected write failure"⟩) := by
      rw [hadditions]
      decide +kernel
    obtain ⟨hsync, -⟩ := synchronize_eq (received_trialAttempt content store) hblobs (Prod.ext hwrite rfl)
    exact ⟨_, hsync⟩
  have hdirect : (trialAttempt content .empty).synchronize.1 = .ok ⟨2, 0⟩ := by
    rcases synchronize_cases (received_trialAttempt content .empty) hblobs with ⟨hok, -⟩ | ⟨-, -, hnot⟩
    · exact hcount ▸ hok
    · exact absurd ⟨⟨Faults.quiet_never, Faults.quiet_never⟩, Records.hold_empty.admits _⟩ hnot
  obtain ⟨left, hleft⟩ : ∃ left, left = (trialAttempt content store).synchronize.2.site.index.store.records := ⟨_, rfl⟩
  let retried := trialAttempt content { Store.empty with records := left }
  obtain ⟨-, hagain, hsame⟩ := @synchronize_retried _ retried _ _ (received_trialAttempt content store)
    (received_trialAttempt content _) (received_trialAttempt content .empty) hleft rfl
  have hretried : retried.synchronize.1 = .ok ⟨2, 0⟩ := hagain _ hdirect ⟨Faults.quiet_never, Faults.quiet_never⟩
  exact ⟨trialAttempt content store, retried, trialAttempt content .empty, hfails, hleft, rfl, hretried, hdirect,
    (hsame _ _ hretried hdirect).2.1⟩

end Engine

end Invoicing
