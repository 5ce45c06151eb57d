import Invoicing.Proofs.Block
import Invoicing.Proofs.Index.Failure
import Invoicing.Proofs.Service.Run

set_option autoImplicit false

/-! # Storing that fails

A transaction is stored before its block is indexed, and the log takes nothing back. So an error of the index leaves a
blob behind, and this is all that an error can leave (`DataService.persist_error`). -/

namespace Invoicing

theorem BlobLog.append_eq_self_iff {log : BlobLog} {content : String} {time : Timestamp} :
    (log.append content time).2 = log ↔ (log.find? (ContentHash.ofText content)).isSome := by
  simp only [append]
  cases hfind : log.find? (ContentHash.ofText content) with
  | some blob => simp
  | none =>
    constructor
    · intro h
      have hlength := congrArg BlobLog.size h
      simp [size] at hlength
    · intro h
      cases h

namespace Task

variable {site : Site} {t : Transaction} {channel : String} {topics : List String} {e : ServiceError}

/-- If a transaction with good topics is not accepted, then the index has failed, with the transaction in the log. -/
theorem run_persist_error (hscript : site.storage.script = .empty) (htopics : checkTopics topics = .ok ())
    (herror : ((persist t channel topics).run site).1 = .error e) :
    let site' := ((persist t channel topics).run site).2
    (∃ failure, e = .index failure) ∧ site'.index.store.records = site.index.store.records ∧
      site'.storage.log =
        (site.storage.log.append (Block.empty.push t channel topics).render site.clock.now).2 := by
  have hrun : (persist t channel topics).run site = _ := run_persist_stored hscript htopics
  obtain ⟨a, ha⟩ : ∃ a, a = site.additionFor t channel topics := ⟨_, rfl⟩
  obtain ⟨log, hlog⟩ : ∃ log, log =
    (site.storage.log.append (Block.empty.push t channel topics).render site.clock.now).2 := ⟨_, rfl⟩
  rw [← ha, ← hlog] at hrun
  rw [← hlog]
  have hcall : (ofIndex (.add a.location a.header a.timestamp)).run { site with storage.log := log } =
      (((Index.add a.location a.header a.timestamp).run.run site.index.store).1.mapError .index,
        { site with
          storage.log := log
          index.store := ((Index.add a.location a.header a.timestamp).run.run site.index.store).2 }) :=
    run_ofIndex _ _
  cases hadd : ((Index.add a.location a.header a.timestamp).run.run site.index.store).1 with
  | ok _ =>
    rw [hadd] at hcall
    rw [hrun, run_bind_ok (congrArg Prod.fst hcall)] at herror
    exact nomatch herror
  | error failure =>
    rw [hadd] at hcall
    have hout : (persist t channel topics).run site = _ := hrun.trans (run_bind_error (congrArg Prod.fst hcall))
    rw [hcall] at hout
    rw [hout] at herror ⊢
    exact ⟨⟨failure, (Except.error.inj herror).symm⟩, Index.records_add_error hadd, rfl⟩

end Task

namespace DataService

/-- **What an error leaves behind.** Whatever the store of the index does and whatever its records spell, a transaction
that is not accepted changes no record of the index and does not move the watermark. If it was refused, because the
service was not set up or for its topics, then nothing has changed at all. Otherwise it is the index that has failed,
and the transaction is in the log all the same: the log is as before only if it had the content already. -/
theorem persist_error (s : DataService) (hscript : s.engine.site.storage.script = .empty) (t : Transaction)
    (channel : String) (topics : List String) (e : ServiceError) (herror : (s.persist t channel topics).1 = .error e) :
    let s' := (s.persist t channel topics).2
    let content := (Block.empty.push t channel topics).render
    let log := s.engine.site.storage.log
    let log' := s'.engine.site.storage.log
    s'.engine.isReady = s.engine.isReady ∧ s'.engine.watermark = s.engine.watermark ∧
      s'.engine.site.index.store.records = s.engine.site.index.store.records ∧
      (s' = s ∧ (s.engine.isReady = false ∧ e = .notReady ∨ Task.checkTopics topics = .error e) ∨
        (∃ failure, e = .index failure) ∧ log' = (log.append content s.engine.site.clock.now).2 ∧
          (log' = log ↔ (log.find? (ContentHash.ofText content)).isSome)) := by
  intro s' content log log'
  by_cases hready : s.engine.isReady = true
  · have hperform := Engine.perform_ready hready (Task.persist t channel topics)
    have hs' : s' = { s with
        engine := { s.engine with site := ((Task.persist t channel topics).run s.engine.site).2 } } :=
      congrArg (fun out => { s with engine := out.2 }) hperform
    have hresult : ((Task.persist t channel topics).run s.engine.site).1 = .error e :=
      (congrArg Prod.fst hperform).symm.trans herror
    cases htopics : Task.checkTopics topics with
    | error refusal =>
      rw [Task.run_persist_malformed htopics] at hs' hresult
      have hsame : s' = s := hs'
      rw [hsame]
      exact ⟨rfl, rfl, rfl, .inl ⟨rfl, .inr (congrArg Except.error (Except.error.inj hresult))⟩⟩
    | ok _ =>
      obtain ⟨hfailure, hrecords, hlog⟩ := Task.run_persist_error hscript htopics hresult
      have hlog' : log' = (log.append content s.engine.site.clock.now).2 :=
        (congrArg (·.engine.site.storage.log) hs').trans hlog
      refine ⟨congrArg (·.engine.isReady) hs', congrArg (·.engine.watermark) hs',
        (congrArg (·.engine.site.index.store.records) hs').trans hrecords, .inr ⟨hfailure, hlog', ?_⟩⟩
      rw [hlog']
      exact BlobLog.append_eq_self_iff
  · have hperform := Engine.perform_not_ready hready (Task.persist t channel topics)
    have hsame : s' = s := congrArg (fun out => { s with engine := out.2 }) hperform
    have he : e = .notReady := Except.error.inj (herror.symm.trans (congrArg Prod.fst hperform))
    rw [hsame]
    exact ⟨rfl, rfl, rfl, .inl ⟨rfl, .inl ⟨by simpa using hready, he⟩⟩⟩

/-- A service that is set up, and whose index then fails at its first read. -/
def trialFailing : DataService :=
  let s := new .brisk (.empty 10) 0
  { s with engine := s.engine.after [.setUp, .schedule .never (Faults.never.next 1) .never] }

/-- In the trial the error of the index leaves one blob in a log that was empty. -/
theorem persist_error_trial :
    let out := trialFailing.persist Block.trialTransaction Block.trialChannel []
    out.1 = .error (.index (.store ⟨"injected get failure"⟩)) ∧
      out.2.engine.site.index.store.records = trialFailing.engine.site.index.store.records ∧
      trialFailing.engine.site.storage.log.size = 0 ∧ out.2.engine.site.storage.log.size = 1 := by
  intro out
  have herror : out.1 = .error (.index (.store ⟨"injected get failure"⟩)) := rfl
  obtain ⟨-, -, hrecords, ⟨-, ⟨hready, -⟩ | htopics⟩ | ⟨-, hlog, -⟩⟩ :=
    persist_error trialFailing rfl Block.trialTransaction Block.trialChannel [] _ herror
  · exact nomatch (rfl : trialFailing.engine.isReady = true).symm.trans hready
  · exact nomatch (rfl : Task.checkTopics [] = .ok ()).symm.trans htopics
  · refine ⟨herror, hrecords, rfl, ?_⟩
    rw [hlog]
    rfl

end DataService

end Invoicing
