import Invoicing.Proofs.Service.Lifecycle
import Invoicing.Proofs.Service.Restart

set_option autoImplicit false

/-! # A second set-up

A set-up takes the index before it does anything that can fail, and nothing ever gives the index back. So a service
whose first set-up fails cannot be set up any more, even if everything works by then (`DataService.setUp_once`); only a
new service with a new index can be. -/

namespace Invoicing

/-! ## Records that can be read -/

namespace Records

/-- Every record spells a value of its kind. -/
structure Legible (records : Records) : Prop where
  location (l : String) : Spells Timestamp records (.location l)
  channel (c : String) : Spells (List String) records (.channel c)
  topic (t : String) : Spells (Dict String Timestamp) records (.topic t)
  lastTimestamp : Spells Timestamp records .lastTimestamp

theorem legible_empty : Legible .empty where
  location _ := nofun
  channel _ := nofun
  topic _ := nofun
  lastTimestamp := nofun

variable {records : Records}

theorem Legible.readableFor (h : records.Legible) (location : String) (header : BlockHeader) :
    records.ReadableFor location header :=
  ⟨h.location location, fun c _ => h.channel c, fun t _ => h.topic t, h.lastTimestamp⟩

/-- What is written over a record that spells a value spells one as well. -/
theorem Spells.write_batchFor {α : Type} [Record α] {key : RecordKey} {location : String} {header : BlockHeader}
    {timestamp : Timestamp} (h : Spells α records key)
    (hwritten : ∀ bytes, records.written? location header timestamp key = some bytes → ∃ a : α, bytes = Record.encode a)
    [LawfulRecord α] : Spells α (records.write (records.batchFor location header timestamp)) key := by
  intro bytes hbytes
  rw [get?_write_batchFor] at hbytes
  cases hw : records.written? location header timestamp key with
  | none =>
    rw [hw, Option.none_or] at hbytes
    exact h bytes hbytes
  | some written =>
    rw [hw, Option.some_or] at hbytes
    obtain ⟨a, rfl⟩ := hwritten written hw
    rw [← Option.some.inj hbytes, Record.decode?_encode]
    rfl

/-- A block is written in such a way that it can be read. -/
theorem Legible.write_batchFor (h : records.Legible) (location : String) (header : BlockHeader)
    (timestamp : Timestamp) : (records.write (records.batchFor location header timestamp)).Legible where
  location l := (h.location l).write_batchFor fun _ hw => ⟨_, (Option.ite_some_none_eq_some.1 hw).2.symm⟩
  channel c := (h.channel c).write_batchFor fun _ hw => ⟨_, (Option.ite_some_none_eq_some.1 hw).2.symm⟩
  topic t := (h.topic t).write_batchFor fun _ hw => ⟨_, (Option.ite_some_none_eq_some.1 hw).2.symm⟩
  lastTimestamp := h.lastTimestamp.write_batchFor fun _ hw => ⟨_, (Option.ite_some_none_eq_some.1 hw).2.symm⟩

theorem Legible.admits (hl : records.Legible) (h : History) : records.Admits h := by
  induction h generalizing records with
  | nil => trivial
  | cons a h ih => exact ⟨hl.readableFor a.location a.header, ih (hl.write_batchFor _ _ _)⟩

end Records

/-! ## When a set-up succeeds -/

/-- Every collaborator works, and `data` is what the storage has to say to a set-up. -/
structure Site.Serves (site : Site) (data : StorageData) : Prop where
  setUp : site.storage.script.setUpFailures = []
  quiet : site.index.store.Quiet
  legible : site.index.store.records.Legible
  answer : ((Call.data (Task.resumeWindow site.index.store.records.lastTime? site)).run site).1 = .ok data
  wellFormed : data.WellFormed

namespace Task

/-- With records that can be read, and a store that does not fail, all blobs are indexed. -/
theorem run_indexBlobs_legible {site : Site} (hlegible : site.index.store.records.Legible)
    (hquiet : site.index.store.Quiet) (report : SyncReport) (blobs : List Blob) :
    ∃ report', ((indexBlobs report blobs).run site).1 = .ok report' := by
  rw [run_indexBlobs_eq]
  rcases Index.run_addAll_cases site.index.store (additionsOf blobs) with ⟨hok, -⟩ | ⟨-, -, hnot⟩
  · rw [hok]
    exact ⟨_, rfl⟩
  · exact absurd ⟨hquiet, hlegible.admits _⟩ hnot

/-- A set-up succeeds with an index that was not taken, while every collaborator works. -/
theorem run_setUp_serves {site : Site} {data : StorageData} (hserves : site.Serves data)
    (hidle : site.index.isReady = false) : (setUp.run site).1 = .ok data.lastTimestamp := by
  have hindex := run_setUpIndex site
  rw [hidle, if_neg Bool.false_ne_true] at hindex
  -- Only the index has changed when the storage is asked for data.
  obtain ⟨site₁, hsite₁⟩ : ∃ site₁ : Site, site₁ = { site with index.isReady := true } := ⟨_, rfl⟩
  rw [← hsite₁] at hindex
  have hstorage : (ofStorage .setUpStorage).run site₁ = (.ok (), site₁) := by
    rw [run_ofStorage, hsite₁]
    simp only [Call.run, Call.onStorage, StorageNode.setUp, hserves.setUp]
    rfl
  have hlegible : site₁.index.store.records.Legible := hsite₁ ▸ hserves.legible
  have hquiet : site₁.index.store.Quiet := hsite₁ ▸ hserves.quiet
  have hlast := Index.answers_lastTimestamp hlegible.lastTimestamp
  obtain ⟨hro, hfound | ⟨hnq, -⟩⟩ := run_ofIndex_answers (c := .lastTimestamp) rfl hlast
  · rw [setUp_eq, run_bind_ok (congrArg Prod.fst hindex), hindex, run_bind_ok (congrArg Prod.fst hstorage), hstorage,
      run_bind_ok hfound, (run_resume_eq _ _).1]
    have hanswer : ((Call.data (resumeWindow site₁.index.store.records.lastTime?
        ((ofIndex .lastTimestamp).run site₁).2)).run ((ofIndex .lastTimestamp).run site₁).2).1 = .ok data := by
      rw [run_ofIndex, hsite₁]
      exact hserves.answer
    obtain ⟨blobs, hblobs⟩ := exists_blobsOf hserves.wellFormed
    have hlegible₂ : ((ofIndex .lastTimestamp).run site₁).2.index.store.records.Legible :=
      hro.store.records ▸ hlegible
    generalize ((ofIndex .lastTimestamp).run site₁).2 = site₂ at hro hanswer hlegible₂
    generalize resumeWindow site₁.index.store.records.lastTime? site₂ = window at hanswer
    obtain ⟨report, hreport⟩ := @run_indexBlobs_legible ((Call.data window).run site₂).2 hlegible₂
      (hro.store.store_quiet hquiet) ⟨0, 0⟩ blobs
    have hindexed : ((indexData data).run ((Call.data window).run site₂).2).1 = .ok report := by
      rw [indexData, hblobs]
      exact hreport
    rw [run_catchUp_answered hanswer, run_bind_ok hindexed]
    rfl
  · exact absurd hquiet.reading hnq

end Task

/-! ## An index that is taken -/

/-- Nothing gives an index back. -/
theorem Call.isReady_run {α : Type} (c : Call α) {site : Site} (h : site.index.isReady = true) :
    (c.run site).2.index.isReady = true := by
  cases c with
  | setUpIndex =>
    show (site.index.setUp).2.isReady = true
    rw [Index.setUp, if_pos h]
    exact h
  | _ => exact h

theorem Program.isReady_run {α : Type} (p : Program α) {site : Site} (h : site.index.isReady = true) :
    (p.run site).2.index.isReady = true := by
  induction p generalizing site with
  | done a => exact h
  | call c next ih => exact ih _ (c.isReady_run h)

/-- A set-up takes the index, whatever comes of it. -/
theorem Task.isReady_setUp (site : Site) : (Task.setUp.run site).2.index.isReady = true := by
  have hindex := run_setUpIndex site
  by_cases hidle : site.index.isReady = true
  · exact Program.isReady_run (ExceptT.run setUp) hidle
  · rw [if_neg hidle] at hindex
    rw [setUp_eq, run_bind_ok (congrArg Prod.fst hindex), hindex]
    refine Program.isReady_run _ ?_
    rfl

namespace Engine

variable {e : Engine}

/-- A set-up of an engine that is not ready is refused as soon as the index is taken. -/
theorem setUp_refused (hready : e.isReady = false) (hindex : e.site.index.isReady = true) :
    e.setUp = (.error (.index .alreadyReady), e) := by
  have hrun : Task.setUp.run e.site = (.error (.index .alreadyReady), e.site) := by
    have hcall := Task.run_setUpIndex e.site
    rw [if_pos hindex] at hcall
    rw [Task.setUp_eq, Task.run_bind, hcall]
  rw [Engine.setUp, if_neg (by simp [hready]), hrun]

/-- An engine that is not ready is set up with the storage's answer, if its index is not taken and all works. -/
theorem setUp_serves {data : StorageData} (hready : e.isReady = false) (hindex : e.site.index.isReady = false)
    (hserves : e.site.Serves data) : e.setUp.1 = .ok () ∧ e.setUp.2.isReady = true ∧
      e.setUp.2.watermark = data.lastTimestamp := by
  have hok := Task.run_setUp_serves hserves hindex
  rw [Engine.setUp, if_neg (by simp [hready])]
  generalize Task.setUp.run e.site = out at hok
  obtain ⟨result, site⟩ := out
  cases hok
  exact ⟨rfl, rfl, rfl⟩

theorem isReady_setUp (hready : e.isReady = false) : e.setUp.2.site.index.isReady = true := by
  have htaken := Task.isReady_setUp e.site
  rw [Engine.setUp, if_neg (by simp [hready])]
  generalize Task.setUp.run e.site = out at htaken
  obtain ⟨result, site⟩ := out
  cases result <;> exact htaken

/-- As long as the engine is not ready, no move but a set-up does anything to the index's readiness. -/
theorem indexReady_move (hready : e.isReady = false) {m : Move} (hm : m ≠ .event .setUp) :
    (e.move m).site.index.isReady = e.site.index.isReady := by
  have hperform {α : Type} (task : Task α) : e.perform task = (.error .notReady, e) :=
    perform_not_ready (by simp [hready]) task
  cases m with
  | surround site => rfl
  | event event =>
    cases event with
    | setUp => exact absurd rfl hm
    | synchronize =>
      show e.synchronize.2.site.index.isReady = _
      rw [Engine.synchronize, hperform]
    | persist t channel topics => exact congrArg (·.2.site.index.isReady) (hperform (Task.persist t channel topics))
    | readChannel channel window =>
      exact congrArg (·.2.site.index.isReady) (hperform (Task.channelEntries channel window))
    | readTopics topics window => exact congrArg (·.2.site.index.isReady) (hperform (Task.topicsEntries topics window))
    | append content time => rfl
    | setClock now => rfl
    | schedule data reads writes => rfl

/-- If the engine is still not ready after a run, its index is taken exactly if it was so before or a set-up was
tried. -/
theorem indexReady_play {moves : List Move} (hready : (e.play moves).isReady = false) :
    (e.play moves).site.index.isReady = true ↔ e.site.index.isReady = true ∨ .event .setUp ∈ moves := by
  induction moves generalizing e with
  | nil => simp
  | cons m moves ih =>
    rw [play_cons] at hready ⊢
    -- An engine that is ready once stays so.
    have hbefore : (e.move m).isReady = false := by
      by_contra hset
      rw [(isReady_play (e.move m) moves).2 (.inl (by simpa using hset))] at hready
      cases hready
    have hidle : e.isReady = false := by
      by_contra hset
      rw [(isReady_move e m).2 (.inl (by simpa using hset))] at hbefore
      cases hbefore
    rw [ih hready, List.mem_cons]
    by_cases hm : m = .event .setUp
    · subst hm
      exact ⟨fun _ => .inr (.inl rfl), fun _ => .inl (isReady_setUp hidle)⟩
    · rw [indexReady_move hidle hm]
      exact or_congr_right ⟨.inr, fun h => h.resolve_left (Ne.symm hm)⟩

end Engine

namespace DataService

/-- **There is one attempt at a set-up.** Take any run after which the service is not set up, whatever happened to its
site. If a set-up was tried in it, then every further one is refused by the index and changes nothing, even while all
collaborators work. A first set-up succeeds while they work, and so does one of a new service with a renewed index. -/
theorem setUp_once (site : Site) (hidle : site.index.isReady = false) (moves : List Move) (s : DataService)
    (hs : s.engine = (Engine.new site).play moves) (hready : s.engine.isReady = false) :
    (.event .setUp ∈ moves → s.setUp = (.error (.index .alreadyReady), s)) ∧
    ∀ data, s.engine.site.Serves data →
      (s.setUp.1 = .ok () ↔ .event .setUp ∉ moves) ∧
      (.event .setUp ∉ moves → s.setUp.1 = .ok () ∧ s.setUp.2.engine.isReady = true ∧
        s.setUp.2.engine.watermark = data.lastTimestamp) ∧
      let renewed := s.replaced { s.engine.site with index := s.engine.site.index.renewed }
      renewed.setUp.1 = .ok () ∧ renewed.setUp.2.engine.isReady = true ∧
        renewed.setUp.2.engine.watermark = data.lastTimestamp := by
  have htaken : s.engine.site.index.isReady = true ↔ .event .setUp ∈ moves := by
    rw [hs] at hready ⊢
    rw [Engine.indexReady_play hready]
    simp [Engine.new, hidle]
  have hrefused (htried : .event .setUp ∈ moves) : s.setUp = (.error (.index .alreadyReady), s) := by
    rw [DataService.setUp, onEngine, Engine.setUp_refused hready (htaken.2 htried)]
  have hfirst {data : StorageData} (hserves : s.engine.site.Serves data) (hnew : .event .setUp ∉ moves) :
      s.setUp.1 = .ok () ∧ s.setUp.2.engine.isReady = true ∧ s.setUp.2.engine.watermark = data.lastTimestamp :=
    Engine.setUp_serves hready (by simpa [hnew] using htaken) hserves
  refine ⟨hrefused, fun data hserves => ⟨⟨fun hok htried => ?_, fun hnew => (hfirst hserves hnew).1⟩, hfirst hserves, ?_⟩⟩
  · rw [hrefused htried] at hok
    cases hok
  · exact @Engine.setUp_serves s.engine.restarted data rfl rfl
      ⟨hserves.setUp, hserves.quiet, hserves.legible, hserves.answer, hserves.wellFormed⟩

/-- The storage refuses the first query for data and then works again. -/
def trialRetry : List Move :=
  [.event (.schedule (Faults.never.next 1) .never .never), .event .setUp,
    .event (.schedule .never .never .never)]

/-- In the trial everything works by the second set-up, which is refused all the same. -/
theorem setUp_once_trial : ∃ s : DataService, ∃ data, s.engine = (Engine.new (.empty 10)).play trialRetry ∧
    s.engine.isReady = false ∧ s.engine.site.Serves data ∧ s.setUp = (.error (.index .alreadyReady), s) ∧
    s.setUp.1 ≠ .ok () ∧
    let renewed := s.replaced { s.engine.site with index := s.engine.site.index.renewed }
    renewed.setUp.1 = .ok () ∧ renewed.setUp.2.engine.watermark = 10 := by
  obtain ⟨e, he⟩ : ∃ e, e = (Engine.new (.empty 10)).play trialRetry := ⟨_, rfl⟩
  let s : DataService := ⟨.brisk, e, .new 0 1 0⟩
  have hs : s.engine = (Engine.new (.empty 10)).play trialRetry := he
  have hready : s.engine.isReady = false := by
    rw [hs]
    decide +kernel
  have hserves : s.engine.site.Serves (BlobLog.empty.data none 10) := by
    rw [hs]
    exact ⟨rfl, ⟨Faults.quiet_never, Faults.quiet_never⟩, Records.legible_empty, rfl, [], [], rfl, rfl, rfl, rfl⟩
  have htried : .event .setUp ∈ trialRetry := List.mem_cons_of_mem _ List.mem_cons_self
  obtain ⟨hrefused, hworks⟩ := setUp_once (.empty 10) rfl trialRetry s hs hready
  obtain ⟨hiff, -, hok, -, hwatermark⟩ := hworks _ hserves
  exact ⟨s, _, hs, hready, hserves, hrefused htried, fun hset => hiff.1 hset htried, hok, hwatermark⟩

end DataService

end Invoicing
