import Invoicing.Proofs.Service.CatchUp

set_option autoImplicit false

/-! # The watermark over whole runs

A run is a list of moves: events of the service, and whatever else happens to its site in between, so that the storage may
answer anything and the store of the index may hold anything and fail at any call. Of all that only the answers that
were processed without error count (`Engine.processedAlong`): there is one as soon as the service is set up, and the last one
says where the watermark is. -/

namespace Invoicing

/-- A step of a run. -/
inductive Move where
  | event (event : Event)
  /-- The site becomes another one, but nobody else sets the index up. -/
  | surround (site : Site)

namespace Engine

/-- The engine on another site, with its index set up or not as before. -/
def surrounded (e : Engine) (site : Site) : Engine :=
  { e with site := { site with index.isReady := e.site.index.isReady } }

/-- The engine after a move. -/
def move (e : Engine) : Move → Engine
  | .event event => e.next event
  | .surround site => e.surrounded site

/-- The engine after some moves. -/
def play (e : Engine) (moves : List Move) : Engine := moves.foldl move e

@[simp] theorem play_nil (e : Engine) : e.play [] = e := rfl

@[simp] theorem play_cons (e : Engine) (m : Move) (moves : List Move) :
    e.play (m :: moves) = (e.move m).play moves := rfl

/-! ## Answers that were processed -/

/-- The answers to the queries for data that a task makes, once the engine is set up. -/
def receivedBy {α : Type} (e : Engine) (task : Task α) : List (Except StorageError StorageData) :=
  if e.isReady then task.received e.site else []

/-- The answers to the queries for data that a move makes. -/
def received (e : Engine) : Move → List (Except StorageError StorageData)
  | .event .setUp => if e.isReady then [] else Task.setUp.received e.site
  | .event .synchronize => e.receivedBy (Task.synchronize e.watermark)
  | .event (.persist t channel topics) => e.receivedBy (Task.persist t channel topics)
  | .event (.readChannel channel window) => e.receivedBy (Task.channelEntries channel window)
  | .event (.readTopics topics window) => e.receivedBy (Task.topicsEntries topics window)
  | _ => []

/-- Is the move an operation that ends without error? -/
def succeeds (e : Engine) : Move → Bool
  | .event .setUp => e.setUp.1.isOk
  | .event .synchronize => e.synchronize.1.isOk
  | .event (.persist t channel topics) => (e.perform (Task.persist t channel topics)).1.isOk
  | .event (.readChannel channel window) => (e.perform (Task.channelEntries channel window)).1.isOk
  | .event (.readTopics topics window) => (e.perform (Task.topicsEntries topics window)).1.isOk
  | _ => false

/-- The answers that a move processes without error. -/
def processed (e : Engine) (m : Move) : List StorageData :=
  if e.succeeds m then (e.received m).filterMap Except.toOption else []

/-- The answers that some moves process without error, the latest one last. -/
def processedAlong (e : Engine) : List Move → List StorageData
  | [] => []
  | m :: moves => e.processed m ++ (e.move m).processedAlong moves

end Engine

/-! ## Tasks that ask for no data -/

theorem Program.Reads.received {α : Type} {p : Program α} (hp : p.Reads) (site : Site) : p.received site = [] := by
  induction p generalizing site with
  | done a => rfl
  | call c next ih =>
    have hcall : c.received site = [] := by
      obtain ⟨hc, -⟩ := hp
      cases hc <;> rfl
    rw [Program.received, hcall, ih _ (hp.2 _), List.nil_append]

theorem Task.received_persist (t : Transaction) (channel : String) (topics : List String) (site : Site) :
    (persist t channel topics).received site = [] := by
  unfold persist
  refine received_bind_eq_nil (received_ofExcept _) (fun _ => ?_) site
  refine received_bind_eq_nil (received_ofStorage _) fun stored => ?_
  exact received_bind_eq_nil (fun site => received_ofIndex _ site rfl) fun _ _ => rfl

namespace Engine

variable {α : Type}

theorem receivedBy_eq_nil {task : Task α} (h : ∀ site, task.received site = []) (e : Engine) :
    e.receivedBy task = [] := by
  unfold receivedBy
  split
  · exact h e.site
  · rfl

/-- Only a set-up and a synchronization ask for data. -/
theorem received_eq_nil {m : Move} (hsetUp : m ≠ .event .setUp) (hsync : m ≠ .event .synchronize) (e : Engine) :
    e.received m = [] := by
  cases m with
  | surround site => rfl
  | event event =>
    cases event with
    | setUp => exact absurd rfl hsetUp
    | synchronize => exact absurd rfl hsync
    | persist t channel topics => exact receivedBy_eq_nil (Task.received_persist t channel topics) e
    | readChannel channel window =>
      exact receivedBy_eq_nil (Program.Reads.received (Task.reads_channelEntries channel window)) e
    | readTopics topics window =>
      exact receivedBy_eq_nil (Program.Reads.received (Task.reads_topicsEntries topics window)) e
    | append content time => rfl
    | setClock now => rfl
    | schedule data reads writes => rfl

/-! ## What a move does -/

theorem isReady_perform (e : Engine) (task : Task α) :
    (e.perform task).2.isReady = e.isReady ∧ (e.perform task).2.watermark = e.watermark := by
  by_cases hready : e.isReady = true
  · rw [perform_ready hready]
    exact ⟨rfl, rfl⟩
  · rw [perform_not_ready hready]
    exact ⟨rfl, rfl⟩

/-- A set-up that fails leaves the engine as it was, its site apart. One that succeeds has processed one answer. -/
theorem setUp_outcome (e : Engine) :
    (∃ error, e.setUp.1 = .error error) ∧ e.setUp.2.isReady = e.isReady ∧ e.setUp.2.watermark = e.watermark ∨
      e.setUp.1 = .ok () ∧ e.isReady = false ∧ e.setUp.2.isReady = true ∧
        ∃ data, e.received (.event .setUp) = [.ok data] ∧ data.WellFormed ∧
          e.setUp.2.watermark = data.lastTimestamp := by
  by_cases hready : e.isReady = true
  · rw [Engine.setUp, if_pos hready]
    exact .inl ⟨⟨_, rfl⟩, rfl, rfl⟩
  · have hreceived : e.received (.event .setUp) = Task.setUp.received e.site := if_neg hready
    have hidle : e.isReady = false := by simpa using hready
    rw [Engine.setUp, if_neg hready, hreceived]
    rcases Task.setUp_cases e.site with ⟨⟨error, herror⟩, -, -⟩ | ⟨window, site₁, -, hrun, hanswers⟩
    · generalize Task.setUp.run e.site = out at herror
      obtain ⟨result, site⟩ := out
      cases herror
      exact .inl ⟨⟨error, rfl⟩, rfl, rfl⟩
    · rw [hrun, hanswers, Task.received_catchUp]
      cases hres : ((Task.catchUp window).run site₁).1 with
      | error error => exact .inl ⟨⟨error, rfl⟩, rfl, rfl⟩
      | ok answer =>
        obtain ⟨data, hdata, hwell, hlast, -⟩ := Task.answer_of_catchUp hres
        rw [hdata]
        exact .inr ⟨rfl, hidle, rfl, data, rfl, hwell, hlast⟩

/-- The same of a synchronization, which also counts every blob of the answer. -/
theorem synchronize_outcome (e : Engine) :
    (∃ error, e.synchronize.1 = .error error) ∧ e.synchronize.2.isReady = e.isReady ∧
        e.synchronize.2.watermark = e.watermark ∨
      ∃ report, e.synchronize.1 = .ok report ∧ e.isReady = true ∧ e.synchronize.2.isReady = true ∧
        ∃ data, e.received (.event .synchronize) = [.ok data] ∧ data.WellFormed ∧
          e.synchronize.2.watermark = data.lastTimestamp ∧
          report.indexed + report.skipped = data.infos.length := by
  by_cases hready : e.isReady = true
  · obtain ⟨hrun, hanswers⟩ := Task.run_synchronize e.watermark e.site
    have hreceived : e.received (.event .synchronize) = (Task.synchronize e.watermark).received e.site :=
      if_pos hready
    rw [Engine.synchronize, perform_ready hready, hreceived, hrun, hanswers, Task.received_catchUp]
    generalize hwindow : some (Window.between e.watermark e.site.serviceTime) = window
    cases hres : ((Task.catchUp window).run e.site).1 with
    | error error => exact .inl ⟨⟨error, rfl⟩, rfl, rfl⟩
    | ok answer =>
      obtain ⟨data, hdata, hwell, hlast, hcount⟩ := Task.answer_of_catchUp hres
      rw [hdata]
      exact .inr ⟨answer.1, rfl, hready, hready, data, rfl, hwell, hlast, hcount⟩
  · rw [Engine.synchronize, perform_not_ready hready]
    exact .inl ⟨⟨_, rfl⟩, rfl, rfl⟩

/-- **All that a move can do to readiness and watermark.** Either it processes nothing and leaves both, or it is a
set-up or a synchronization that processes one answer. -/
theorem move_cases (e : Engine) (m : Move) :
    e.processed m = [] ∧ (e.move m).isReady = e.isReady ∧ (e.move m).watermark = e.watermark ∧
        ¬ (m = .event .setUp ∧ e.setUp.1 = .ok ()) ∨
      ∃ data, e.processed m = [data] ∧ (e.move m).isReady = true ∧ (e.move m).watermark = data.lastTimestamp ∧
        (m = .event .setUp ∧ e.setUp.1 = .ok () ∨ m = .event .synchronize ∧ e.isReady = true) := by
  have hother (hsetUp : m ≠ .event .setUp) (hsync : m ≠ .event .synchronize)
      (hready : (e.move m).isReady = e.isReady ∧ (e.move m).watermark = e.watermark) :
      e.processed m = [] ∧ (e.move m).isReady = e.isReady ∧ (e.move m).watermark = e.watermark ∧
        ¬ (m = .event .setUp ∧ e.setUp.1 = .ok ()) := by
    refine ⟨?_, hready.1, hready.2, fun h => hsetUp h.1⟩
    rw [processed, received_eq_nil hsetUp hsync, List.filterMap_nil, ite_self]
  cases m with
  | surround site => exact .inl (hother nofun nofun ⟨rfl, rfl⟩)
  | event event =>
    cases event with
    | setUp =>
      rcases e.setUp_outcome with ⟨⟨error, herror⟩, hready, hwatermark⟩ | ⟨hok, -, hready, data, hreceived, -, hlast⟩
      · refine .inl ⟨?_, hready, hwatermark, fun h => nomatch h.2.symm.trans herror⟩
        simp only [processed, succeeds, herror, Except.isOk, Except.toBool, Bool.false_eq_true, if_false]
      · refine .inr ⟨data, ?_, hready, hlast, .inl ⟨rfl, hok⟩⟩
        simp only [processed, succeeds, hok, hreceived, Except.isOk, Except.toBool, if_true]
        rfl
    | synchronize =>
      rcases e.synchronize_outcome with
        ⟨⟨error, herror⟩, hready, hwatermark⟩ | ⟨report, hok, hset, hready, data, hreceived, -, hlast, -⟩
      · refine .inl ⟨?_, hready, hwatermark, fun h => nomatch h.1⟩
        simp only [processed, succeeds, herror, Except.isOk, Except.toBool, Bool.false_eq_true, if_false]
      · refine .inr ⟨data, ?_, hready, hlast, .inr ⟨rfl, hset⟩⟩
        simp only [processed, succeeds, hok, hreceived, Except.isOk, Except.toBool, if_true]
        rfl
    | persist t channel topics => exact .inl (hother nofun nofun (e.isReady_perform _))
    | readChannel channel window => exact .inl (hother nofun nofun (e.isReady_perform _))
    | readTopics topics window => exact .inl (hother nofun nofun (e.isReady_perform _))
    | append content time => exact .inl (hother nofun nofun ⟨rfl, rfl⟩)
    | setClock now => exact .inl (hother nofun nofun ⟨rfl, rfl⟩)
    | schedule data reads writes => exact .inl (hother nofun nofun ⟨rfl, rfl⟩)

/-! ## Whole runs -/

/-- The engine is ready from the first answer on, and the latest answer says where its watermark is. -/
structure Reaches (e : Engine) (answers : List StorageData) : Prop where
  ready : e.isReady = !answers.isEmpty
  watermark : e.watermark = (answers.getLast?.map (·.lastTimestamp)).getD 0

theorem reaches_new (site : Site) : (Engine.new site).Reaches [] := ⟨rfl, rfl⟩

theorem Reaches.move {e : Engine} {answers : List StorageData} (hr : e.Reaches answers) (m : Move) :
    (e.move m).Reaches (answers ++ e.processed m) := by
  rcases e.move_cases m with ⟨hnone, hready, hwatermark, -⟩ | ⟨data, hone, hready, hwatermark, -⟩
  · rw [hnone, List.append_nil]
    exact ⟨hready.trans hr.ready, hwatermark.trans hr.watermark⟩
  · rw [hone]
    refine ⟨?_, ?_⟩
    · rw [hready]
      simp
    · rw [hwatermark, List.getLast?_append, List.getLast?_singleton]
      rfl

theorem Reaches.play {e : Engine} {answers : List StorageData} (hr : e.Reaches answers) (moves : List Move) :
    (e.play moves).Reaches (answers ++ e.processedAlong moves) := by
  induction moves generalizing e answers with
  | nil => simpa [processedAlong] using hr
  | cons m moves ih =>
    rw [play_cons, processedAlong, ← List.append_assoc]
    exact ih (hr.move m)

theorem isReady_move (e : Engine) (m : Move) :
    (e.move m).isReady = true ↔ e.isReady = true ∨ m = .event .setUp ∧ e.setUp.1 = .ok () := by
  rcases e.move_cases m with ⟨-, hready, -, hnot⟩ | ⟨data, -, hready, -, hcause⟩
  · rw [hready]
    exact ⟨.inl, fun h => h.resolve_right hnot⟩
  · refine ⟨fun _ => ?_, fun _ => hready⟩
    rcases hcause with hsetUp | ⟨-, hset⟩
    · exact .inr hsetUp
    · exact .inl hset

/-- An engine that is ready was so before, or a set-up of the run has succeeded. -/
theorem isReady_play (e : Engine) (moves : List Move) :
    (e.play moves).isReady = true ↔ e.isReady = true ∨
      ∃ before after, moves = before ++ .event .setUp :: after ∧ (e.play before).setUp.1 = .ok () := by
  induction moves generalizing e with
  | nil => simp
  | cons m moves ih =>
    rw [play_cons, ih, isReady_move, or_assoc]
    refine or_congr_right ⟨?_, ?_⟩
    · rintro (⟨rfl, hok⟩ | ⟨before, after, rfl, hok⟩)
      · exact ⟨[], moves, rfl, hok⟩
      · exact ⟨m :: before, after, rfl, hok⟩
    · rintro ⟨before, after, heq, hok⟩
      cases before with
      | nil =>
        obtain ⟨rfl, rfl⟩ := List.cons.inj heq
        exact .inl ⟨rfl, hok⟩
      | cons m' before =>
        obtain ⟨rfl, rfl⟩ := List.cons.inj heq
        exact .inr ⟨before, after, rfl, hok⟩

/-! ## Answers that are refused -/

/-- An answer that does not fit together ends a set-up with an error, and no record changes. -/
theorem setUp_malformed {e : Engine} {data : StorageData} (hdata : .ok data ∈ e.received (.event .setUp))
    (hmalformed : ¬ data.WellFormed) : (∃ reason, e.setUp.1 = .error (.malformedAnswer reason)) ∧
      e.setUp.2.site.index.store.records = e.site.index.store.records := by
  by_cases hready : e.isReady = true
  · rw [received, if_pos hready] at hdata
    cases hdata
  · rw [received, if_neg hready] at hdata
    rw [Engine.setUp, if_neg hready]
    rcases Task.setUp_cases e.site with ⟨-, hnone, -⟩ | ⟨window, site₁, hrecords, hrun, hanswers⟩
    · rw [hnone] at hdata
      cases hdata
    · rw [hanswers, Task.received_catchUp, List.mem_singleton] at hdata
      obtain ⟨reason, hrefused⟩ := Task.run_catchUp_malformed hdata.symm hmalformed
      rw [hrun, hrefused]
      exact ⟨⟨reason, rfl⟩, hrecords⟩

theorem synchronize_malformed {e : Engine} {data : StorageData} (hdata : .ok data ∈ e.received (.event .synchronize))
    (hmalformed : ¬ data.WellFormed) : (∃ reason, e.synchronize.1 = .error (.malformedAnswer reason)) ∧
      e.synchronize.2.site.index.store.records = e.site.index.store.records := by
  by_cases hready : e.isReady = true
  · rw [received, receivedBy, if_pos hready] at hdata
    obtain ⟨hrun, hanswers⟩ := Task.run_synchronize e.watermark e.site
    rw [hanswers, Task.received_catchUp, List.mem_singleton] at hdata
    obtain ⟨reason, hrefused⟩ := Task.run_catchUp_malformed hdata.symm hmalformed
    rw [Engine.synchronize, perform_ready hready, hrun, hrefused]
    exact ⟨⟨reason, rfl⟩, rfl⟩
  · rw [received, receivedBy, if_neg hready] at hdata
    cases hdata

end Engine

namespace DataService

/-- A service that has not been set up refuses everything else and stays as it is. -/
theorem not_ready {s : DataService} (hready : s.engine.isReady = false) :
    (∀ t channel topics, s.persist t channel topics = (.error .notReady, s)) ∧
      (∀ channel window, s.channel channel window = (.error .notReady, s)) ∧
      (∀ topics window, s.channelsOfTopics topics window = (.error .notReady, s)) ∧
      s.synchronize = (.error .notReady, s) ∧ s.start = (.error .notReady, s) := by
  have hperform {α : Type} (task : Task α) : s.engine.perform task = (.error .notReady, s.engine) :=
    Engine.perform_not_ready (by simp [hready]) task
  refine ⟨fun t channel topics => ?_, fun channel window => ?_, fun topics window => ?_, ?_, ?_⟩
  · rw [persist, onEngine, hperform]
  · rw [DataService.channel, onEngine, hperform]
  · rw [channelsOfTopics, onEngine, hperform]
  · rw [DataService.synchronize, onEngine, Engine.synchronize, hperform]
  · rw [start, if_neg (by simp [hready])]

/-- **Lifecycle and watermark.** Whatever happens to the site in a run, the service refuses everything but a set-up until
one has succeeded, and from then on it refuses a set-up; a refusal changes nothing. The watermark is the reach of the
latest answer that was processed without error. An answer whose lists are not there or do not match is refused and
changes no record, and a synchronization that succeeds has counted every blob of its answer. -/
theorem lifecycle (site : Site) (moves : List Move) (s : DataService)
    (hs : s.engine = (Engine.new site).play moves) :
    let answers := (Engine.new site).processedAlong moves
    (s.engine.isReady = true ↔ ∃ before after, moves = before ++ .event .setUp :: after ∧
      ((Engine.new site).play before).setUp.1 = .ok ()) ∧
    (s.engine.isReady = false → s.engine.watermark = 0 ∧
      (∀ t channel topics, s.persist t channel topics = (.error .notReady, s)) ∧
      (∀ channel window, s.channel channel window = (.error .notReady, s)) ∧
      (∀ topics window, s.channelsOfTopics topics window = (.error .notReady, s)) ∧
      s.synchronize = (.error .notReady, s) ∧ s.start = (.error .notReady, s)) ∧
    (s.engine.isReady = true → s.setUp = (.error .alreadyReady, s) ∧
      ∃ data, answers.getLast? = some data ∧ s.engine.watermark = data.lastTimestamp) ∧
    (∀ error, s.synchronize.1 = .error error → s.synchronize.2.engine.watermark = s.engine.watermark) ∧
    (∀ data, .ok data ∈ s.engine.received (.event .setUp) → ¬ data.WellFormed →
      (∃ reason, s.setUp.1 = .error (.malformedAnswer reason)) ∧
      s.setUp.2.engine.site.index.store.records = s.engine.site.index.store.records) ∧
    (∀ data, .ok data ∈ s.engine.received (.event .synchronize) → ¬ data.WellFormed →
      (∃ reason, s.synchronize.1 = .error (.malformedAnswer reason)) ∧
      s.synchronize.2.engine.site.index.store.records = s.engine.site.index.store.records) ∧
    (∀ report, s.synchronize.1 = .ok report → ∃ data, s.engine.received (.event .synchronize) = [.ok data] ∧
      data.WellFormed ∧ s.synchronize.2.engine.watermark = data.lastTimestamp ∧
      report.indexed + report.skipped = data.infos.length) := by
  intro answers
  have hreaches : s.engine.Reaches answers := by
    have hplay := (Engine.reaches_new site).play moves
    rw [List.nil_append] at hplay
    rwa [hs]
  refine ⟨?_, fun hidle => ⟨?_, not_ready hidle⟩, fun hready => ⟨?_, ?_⟩, fun error herror => ?_,
    fun data => Engine.setUp_malformed, fun data => Engine.synchronize_malformed, fun report hreport => ?_⟩
  · rw [hs, Engine.isReady_play]
    simp [Engine.new]
  · -- No answer was processed yet.
    have hempty := hreaches.ready
    rw [hidle, eq_comm, Bool.not_eq_eq_eq_not, Bool.not_false, List.isEmpty_iff] at hempty
    rw [hreaches.watermark, hempty]
    rfl
  · rw [DataService.setUp, onEngine, Engine.setUp, if_pos hready]
  · have hsome := hreaches.ready
    rw [hready, eq_comm, Bool.not_eq_eq_eq_not, Bool.not_true, List.isEmpty_eq_false_iff] at hsome
    refine ⟨answers.getLast hsome, List.getLast?_eq_some_getLast hsome, ?_⟩
    rw [hreaches.watermark, List.getLast?_eq_some_getLast hsome]
    rfl
  · rcases s.engine.synchronize_outcome with ⟨-, -, hwatermark⟩ | ⟨report, hok, -⟩
    · exact hwatermark
    · cases hok.symm.trans herror
  · rcases s.engine.synchronize_outcome with ⟨⟨error, herror⟩, -⟩ | ⟨report', hok, -, -, data, hreceived, hwell, hlast, hcount⟩
    · cases hreport.symm.trans herror
    · cases hreport.symm.trans hok
      exact ⟨data, hreceived, hwell, hlast, hcount⟩

/-- The storage first answers that there is nothing up to the time 7, and then with a content that has no location. -/
def trialMoves : List Move :=
  let script : Script := ⟨[], [], [.ok ⟨some [], some [], 7, []⟩, .ok ⟨some ["content"], some [], 9, []⟩], [], true⟩
  [.event .synchronize, .surround { Site.empty 10 with storage.script := script }, .event .setUp]

/-- In the trial the watermark is not the time of the clock, and the answer that is refused leaves it where it is. -/
theorem lifecycle_trial : ∃ s : DataService, s.engine = (Engine.new (.empty 10)).play trialMoves ∧
    s.engine.isReady = true ∧ s.engine.watermark = 7 ∧ s.setUp = (.error .alreadyReady, s) ∧
    (∃ reason, s.synchronize.1 = .error (.malformedAnswer reason)) ∧ s.synchronize.2.engine.watermark = 7 := by
  obtain ⟨e, he⟩ : ∃ e, e = (Engine.new (.empty 10)).play trialMoves := ⟨_, rfl⟩
  let s : DataService := ⟨.brisk, e, .new 0 1 0⟩
  obtain ⟨-, -, hready, hfails, -, hmalformed, -⟩ := lifecycle (.empty 10) trialMoves s he
  have hset : s.engine.isReady = true := by
    rw [show s.engine = _ from he]
    decide +kernel
  have hwatermark : s.engine.watermark = 7 := by
    rw [show s.engine = _ from he]
    decide +kernel
  have hanswer : .ok ⟨some ["content"], some [], 9, []⟩ ∈ s.engine.received (.event .synchronize) := by
    rw [show s.engine = _ from he]
    exact List.mem_singleton.2 rfl
  have hmismatch : ¬ StorageData.WellFormed ⟨some ["content"], some [], 9, []⟩ := by
    rintro ⟨contents, locations, hcontents, hlocations, hlength, -⟩
    cases hcontents
    cases hlocations
    cases hlength
  obtain ⟨⟨reason, hrefused⟩, -⟩ := hmalformed _ hanswer hmismatch
  refine ⟨s, he, hset, hwatermark, (hready hset).1, ⟨reason, hrefused⟩, ?_⟩
  rw [hfails _ hrefused, hwatermark]

end DataService

end Invoicing
