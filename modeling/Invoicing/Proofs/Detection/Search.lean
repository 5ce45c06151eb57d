import Invoicing.Proofs.Detection.Pairing

set_option autoImplicit false

/-! # Searches on any ledger

A ledger may hold whatever logs, well-formed or not. A search that succeeds on it has one event for each log that is due
(`Search.isDue`), in the order of the logs, and none for any other (`Search.events_reports`). -/

namespace Invoicing

/-! ## Filters -/

/-- A topic that is asked for stands at its place, and a log may have more topics than are asked for. -/
theorem LogFilter.matchesTopics_iff {pattern : List (Option Hash)} {topics : List Hash} :
    matchesTopics pattern topics = true ↔
      ∀ (i : Nat) (topic : Hash), pattern[i]? = some (some topic) → topics[i]? = some topic := by
  induction pattern generalizing topics with
  | nil => simp [matchesTopics]
  | cons wanted pattern ih =>
    -- The first place and the places after it are apart.
    have hplaces :
        (∀ (i : Nat) (topic : Hash), (wanted :: pattern)[i]? = some (some topic) → topics[i]? = some topic) ↔
          (∀ topic, wanted = some topic → topics[0]? = some topic) ∧
            ∀ (i : Nat) (topic : Hash), pattern[i]? = some (some topic) → topics.tail[i]? = some topic := by
      constructor
      · intro h
        refine ⟨fun topic ht => h 0 topic (by simp [ht]), fun i topic hi => ?_⟩
        rw [List.getElem?_tail]
        exact h (i + 1) topic (by simpa using hi)
      · rintro ⟨h0, hrest⟩ i topic hi
        cases i with
        | zero => exact h0 topic (by simpa using hi)
        | succ i =>
          rw [← List.getElem?_tail]
          exact hrest i topic (by simpa using hi)
    rw [hplaces, ← ih]
    cases wanted with
    | none => simp [matchesTopics]
    | some topic =>
      cases topics with
      | nil => simp [matchesTopics]
      | cons topic' topics => simp [matchesTopics, eq_comm (a := topic)]

namespace Search

open Ledger (Payment)

variable (s : Search)

/-- Is a log one of a kind with a reference that the proxy emitted since it was created? -/
def Concerns (kind reference : Hash) (log : Log) : Prop :=
  log.address = s.proxy.address ∧ s.proxy.creationBlock ≤ log.block ∧ log.topics[0]? = some kind ∧
    log.topics[1]? = some reference

instance (kind reference : Hash) (log : Log) : Decidable (s.Concerns kind reference log) :=
  inferInstanceAs (Decidable (_ ∧ _ ∧ _ ∧ _))

/-- The transfer in the first log of a transaction, if it can be read. -/
def transferOf? (logs : List Log) (reference transaction : Hash) : Option Transfer :=
  (logs.find? fun log => decide (s.Concerns Transfer.topic reference log) && log.transaction == transaction).bind
    fun log => Transfer.decode? log.data

/-- Does a log ask for a payment that is made and that counts? -/
def isDue (logs : List Log) (reference : Hash) (log : Log) : Bool :=
  decide (s.Concerns Conversion.topic reference log) && (Conversion.decode? log.data).any s.asks &&
    (s.transferOf? logs reference log.transaction).any s.pays

/-- The event is that of a log and of the first transfer in its transaction. -/
def Reports (logs : List Log) (times : List (BlockNumber × Timestamp)) (reference : Hash) (log : Log)
    (e : PaymentEvent) : Prop :=
  ∃ conversion transfer time, Conversion.decode? log.data = some conversion ∧
    s.transferOf? logs reference log.transaction = some transfer ∧ times.lookup log.block = some time ∧
    e = s.eventOf ⟨log.block, log.transaction, conversion, transfer⟩ time

/-- Is a log of another contract, from before the proxy was created or without the reference of the search? -/
def Foreign (log : Log) : Prop :=
  log.address ≠ s.proxy.address ∨ log.block < s.proxy.creationBlock ∨
    ∀ reference, Reference.topic s.reference = .ok reference → log.topics[1]? ≠ some reference

/-- Every log that asks for a payment can be read and is paid, and those that are due are in blocks of known times and
can be told in units of the currency. -/
def Answerable (logs : List Log) (times : List (BlockNumber × Timestamp)) : Prop :=
  ∃ reference, Reference.topic s.reference = .ok reference ∧
    (∀ log ∈ logs, s.Concerns Conversion.topic reference log →
      (Conversion.decode? log.data).isSome ∧ (s.transferOf? logs reference log.transaction).isSome) ∧
    ∀ log ∈ logs, s.isDue logs reference log = true →
      (times.lookup log.block).isSome ∧ s.currency.decimals ≤ PreciseCurrency.maxDecimals

variable {s}

theorem selects_filter_eq (kind reference : Hash) :
    (s.filter kind reference).selects = fun log => decide (s.Concerns kind reference log) := by
  funext log
  have htopics : LogFilter.matchesTopics [some kind, some reference] log.topics = true ↔
      log.topics[0]? = some kind ∧ log.topics[1]? = some reference := by
    rw [LogFilter.matchesTopics_iff]
    refine ⟨fun h => ⟨h 0 kind rfl, h 1 reference rfl⟩, fun ⟨h0, h1⟩ i topic hi => ?_⟩
    match i, hi with
    | 0, hi => exact Option.some.inj (Option.some.inj hi) ▸ h0
    | 1, hi => exact Option.some.inj (Option.some.inj hi) ▸ h1
  rw [Bool.eq_iff_iff, decide_eq_true_iff]
  show (log.address == s.proxy.address && decide (s.proxy.creationBlock ≤ log.block) && true &&
    LogFilter.matchesTopics [some kind, some reference] log.topics) = true ↔ _
  simp only [Bool.and_true, Bool.and_eq_true, beq_iff_eq, decide_eq_true_iff, htopics, Concerns, and_assoc]

theorem find?_filter_selects (logs : List Log) (kind reference transaction : Hash) :
    (logs.filter (s.filter kind reference).selects).find? (fun log => log.transaction == transaction) =
      logs.find? fun log => decide (s.Concerns kind reference log) && log.transaction == transaction := by
  rw [List.find?_filter, selects_filter_eq]
  simp only [Bool.decide_and, Bool.decide_eq_true]

theorem transferOf?_eq_none {logs : List Log} {reference transaction : Hash}
    (h : ∀ log ∈ logs, s.Concerns Transfer.topic reference log → log.transaction ≠ transaction) :
    s.transferOf? logs reference transaction = none := by
  rw [transferOf?, List.find?_eq_none.2, Option.bind_none]
  intro log hlog
  simpa using h log hlog

/-! ## The answer -/

variable {logs : List Log} {times : List (BlockNumber × Timestamp)} {reference : Hash}

theorem pair_eq_ok {log : Log} {p : PairedTransfer} :
    pair (logs.filter (s.filter Transfer.topic reference).selects) log = .ok p ↔
      ∃ c t, Conversion.decode? log.data = some c ∧ s.transferOf? logs reference log.transaction = some t ∧
        p = ⟨log.block, log.transaction, c, t⟩ := by
  rw [pair, transferOf?, find?_filter_selects]
  cases Conversion.decode? log.data with
  | none => simp
  | some c =>
    cases logs.find? fun other => decide (s.Concerns Transfer.topic reference other) &&
        other.transaction == log.transaction with
    | none => simp
    | some other => cases hdecode : Transfer.decode? other.data <;> simp [hdecode, eq_comm (a := p)]

theorem isDue_iff {log : Log} : s.isDue logs reference log = true ↔
    s.Concerns Conversion.topic reference log ∧ (Conversion.decode? log.data).any s.asks = true ∧
      (s.transferOf? logs reference log.transaction).any s.pays = true := by
  simp [isDue, and_assoc]

/-- The pairs that count are those of the logs that are due. -/
theorem due_of_pairs {paired : List PairedTransfer} (hpaired : s.pairs logs reference = .ok paired) :
    List.Forall₂ (fun log p => ∃ c t, Conversion.decode? log.data = some c ∧
        s.transferOf? logs reference log.transaction = some t ∧ p = ⟨log.block, log.transaction, c, t⟩)
      (logs.filter (s.isDue logs reference)) (paired.filter s.accepts) := by
  have hdue : logs.filter (s.isDue logs reference) =
      (logs.filter (s.filter Conversion.topic reference).selects).filter fun log =>
        (Conversion.decode? log.data).any s.asks && (s.transferOf? logs reference log.transaction).any s.pays := by
    rw [List.filter_filter, selects_filter_eq]
    exact List.filter_congr fun log _ => by rw [isDue, Bool.and_assoc, Bool.and_comm]
  rw [hdue]
  refine List.rel_filter ?_ ((Effect.forall₂_of_mapM hpaired).imp fun log p hp => pair_eq_ok.1 hp)
  rintro log p ⟨c, t, hc, ht, rfl⟩
  simp [accepts_eq, hc, ht]

theorem timeAt_eq_ok {block : BlockNumber} {time : Timestamp} :
    Ledger.timeAt times block = .ok time ↔ times.lookup block = some time := by
  rw [Ledger.timeAt]
  cases times.lookup block <;> simp

theorem timed_eq_ok {p : PairedTransfer} {e : PaymentEvent} :
    (Ledger.timeAt times p.block >>= s.event p) = .ok e ↔
      ∃ time, times.lookup p.block = some time ∧ s.currency.decimals ≤ PreciseCurrency.maxDecimals ∧
        e = s.eventOf p time := by
  simp only [Effect.bind_eq_ok, timeAt_eq_ok, event_eq]
  by_cases hmax : s.currency.decimals ≤ PreciseCurrency.maxDecimals <;> simp [hmax, eq_comm (a := e)]

theorem outcome_eq_ok {events : List PaymentEvent} :
    s.outcome logs times = .ok events ↔ ∃ reference, Reference.topic s.reference = .ok reference ∧
      ∃ paired, s.pairs logs reference = .ok paired ∧
        (paired.filter s.accepts).mapM (fun p => Ledger.timeAt times p.block >>= s.event p) = .ok events := by
  simp only [outcome, Effect.bind_eq_ok]

theorem reports_of_outcome {events : List PaymentEvent} (h : s.outcome logs times = .ok events) :
    ∃ reference, Reference.topic s.reference = .ok reference ∧
      (∀ log ∈ logs.filter (s.isDue logs reference),
        (times.lookup log.block).isSome ∧ s.currency.decimals ≤ PreciseCurrency.maxDecimals) ∧
      List.Forall₂ (s.Reports logs times reference) (logs.filter (s.isDue logs reference)) events := by
  obtain ⟨reference, hreference, paired, hpaired, hevents⟩ := outcome_eq_ok.1 h
  refine ⟨reference, hreference, (List.forall₂_and_left _ _).1 ?_⟩
  refine (Effect.forall₂_comp (due_of_pairs hpaired) (Effect.forall₂_of_mapM hevents)).imp ?_
  rintro log e ⟨p, ⟨c, t, hc, ht, rfl⟩, he⟩
  obtain ⟨time, htime, hmax, rfl⟩ := timed_eq_ok.1 he
  exact ⟨⟨Option.isSome_iff_exists.2 ⟨time, htime⟩, hmax⟩, c, t, time, hc, ht, htime, rfl⟩

theorem pairs_isOk_iff :
    (∃ paired, s.pairs logs reference = .ok paired) ↔
      ∀ log ∈ logs, s.Concerns Conversion.topic reference log →
        (Conversion.decode? log.data).isSome ∧ (s.transferOf? logs reference log.transaction).isSome := by
  rw [pairs, Effect.mapM_ok_iff]
  simp only [List.mem_filter, selects_filter_eq Conversion.topic, decide_eq_true_iff, pair_eq_ok, and_imp,
    Option.isSome_iff_exists]
  refine forall₃_congr fun log _ _ => ?_
  constructor
  · rintro ⟨p, c, t, hc, ht, -⟩
    exact ⟨⟨c, hc⟩, t, ht⟩
  · rintro ⟨⟨c, hc⟩, t, ht⟩
    exact ⟨_, c, t, hc, ht, rfl⟩

theorem outcome_isOk_iff : (∃ events, s.outcome logs times = .ok events) ↔ s.Answerable logs times := by
  constructor
  · rintro ⟨events, h⟩
    obtain ⟨reference, hreference, paired, hpaired, -⟩ := outcome_eq_ok.1 h
    obtain ⟨reference', hreference', hknown, -⟩ := reports_of_outcome h
    cases hreference.symm.trans hreference'
    exact ⟨reference, hreference, pairs_isOk_iff.1 ⟨paired, hpaired⟩,
      fun log hlog hdue => hknown log (List.mem_filter.2 ⟨hlog, hdue⟩)⟩
  · rintro ⟨reference, hreference, hreadable, hknown⟩
    obtain ⟨paired, hpaired⟩ := pairs_isOk_iff.2 hreadable
    have htimed : ∀ p ∈ paired.filter s.accepts, ∃ e, (Ledger.timeAt times p.block >>= s.event p) = .ok e := by
      -- Every pair that counts is that of a log that is due.
      have hkept := (List.forall₂_and_left _ _).2 ⟨fun log hlog => hlog, due_of_pairs hpaired⟩
      refine ((List.forall₂_and_left (R := fun _ _ => True) _ _).1 (.flip (hkept.imp ?_))).1
      rintro log _ ⟨hlog, c, t, -, -, rfl⟩
      obtain ⟨hlog, hdue⟩ := List.mem_filter.1 hlog
      obtain ⟨htime, hmax⟩ := hknown log hlog hdue
      obtain ⟨time, htime⟩ := Option.isSome_iff_exists.1 htime
      exact ⟨⟨_, timed_eq_ok.2 ⟨time, htime, hmax, rfl⟩⟩, trivial⟩
    obtain ⟨events, hevents⟩ := Effect.mapM_ok_iff.2 htimed
    exact ⟨events, outcome_eq_ok.2 ⟨reference, hreference, paired, hpaired, hevents⟩⟩

/-! ## What a search does not see -/

/-- Is a filter one with which the search asks the ledger? -/
def Sends (s : Search) (f : LogFilter) : Prop :=
  ∃ kind reference, Reference.topic s.reference = .ok reference ∧ f = s.filter kind reference

/-- A log that is foreign to the search can stand anywhere among the others. -/
theorem alike_insert {l : Ledger} {log : Log} (hforeign : s.Foreign log) {before after : List Log}
    (hlogs : l.logs = before ++ after) :
    Ledger.Alike s.Sends { l with logs := before ++ log :: after } l := by
  refine ⟨?_, rfl, rfl, rfl⟩
  rintro f ⟨kind, reference, hreference, rfl⟩
  have hpassed : ¬ s.Concerns kind reference log := by
    rintro ⟨haddress, hblock, -, htopic⟩
    rcases hforeign with h | h | h
    · exact h haddress
    · exact absurd hblock (UInt64.not_le.2 h)
    · exact h reference hreference htopic
  rw [hlogs, selects_filter_eq]
  simp [hpassed]

theorem agrees_events (s : Search) : Effect.Agrees (Ledger.Alike s.Sends) s.events := by
  refine Effect.agrees_ofExcept_bind fun reference hreference => ?_
  refine (Ledger.agrees_select ⟨_, reference, hreference, rfl⟩).bind fun conversions => ?_
  refine (Ledger.agrees_select ⟨_, reference, hreference, rfl⟩).bind fun transfers => ?_
  refine (Effect.agrees_ofExcept _).bind fun paired => Effect.agrees_mapM (fun p => ?_) _
  exact (Ledger.agrees_time p.block).bind fun time => Effect.agrees_ofExcept _

/-! ## The logs of a payment -/

/-- On the logs of a payment to the destination the first of them is due. -/
theorem due_logs {p : Payment} (reference : Hash) (hproxy : p.proxy = s.proxy.address)
    (hcreated : s.proxy.creationBlock ≤ p.block) (hasks : s.asks p.conversion = true)
    (hpays : s.pays p.transfer = true) :
    s.transferOf? (p.logs reference) reference p.transaction = some p.transfer ∧
      (∀ log ∈ p.logs reference, s.Concerns Conversion.topic reference log → log = p.asked reference) ∧
      (p.logs reference).filter (s.isDue (p.logs reference) reference) = [p.asked reference] := by
  have hasked : s.Concerns Conversion.topic reference (p.asked reference) := ⟨hproxy, hcreated, rfl, rfl⟩
  have hpaid : s.Concerns Transfer.topic reference (p.paid reference) := ⟨hproxy, hcreated, rfl, rfl⟩
  have hasked' : ¬ s.Concerns Transfer.topic reference (p.asked reference) :=
    fun h => Conversion.topic_ne (Option.some.inj h.2.2.1)
  have hpaid' : ¬ s.Concerns Conversion.topic reference (p.paid reference) :=
    fun h => Conversion.topic_ne (Option.some.inj h.2.2.1).symm
  have hlogs : p.logs reference = [p.asked reference, p.paid reference] := rfl
  have htransaction : (p.asked reference).transaction = p.transaction ∧ (p.paid reference).transaction = p.transaction :=
    ⟨rfl, rfl⟩
  have hconversion : Conversion.decode? (p.asked reference).data = some p.conversion := Conversion.decode?_encode _
  have htransfer : s.transferOf? (p.logs reference) reference p.transaction = some p.transfer := by
    have hdecode : Transfer.decode? (p.paid reference).data = some p.transfer := Transfer.decode?_encode _
    simp [transferOf?, hlogs, hasked', hpaid, htransaction, hdecode]
  refine ⟨htransfer, fun log hlog hconcerns => ?_, ?_⟩
  · rcases List.mem_cons.1 hlog with rfl | hlog
    · rfl
    · obtain rfl : log = p.paid reference := List.mem_singleton.1 hlog
      exact absurd hconcerns hpaid'
  have hdue : s.isDue (p.logs reference) reference (p.asked reference) = true := by
    simp [isDue, hasked, hconversion, htransaction, htransfer, hasks, hpays]
  have hdue' : s.isDue (p.logs reference) reference (p.paid reference) = false := by simp [isDue, hpaid']
  generalize s.isDue (p.logs reference) reference = due at hdue hdue'
  simp [hlogs, hdue, hdue']

/-! ## The result -/

/-- **A search has one event for each log that is due.** On any ledger a search that succeeds gives the events of the logs
that are due, in their order, and of no others. It fails if a log that asks for a payment cannot be read or has no
transfer in its transaction, due or not, and while no call fails these are, beside a malformed reference, an unknown time
of what is due and an excess of decimals, the only reasons for which it can. A log that is foreign to it changes
nothing, wherever it stands. -/
theorem events_reports (s : Search) (l : Ledger) :
    let result := (s.events.run.run l).1
    (∀ events, result = .ok events → ∃ reference, Reference.topic s.reference = .ok reference ∧
      List.Forall₂ (s.Reports l.logs l.times reference) (l.logs.filter (s.isDue l.logs reference)) events) ∧
    (∀ reference, Reference.topic s.reference = .ok reference →
      ∀ log ∈ l.logs, s.Concerns Conversion.topic reference log →
        (Conversion.decode? log.data = none ∨
          ∀ other ∈ l.logs, s.Concerns Transfer.topic reference other → other.transaction ≠ log.transaction) →
        ∃ e, result = .error e) ∧
    (∀ log before after, s.Foreign log → l.logs = before ++ after →
      (s.events.run.run { l with logs := before ++ log :: after }).1 = result) ∧
    (l.faults.Quiet → ((∃ events, result = .ok events) ↔ s.Answerable l.logs l.times)) := by
  intro result
  obtain ⟨-, hquiet, hresult⟩ := answers_events s l rfl rfl
  have houtcome : ∀ events, result = .ok events → s.outcome l.logs l.times = .ok events := by
    rintro events hok
    rcases hresult with h | ⟨e, h⟩
    · exact h.symm.trans hok
    · exact nomatch h.symm.trans hok
  refine ⟨fun events hok => ?_, fun reference hreference log hlog hconcerns hbad => ?_,
    fun log before after hforeign hlogs => ?_, fun hq => ?_⟩
  · obtain ⟨reference, hreference, -, hreports⟩ := reports_of_outcome (houtcome events hok)
    exact ⟨reference, hreference, hreports⟩
  · cases hok : result with
    | error e => exact ⟨e, rfl⟩
    | ok events =>
      obtain ⟨reference', hreference', hreadable, -⟩ := outcome_isOk_iff.1 ⟨events, houtcome events hok⟩
      cases hreference.symm.trans hreference'
      obtain ⟨hconversion, htransfer⟩ := hreadable log hlog hconcerns
      rcases hbad with hnone | hunpaid
      · rw [hnone] at hconversion
        cases hconversion
      · rw [transferOf?_eq_none hunpaid] at htransfer
        cases htransfer
  · exact (agrees_events s _ _ (alike_insert hforeign hlogs)).1
  · rw [← outcome_isOk_iff, show result = s.outcome l.logs l.times from (hquiet hq).1]

/-- A log of another contract, which no filter of the trial selects. -/
def trialForeign (reference : Hash) : Log :=
  ⟨.replicate 0xdd, [Conversion.topic, reference], [], 5, trialPaid.transaction⟩

/-- A log that nobody can read does no harm among those of a payment if it is foreign. -/
theorem events_reports_trial :
    ∃ reference, Reference.topic trial.reference = .ok reference ∧
      (trial.events.run.run ⟨trialForeign reference :: trialPaid.logs reference, [(5, 1005)], .never, 0⟩).1 =
        .ok [trial.eventOf (pairOf trialPaid trialPaid.transfer) 1005] := by
  obtain ⟨reference, hreference⟩ : ∃ reference, Reference.topic trial.reference = .ok reference := ⟨_, rfl⟩
  refine ⟨reference, hreference, ?_⟩
  obtain ⟨htransfer, hasked, hdue⟩ := due_logs (s := trial) (p := trialPaid) reference rfl (by decide)
    (by decide +kernel) (by decide +kernel)
  have hconversion : Conversion.decode? (trialPaid.asked reference).data = some trialPaid.conversion :=
    Conversion.decode?_encode _
  obtain ⟨hreports, -, hforeign, hiff⟩ := events_reports trial ⟨trialPaid.logs reference, [(5, 1005)], .never, 0⟩
  -- The payment alone can be answered, and the foreign log does not change the answer.
  have hanswerable : trial.Answerable (trialPaid.logs reference) [(5, 1005)] := by
    refine ⟨reference, hreference, fun log hlog hconcerns => ?_, fun log hlog hlog' => ?_⟩
    · rw [hasked log hlog hconcerns, hconversion]
      exact ⟨rfl, Option.isSome_iff_exists.2 ⟨_, htransfer⟩⟩
    · have hlog : log ∈ [trialPaid.asked reference] := hdue ▸ List.mem_filter.2 ⟨hlog, hlog'⟩
      rw [List.mem_singleton.1 hlog]
      exact ⟨rfl, by decide⟩
  obtain ⟨events, hok⟩ := (hiff Faults.quiet_never).2 hanswerable
  have hsame := hforeign (trialForeign reference) [] (trialPaid.logs reference)
    (.inl (by decide : (Octets.replicate 0xdd : Address) ≠ .replicate 0xcc)) rfl
  refine (hsame.trans hok).trans ?_
  obtain ⟨reference', hreference', hreports⟩ := hreports events hok
  obtain rfl : reference = reference' := Except.ok.inj (hreference.symm.trans hreference')
  rw [hdue] at hreports
  cases hreports with
  | cons hreport hnil =>
    cases hnil
    obtain ⟨c, t, time, hc, ht, htime, rfl⟩ := hreport
    obtain rfl : trialPaid.conversion = c := Option.some.inj (hconversion.symm.trans hc)
    obtain rfl : trialPaid.transfer = t := Option.some.inj (htransfer.symm.trans ht)
    obtain rfl : 1005 = time := Option.some.inj htime
    rfl

end Search

end Invoicing
