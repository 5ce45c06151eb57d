import Invoicing.Proofs.Extension.Step
import Mathlib.Data.List.Nodup

set_option autoImplicit false

/-! # The history of an extension

The extensions of a request after a run of submissions. What a state holds can be read off the submissions that were
accepted for it: the one that created it, and those that have amended it since, of each kind at most one. A value
that is there stays. -/

namespace Invoicing

namespace Registry

/-! ## Runs -/

/-- The extensions after a submission. One that is refused changes nothing. -/
def next (r : Registry) (extensions : Extensions) (s : Submission) : Extensions :=
  match r.apply extensions s with
  | .ok extensions' => extensions'
  | .error _ => extensions

/-- The extensions after a run of submissions. -/
def run (r : Registry) (extensions : Extensions) (ss : List Submission) : Extensions := ss.foldl r.next extensions

/-- The submissions of a run that are accepted. -/
def accepted (r : Registry) (extensions : Extensions) : List Submission → List Submission
  | [] => []
  | s :: ss =>
    match r.apply extensions s with
    | .ok extensions' => s :: r.accepted extensions' ss
    | .error _ => r.accepted extensions ss

variable {r : Registry} {extensions : Extensions}

theorem run_cons (s : Submission) (ss : List Submission) :
    r.run extensions (s :: ss) = r.run (r.next extensions s) ss := rfl

theorem run_append (ss ss' : List Submission) :
    r.run extensions (ss ++ ss') = r.run (r.run extensions ss) ss' := by
  simp only [run, List.foldl_append]

/-- A submission is refused, or it makes the next state of its extension and touches no other. -/
theorem next_builtin (extensions : Extensions) (s : Submission) :
    (builtin.next extensions s = extensions ∧
        ∀ ss, builtin.accepted extensions (s :: ss) = builtin.accepted extensions ss) ∨
      ∃ state, s.Changes (extensions.get? s.action.id) state ∧
        builtin.next extensions s = extensions.insert s.action.id state ∧
        ∀ ss, builtin.accepted extensions (s :: ss) =
          s :: builtin.accepted (builtin.next extensions s) ss := by
  cases h : builtin.apply extensions s with
  | error e => exact .inl ⟨by rw [next, h], fun ss => by rw [accepted, h]⟩
  | ok extensions' =>
    obtain ⟨state, hchanges, rfl⟩ := apply_builtin.1 h
    have hnext : builtin.next extensions s = extensions.insert s.action.id state := by rw [next, h]
    refine .inr ⟨state, hchanges, hnext, fun ss => ?_⟩
    rw [hnext, accepted, h]

/-- A known extension that is there cannot be created, with any parameters. -/
theorem apply_create_again {network : PaymentNetwork} {s : Submission} {state : ExtensionState}
    (hid : s.action.id = network.id) (hkind : s.action.kind? = some .create)
    (hstate : extensions.get? s.action.id = some state) : builtin.apply extensions s = .error .alreadyCreated := by
  have hhandler := builtin_handler_eq_ok.2 ⟨network, .create, hid, hkind, rfl⟩
  simp only [apply, hstate, Option.isNone_some, Bool.false_eq_true, false_and, if_false, hhandler]
  rfl

end Registry

/-! ## What stays -/

namespace ExtensionState

/-- A later state of the same extension: nothing that was there has changed. -/
structure Grows (state later : ExtensionState) : Prop where
  id : later.id = state.id
  family : later.family = state.family
  version : later.version = state.version
  salt : later.values.salt = state.values.salt
  network : later.values.network = state.values.network
  tokensAccepted : later.values.tokensAccepted = state.values.tokensAccepted
  maxRateTimespan : later.values.maxRateTimespan = state.values.maxRateTimespan
  values : ∀ field text, state.values.get? field = some text → later.values.get? field = some text
  events : state.events <+: later.events

theorem Grows.refl (state : ExtensionState) : state.Grows state :=
  ⟨rfl, rfl, rfl, rfl, rfl, rfl, rfl, fun _ _ h => h, List.prefix_rfl⟩

theorem Grows.trans {a b c : ExtensionState} (h : a.Grows b) (h' : b.Grows c) : a.Grows c where
  id := h'.id.trans h.id
  family := h'.family.trans h.family
  version := h'.version.trans h.version
  salt := h'.salt.trans h.salt
  network := h'.network.trans h.network
  tokensAccepted := h'.tokensAccepted.trans h.tokensAccepted
  maxRateTimespan := h'.maxRateTimespan.trans h.maxRateTimespan
  values field text htext := h'.values field text (h.values field text htext)
  events := h.events.trans h'.events

end ExtensionState

namespace Submission

variable {s : Submission} {kind : ActionKind} {state : ExtensionState}

theorem get?_given_eq_none {f : ValueField} (hkind : s.action.kind? = some kind) (h : f ∉ kind.fields) :
    s.given.get? f = none := by
  rw [given_of_kind hkind, PaymentValues.get?_given, if_neg h]

/-- An amendment gives only what the state lacks. -/
theorem grows_amended (hkind : s.action.kind? = some kind) (hlacks : ∀ f ∈ kind.fields, state.values.get? f = none) :
    state.Grows (s.amended state) where
  id := rfl
  family := rfl
  version := rfl
  salt := by simp [amended, PaymentValues.overlay, given_of_kind hkind, PaymentValues.given]
  network := by simp [amended, PaymentValues.overlay, given_of_kind hkind, PaymentValues.given]
  tokensAccepted := by simp [amended, PaymentValues.overlay, given_of_kind hkind, PaymentValues.given]
  maxRateTimespan := by simp [amended, PaymentValues.overlay, given_of_kind hkind, PaymentValues.given]
  values f text htext := by
    have hnot : f ∉ kind.fields := by
      intro hf
      rw [hlacks f hf] at htext
      cases htext
    rw [amended, PaymentValues.get?_overlay, get?_given_eq_none hkind hnot, Option.none_or, htext]
  events := List.prefix_append _ _

/-- After an amendment the state has all values of its kind. -/
theorem isSome_get?_amended (hkind : s.action.kind? = some kind)
    (hbrought : ∀ f ∈ kind.fields, (s.parameters.get? f).any (PaymentValues.isValid f) = true) :
    ∀ f ∈ kind.fields, ((s.amended state).values.get? f).isSome := by
  intro f hf
  obtain ⟨text, htext, -⟩ := (Option.any_eq_true _ _).1 (hbrought f hf)
  simp [amended, given_of_kind hkind, PaymentValues.get?_given, hf, htext]

end Submission

/-! ## What a state tells of its history -/

/-- The submissions that made a state: one that created it, and those that have amended it since. -/
structure ExtensionState.MadeBy (state : ExtensionState) (creation : Submission) (amendments : List Submission) :
    Prop where
  network : ∃ network : PaymentNetwork, creation.action.id = network.id
  created : creation.action.kind? = some .create
  amended : ∀ s ∈ amendments, ∃ kind, s.action.kind? = some kind ∧ kind ≠ .create
  once : (amendments.map (·.action.action)).Nodup
  id : state.id = creation.action.id
  version : state.version = creation.action.version.getD PaymentNetwork.currentVersion
  values : state.values = (state.events.map (·.parameters)).foldl PaymentValues.overlay creation.parameters
  events : state.events = amendments.map Submission.event
  given : ∀ s ∈ amendments, ∀ kind, s.action.kind? = some kind → ∀ f ∈ kind.fields, (state.values.get? f).isSome

/-- Each kind of amendment is made once: the state has the values of those that were made. -/
theorem ExtensionState.MadeBy.amend {state : ExtensionState} {creation s : Submission} {amendments : List Submission}
    {kind : ActionKind} (h : state.MadeBy creation amendments) (hkind : s.action.kind? = some kind)
    (hne : kind ≠ .create) (hbrought : ∀ f ∈ kind.fields, (s.parameters.get? f).any (PaymentValues.isValid f) = true)
    (hlacks : ∀ f ∈ kind.fields, state.values.get? f = none) :
    (s.amended state).MadeBy creation (amendments ++ [s]) where
  network := h.network
  created := h.created
  amended s' hs' := by
    rcases List.mem_append.1 hs' with hs' | hs'
    · exact h.amended s' hs'
    · obtain rfl := List.mem_singleton.1 hs'
      exact ⟨kind, hkind, hne⟩
  once := by
    have hnew : s.action.action ∉ amendments.map (·.action.action) := by
      intro hmem
      obtain ⟨s', hs', hname⟩ := List.mem_map.1 hmem
      have hkind' : s'.action.kind? = some kind := (congrArg ActionKind.ofName? hname).trans hkind
      obtain ⟨f, hf⟩ := ActionKind.exists_mem_fields hne
      have hgiven := h.given s' hs' kind hkind' f hf
      rw [hlacks f hf] at hgiven
      exact absurd hgiven Bool.false_ne_true
    rw [List.map_append, List.map_singleton, ← List.concat_eq_append]
    exact List.Nodup.concat hnew h.once
  id := h.id
  version := h.version
  values := by
    rw [Submission.amended, List.map_append, List.foldl_append, ← h.values]
    rfl
  events := by rw [Submission.amended, List.map_append, ← h.events, List.map_singleton]
  given s' hs' kind' hkind' f hf := by
    rcases List.mem_append.1 hs' with hs' | hs'
    · obtain ⟨text, htext⟩ := Option.isSome_iff_exists.1 (h.given s' hs' kind' hkind' f hf)
      rw [(Submission.grows_amended hkind hlacks).values f text htext]
      rfl
    · obtain rfl := List.mem_singleton.1 hs'
      obtain rfl := Option.some.inj (hkind.symm.trans hkind')
      exact Submission.isSome_get?_amended hkind hbrought f hf

/-- The submissions that were accepted for an extension tell how it stands. -/
def Tells (history : List Submission) : Option ExtensionState → Prop
  | none => history = []
  | some state => ∃ creation amendments, history = creation :: amendments ∧ state.MadeBy creation amendments

namespace Submission.Changes

variable {s : Submission} {current : Option ExtensionState} {next : ExtensionState}

theorem grows {state : ExtensionState} (h : s.Changes (some state) next) : state.Grows next := by
  cases h with
  | amend network kind party _ hid hkind hparty hsigned hbrought hlacks => exact grows_amended hkind hlacks

theorem tells {history : List Submission} (h : s.Changes current next) (htells : Tells history current) :
    Tells (history ++ [s]) (some next) := by
  cases h with
  | create network hid hkind hcheck hwell =>
    obtain rfl : history = [] := htells
    exact ⟨s, [], rfl, {
      network := ⟨network, hid⟩
      created := hkind
      amended := fun _ h => absurd h List.not_mem_nil
      once := List.nodup_nil
      id := rfl
      version := rfl
      values := rfl
      events := rfl
      given := fun _ h => absurd h List.not_mem_nil }⟩
  | amend network kind party state hid hkind hparty hsigned hbrought hlacks =>
    obtain ⟨creation, amendments, rfl, hmade⟩ := htells
    have hne : kind ≠ .create := fun h => nomatch (ActionKind.party?_eq_none_iff.2 h).symm.trans hparty
    exact ⟨creation, amendments ++ [s], rfl, hmade.amend hkind hne hbrought hlacks⟩

end Submission.Changes

/-! ## Runs of the known networks -/

namespace Registry

variable {extensions : Extensions} {id : String} {state : ExtensionState}

/-- A state is still there after any submission, and has only grown. -/
theorem grows_next (s : Submission) (hstate : extensions.get? id = some state) :
    ∃ later, (builtin.next extensions s).get? id = some later ∧ state.Grows later := by
  rcases next_builtin extensions s with ⟨hnext, -⟩ | ⟨next, hchanges, hnext, -⟩
  · exact ⟨state, by rw [hnext, hstate], .refl state⟩
  · rw [hnext, Dict.get?_insert]
    by_cases hid : id = s.action.id
    · subst hid
      rw [hstate] at hchanges
      exact ⟨next, if_pos rfl, hchanges.grows⟩
    · exact ⟨state, by rw [if_neg hid, hstate], .refl state⟩

theorem grows_run (ss : List Submission) (hstate : extensions.get? id = some state) :
    ∃ later, (builtin.run extensions ss).get? id = some later ∧ state.Grows later := by
  induction ss generalizing extensions state with
  | nil => exact ⟨state, hstate, .refl state⟩
  | cons s ss ih =>
    obtain ⟨mid, hmid, hgrows⟩ := grows_next s hstate
    obtain ⟨later, hlater, hgrows'⟩ := ih hmid
    exact ⟨later, hlater, hgrows.trans hgrows'⟩

/-- The accepted submissions for an extension tell how it stands after them if they did so before. -/
theorem tells_run (ss : List Submission) {history : List Submission}
    (htells : ∀ id, Tells (history.filter (·.action.id = id)) (extensions.get? id)) (id : String) :
    Tells ((history ++ builtin.accepted extensions ss).filter (·.action.id = id))
      ((builtin.run extensions ss).get? id) := by
  induction ss generalizing extensions history with
  | nil => simpa [accepted, run] using htells id
  | cons s ss ih =>
    rw [run_cons]
    rcases next_builtin extensions s with ⟨hnext, haccepted⟩ | ⟨next, hchanges, hnext, haccepted⟩
    · rw [hnext, haccepted]
      exact ih htells
    · rw [haccepted, List.append_cons]
      refine ih fun id' => ?_
      rw [hnext, Dict.get?_insert, List.filter_append]
      by_cases hid : id' = s.action.id
      · subst hid
        simpa using hchanges.tells (htells _)
      · simpa [hid, Ne.symm hid] using htells id'

/-- **A state is written once, and can be read off its log.** After any run from no extensions at all, an extension
without a state has had no submission accepted. One that has a state was created once, by the first submission that
was accepted for it, and each kind of amendment was made at most once: the log has the amendments in their order, and
the values are those of the creation under those of the log. Whatever comes later, the state stays and only grows, and
to create it again is refused. -/
theorem history_of_run (ss : List Submission) (id : String) :
    let extensions := builtin.run .empty ss
    let history := (builtin.accepted .empty ss).filter (·.action.id = id)
    match extensions.get? id with
    | none => history = []
    | some state =>
      (∃ creation amendments, history = creation :: amendments ∧ state.MadeBy creation amendments) ∧
        (∀ s : Submission, s.action.id = id → s.action.kind? = some .create →
          builtin.apply extensions s = .error .alreadyCreated) ∧
        ∀ later, ∃ state', (builtin.run extensions later).get? id = some state' ∧ state.Grows state' := by
  intro extensions history
  have hempty (id : String) : Tells (([] : List Submission).filter (·.action.id = id))
    ((Dict.empty : Extensions).get? id) := rfl
  have htells : Tells history (extensions.get? id) := tells_run ss hempty id
  cases hstate : extensions.get? id with
  | none => rwa [hstate] at htells
  | some state =>
    rw [hstate] at htells
    obtain ⟨creation, amendments, hhistory, hmade⟩ := htells
    refine ⟨⟨creation, amendments, hhistory, hmade⟩, fun s hid hkind => ?_, fun later => grows_run later hstate⟩
    have hcreation : creation ∈ history := hhistory ▸ List.mem_cons_self
    have hcreationId : creation.action.id = id := of_decide_eq_true (List.mem_filter.1 hcreation).2
    obtain ⟨network, hnetwork⟩ := hmade.network
    exact apply_create_again (hid.trans (hcreationId.symm.trans hnetwork)) hkind (hid ▸ hstate)

end Registry

/-! ## A trial -/

/-- The payee of the trials. -/
def Identity.trial : Identity := ⟨.account, "0xaaaaaaaaaaaaaaaaaaaaaaaaaaaaaaaaaaaaaaaa"⟩

namespace Submission

/-- An action of the trials on the token network, for a request that has a payee and no payer. -/
def trial (kind : ActionKind) (parameters : PaymentValues) (signer : Identity) : Submission where
  action := .ofKind kind PaymentNetwork.token.id parameters
  request := ⟨"request", ⟨.token, Identity.trial.value, none⟩, some .trial, none, "100", .empty, 5⟩
  signer := signer
  timestamp := 7

def trialCreation : Submission := trial .create .empty .trial

def trialAmendment : Submission :=
  trial .addPaymentAddress { PaymentValues.empty with paymentAddress := some Identity.trial.value } .trial

/-- The amendment, signed by a contract under the payee's address. -/
def trialForgery : Submission := { trialAmendment with signer := { Identity.trial with kind := .contract } }

end Submission

namespace Registry

/-- Of the steps of the trial the forgery is refused, and so is a second amendment. -/
example : (builtin.accepted .empty [.trialCreation, .trialForgery, .trialAmendment, .trialAmendment]).map
    (·.action.action) = ["create", "addPaymentAddress"] := by decide +kernel

end Registry

end Invoicing
