import Invoicing.Extension.Registry
import Invoicing.Proofs.Effect

set_option autoImplicit false

/-! # What an action does to an extension

An action that is accepted either creates the extension that it names, or gives it values that it lacks and is signed
by the party who may give them. `Submission.Changes` lists these two ways with all their conditions, and the known
networks have no other (`Registry.apply_builtin`). -/

namespace Invoicing

/-! ## Values -/

namespace ActionKind

/-- The values that an action of a kind gives to an extension that is there. -/
def fields : ActionKind → List ValueField
  | create => []
  | addPaymentAddress => [.paymentAddress]
  | addRefundAddress => [.refundAddress]
  | addFee => [.feeAddress, .feeAmount]

/-- The party who has to sign an action of a kind. -/
def party? : ActionKind → Option Party
  | create => none
  | addPaymentAddress => some .payee
  | addRefundAddress => some .payer
  | addFee => some .payee

theorem party?_eq_none_iff {kind : ActionKind} : kind.party? = none ↔ kind = create := by
  cases kind <;> simp [party?]

theorem exists_mem_fields {kind : ActionKind} (h : kind ≠ create) : ∃ f, f ∈ kind.fields := by
  cases kind with
  | create => exact absurd rfl h
  | addPaymentAddress => exact ⟨_, List.mem_cons_self⟩
  | addRefundAddress => exact ⟨_, List.mem_cons_self⟩
  | addFee => exact ⟨_, List.mem_cons_self⟩

end ActionKind

namespace PaymentValues

/-- A value that can be given once. -/
def get? (v : PaymentValues) : ValueField → Option String
  | .paymentAddress => v.paymentAddress
  | .refundAddress => v.refundAddress
  | .feeAddress => v.feeAddress
  | .feeAmount => v.feeAmount

/-- The values with those of `w` in their place, where `w` has some. -/
def overlay (v w : PaymentValues) : PaymentValues where
  paymentAddress := w.paymentAddress.or v.paymentAddress
  refundAddress := w.refundAddress.or v.refundAddress
  feeAddress := w.feeAddress.or v.feeAddress
  feeAmount := w.feeAmount.or v.feeAmount
  salt := w.salt.or v.salt
  network := w.network.or v.network
  tokensAccepted := w.tokensAccepted.or v.tokensAccepted
  maxRateTimespan := w.maxRateTimespan.or v.maxRateTimespan

@[simp] theorem get?_overlay (v w : PaymentValues) (f : ValueField) :
    (v.overlay w).get? f = (w.get? f).or (v.get? f) := by
  cases f <;> rfl

/-- The values that an action of a kind gives, without any others that it brings. -/
def given (v : PaymentValues) (kind : ActionKind) : PaymentValues where
  paymentAddress := if .paymentAddress ∈ kind.fields then v.paymentAddress else none
  refundAddress := if .refundAddress ∈ kind.fields then v.refundAddress else none
  feeAddress := if .feeAddress ∈ kind.fields then v.feeAddress else none
  feeAmount := if .feeAmount ∈ kind.fields then v.feeAmount else none
  salt := none
  network := none
  tokensAccepted := none
  maxRateTimespan := none

theorem get?_given (v : PaymentValues) (kind : ActionKind) (f : ValueField) :
    (v.given kind).get? f = if f ∈ kind.fields then v.get? f else none := by
  cases f <;> rfl

/-- Is a value of its field well-formed? -/
def isValid : ValueField → String → Bool
  | .feeAmount => Amount.isValidText
  | _ => Address.isValid

/-- All values that are there are well-formed. -/
def WellFormed (v : PaymentValues) : Prop := ∀ f text, v.get? f = some text → isValid f text = true

end PaymentValues

/-! ## Ways to be accepted -/

namespace Submission

/-- The signer is a party of the request: of the same kind, and under the same address up to the case of letters. -/
def SignedBy (s : Submission) (party : Party) : Prop :=
  ∃ identity, Handler.partyOf s.request party = some identity ∧ identity.kind = s.signer.kind ∧
    identity.value.toList.map Char.toLower = s.signer.value.toList.map Char.toLower

/-- The state that a creation makes. -/
def created (s : Submission) : ExtensionState where
  id := s.action.id
  family := .paymentNetwork
  version := s.action.version.getD PaymentNetwork.currentVersion
  values := s.parameters
  events := []

/-- The values that the action is there to give. -/
def given (s : Submission) : PaymentValues := (s.action.kind?.map s.parameters.given).getD .empty

theorem given_of_kind {s : Submission} {kind : ActionKind} (h : s.action.kind? = some kind) :
    s.given = s.parameters.given kind := by
  simp [given, h]

/-- The entry that an action leaves in the log. -/
def event (s : Submission) : ExtensionEvent := ⟨s.action.action, s.given, s.timestamp⟩

/-- The state with the values that the action gives, and with its entry in the log. -/
def amended (s : Submission) (state : ExtensionState) : ExtensionState :=
  { state with
    values := state.values.overlay s.given
    events := state.events ++ [s.event] }

/-- The ways in which a submission is accepted for an extension, and what becomes of its state. -/
inductive Changes (s : Submission) : Option ExtensionState → ExtensionState → Prop where
  | create (network : PaymentNetwork) (hid : s.action.id = network.id)
      (hkind : s.action.kind? = some .create) (hcheck : network.check s.parameters s.request = .ok ())
      (hwell : s.parameters.WellFormed) : Changes s none s.created
  | amend (network : PaymentNetwork) (kind : ActionKind) (party : Party) (state : ExtensionState)
      (hid : s.action.id = network.id) (hkind : s.action.kind? = some kind)
      (hparty : kind.party? = some party) (hsigned : s.SignedBy party)
      (hbrought : ∀ f ∈ kind.fields, (s.parameters.get? f).any (PaymentValues.isValid f) = true)
      (hlacks : ∀ f ∈ kind.fields, state.values.get? f = none) :
      Changes s (some state) (s.amended state)

/-- A submission that is accepted is for a known network, and of a known kind. -/
theorem Changes.known {s : Submission} {current : Option ExtensionState} {next : ExtensionState}
    (h : s.Changes current next) :
    ∃ (network : PaymentNetwork) (kind : ActionKind), s.action.id = network.id ∧ s.action.kind? = some kind := by
  cases h with
  | create network hid hkind => exact ⟨network, .create, hid, hkind⟩
  | amend network kind party state hid hkind => exact ⟨network, kind, hid, hkind⟩

end Submission

open Effect (bind_eq_ok check_eq_ok)
open PaymentValues

/-! ## Checks -/

namespace PaymentValues

theorem checkAddress_eq_ok {value : Option String} {field : ValueField} :
    checkAddress value field = .ok () ↔ value.any Address.isValid = true := by
  simp [checkAddress]

theorem checkAmount_eq_ok {value : Option String} {field : ValueField} :
    checkAmount value field = .ok () ↔ value.any Amount.isValidText = true := by
  simp [checkAmount]

theorem checkOptionalAddress_eq_ok {value : Option String} {field : ValueField} :
    checkOptionalAddress value field = .ok () ↔ ∀ text, value = some text → Address.isValid text = true := by
  simp [checkOptionalAddress, Option.all_eq_true]

theorem checkOptionalAmount_eq_ok {value : Option String} {field : ValueField} :
    checkOptionalAmount value field = .ok () ↔ ∀ text, value = some text → Amount.isValidText text = true := by
  simp [checkOptionalAmount, Option.all_eq_true]

/-- The checks of a creation say that its values are well-formed. -/
theorem wellFormed_iff {v : PaymentValues} :
    v.WellFormed ↔ checkOptionalAddress v.paymentAddress .paymentAddress = .ok () ∧
      checkOptionalAddress v.refundAddress .refundAddress = .ok () ∧
      checkOptionalAddress v.feeAddress .feeAddress = .ok () ∧
      checkOptionalAmount v.feeAmount .feeAmount = .ok () := by
  rw [checkOptionalAddress_eq_ok, checkOptionalAddress_eq_ok, checkOptionalAddress_eq_ok, checkOptionalAmount_eq_ok]
  refine ⟨fun h => ⟨h .paymentAddress, h .refundAddress, h .feeAddress, h .feeAmount⟩, ?_⟩
  rintro ⟨hpayment, hrefund, haddress, hamount⟩ f
  cases f with
  | paymentAddress => exact hpayment
  | refundAddress => exact hrefund
  | feeAddress => exact haddress
  | feeAmount => exact hamount

end PaymentValues

/-! ## Handlers -/

namespace Handler

variable {current : Option ExtensionState} {s : Submission} {next : ExtensionState}

theorem requireState_eq_ok {state : ExtensionState} : requireState current = .ok state ↔ current = some state := by
  cases current <;> simp [requireState]

theorem requireSigner_eq_ok {party : Party} : requireSigner party s = .ok () ↔ s.SignedBy party := by
  unfold requireSigner Submission.SignedBy
  cases partyOf s.request party with
  | none => simp
  | some identity => simp [Identity.isSame, Address.same]

theorem requireAbsent_eq_ok {given : Bool} {field : ValueField} :
    requireAbsent given field = .ok () ↔ given = false := by
  cases given <;> simp [requireAbsent]

theorem applyCreate_eq_ok {network : PaymentNetwork} :
    applyCreate network PaymentNetwork.currentVersion current s = .ok next ↔
      current = none ∧ network.check s.parameters s.request = .ok () ∧ s.parameters.WellFormed ∧
        next = s.created := by
  rw [wellFormed_iff]
  cases current with
  | some state => exact ⟨nofun, fun h => nomatch h.1⟩
  | none =>
    show (network.check s.parameters s.request >>= _) = _ ↔ _
    simp only [check_eq_ok]
    constructor
    · rintro ⟨hcheck, hpayment, hrefund, haddress, hamount, hnext⟩
      exact ⟨trivial, hcheck, ⟨hpayment, hrefund, haddress, hamount⟩, (Except.ok.inj hnext).symm⟩
    · rintro ⟨-, hcheck, ⟨hpayment, hrefund, haddress, hamount⟩, rfl⟩
      exact ⟨hcheck, hpayment, hrefund, haddress, hamount, rfl⟩

/-- A handler that checks the values, then the state, the signer and the field, and then gives the values of a kind. -/
theorem amend_eq_ok {kind : ActionKind} {party : Party} {check : Except ExtensionError Unit}
    {given : ExtensionState → Bool} {field : ValueField} {f : ExtensionState → ExtensionState}
    (hcheck : check = .ok () ↔ ∀ f ∈ kind.fields, (s.parameters.get? f).any (isValid f) = true)
    (hgiven : ∀ state, given state = false ↔ ∀ f ∈ kind.fields, state.values.get? f = none)
    (hf : ∀ state, check = .ok () → f state = s.amended state) :
    (do
      check
      let state ← requireState current
      requireSigner party s
      requireAbsent (given state) field
      return f state) = .ok next ↔
    ∃ state, current = some state ∧ s.SignedBy party ∧
      (∀ f ∈ kind.fields, (s.parameters.get? f).any (isValid f) = true) ∧
      (∀ f ∈ kind.fields, state.values.get? f = none) ∧ next = s.amended state := by
  rw [check_eq_ok, bind_eq_ok]
  simp only [check_eq_ok, requireState_eq_ok, requireSigner_eq_ok, requireAbsent_eq_ok]
  constructor
  · rintro ⟨hok, state, hstate, hsigned, habsent, hnext⟩
    exact ⟨state, hstate, hsigned, hcheck.1 hok, (hgiven state).1 habsent,
      (Except.ok.inj hnext).symm.trans (hf state hok)⟩
  · rintro ⟨state, hstate, hsigned, hbrought, hlacks, rfl⟩
    have hok := hcheck.2 hbrought
    exact ⟨hok, state, hstate, hsigned, (hgiven state).2 hlacks, congrArg Except.ok (hf state hok)⟩

end Handler

namespace PaymentNetwork

theorem id_injective {network network' : PaymentNetwork} (h : network.id = network'.id) : network = network' := by
  cases network <;> cases network' <;> first | rfl | exact absurd h (by decide)

/-- The handler that a network has for a kind of action. -/
def handler (network : PaymentNetwork) : ActionKind → Handler
  | .create => .create network currentVersion
  | .addPaymentAddress => .addPaymentAddress
  | .addRefundAddress => .addRefundAddress
  | .addFee => .addFee

/-- The handlers of a network, the last one registered first. -/
def table (network : PaymentNetwork) : HandlerTable :=
  [.addFee, .addRefundAddress, .addPaymentAddress, .create].map fun kind => (kind, network.handler kind)

end PaymentNetwork

namespace Handler

variable {current : Option ExtensionState} {s : Submission} {next : ExtensionState}

theorem amended_eq_record {kind : ActionKind} (hkind : s.action.kind? = some kind) (state : ExtensionState) :
    s.amended state =
      record state s (state.values.overlay (s.parameters.given kind)) (s.parameters.given kind) := by
  rw [Submission.amended, Submission.event, Submission.given_of_kind hkind, record]

theorem apply_amend {network : PaymentNetwork} {kind : ActionKind} {party : Party}
    (hkind : s.action.kind? = some kind) (hparty : kind.party? = some party) :
    (network.handler kind).apply current s = .ok next ↔ ∃ state, current = some state ∧ s.SignedBy party ∧
      (∀ f ∈ kind.fields, (s.parameters.get? f).any (isValid f) = true) ∧
      (∀ f ∈ kind.fields, state.values.get? f = none) ∧ next = s.amended state := by
  cases kind with
  | create => cases hparty
  | addPaymentAddress =>
    cases hparty
    refine amend_eq_ok (checkAddress_eq_ok.trans (by simp [ActionKind.fields, get?]; rfl))
      (fun state => by simp [ActionKind.fields, get?]) fun state hok => ?_
    obtain ⟨address, haddress, -⟩ := (Option.any_eq_true _ _).1 (checkAddress_eq_ok.1 hok)
    rw [amended_eq_record hkind]
    simp [overlay, given, empty, ActionKind.fields, haddress]
  | addRefundAddress =>
    cases hparty
    refine amend_eq_ok (checkAddress_eq_ok.trans (by simp [ActionKind.fields, get?]; rfl))
      (fun state => by simp [ActionKind.fields, get?]) fun state hok => ?_
    obtain ⟨address, haddress, -⟩ := (Option.any_eq_true _ _).1 (checkAddress_eq_ok.1 hok)
    rw [amended_eq_record hkind]
    simp [overlay, given, empty, ActionKind.fields, haddress]
  | addFee =>
    cases hparty
    have hcheck : (do checkAddress s.parameters.feeAddress .feeAddress
                      checkAmount s.parameters.feeAmount .feeAmount) = .ok () ↔
        s.parameters.feeAddress.any Address.isValid = true ∧
          s.parameters.feeAmount.any Amount.isValidText = true := by
      rw [check_eq_ok, checkAddress_eq_ok, checkAmount_eq_ok]
    show applyFee current s = _ ↔ _
    rw [applyFee, ← bind_assoc]
    refine amend_eq_ok (hcheck.trans (by simp [ActionKind.fields, get?]; rfl))
      (fun state => by simp [ActionKind.fields, get?]) fun state hok => ?_
    obtain ⟨haddress, hamount⟩ := hcheck.1 hok
    obtain ⟨address, haddress, -⟩ := (Option.any_eq_true _ _).1 haddress
    obtain ⟨amount, hamount, -⟩ := (Option.any_eq_true _ _).1 hamount
    rw [amended_eq_record hkind]
    simp [overlay, given, empty, ActionKind.fields, haddress, hamount]

/-- A handler of a network accepts a submission exactly in one of the two ways. -/
theorem apply_handler {network : PaymentNetwork} {kind : ActionKind} (hid : s.action.id = network.id)
    (hkind : s.action.kind? = some kind) :
    (network.handler kind).apply current s = .ok next ↔ s.Changes current next := by
  cases hparty : kind.party? with
  | none =>
    obtain rfl := ActionKind.party?_eq_none_iff.1 hparty
    refine applyCreate_eq_ok.trans ⟨?_, ?_⟩
    · rintro ⟨rfl, hcheck, hwell, rfl⟩
      exact .create network hid hkind hcheck hwell
    · rintro (⟨network', hid', -, hcheck, hwell⟩ | ⟨-, kind', party, state, -, hkind', hparty', -⟩)
      · obtain rfl := PaymentNetwork.id_injective (hid.symm.trans hid')
        exact ⟨rfl, hcheck, hwell, rfl⟩
      · obtain rfl := Option.some.inj (hkind.symm.trans hkind')
        exact nomatch hparty.symm.trans hparty'
  | some party =>
    refine (apply_amend hkind hparty).trans ⟨?_, ?_⟩
    · rintro ⟨state, rfl, hsigned, hbrought, hlacks, rfl⟩
      exact .amend network kind party state hid hkind hparty hsigned hbrought hlacks
    · rintro (⟨-, -, hkind', -, -⟩ | ⟨-, kind', party', state, -, hkind', hparty', hsigned, hbrought, hlacks⟩)
      · obtain rfl := Option.some.inj (hkind.symm.trans hkind')
        exact nomatch hparty
      · obtain rfl := Option.some.inj (hkind.symm.trans hkind')
        obtain rfl := Option.some.inj (hparty.symm.trans hparty')
        exact ⟨state, rfl, hsigned, hbrought, hlacks, rfl⟩

end Handler

/-! ## The registry -/

namespace Registry

variable {network : PaymentNetwork} {kind : ActionKind} {s : Submission}

theorem lookup_table (network : PaymentNetwork) (kind : ActionKind) :
    network.table.lookup kind = some (network.handler kind) := by
  cases kind <;> rfl

theorem get?_registerNetwork (r : Registry) (network : PaymentNetwork) (id : String) :
    (r.registerNetwork network).tables.get? id =
      if id = network.id then some (network.table ++ (r.tables.get? network.id).getD []) else r.tables.get? id := by
  by_cases hid : id = network.id <;>
    simp [registerNetwork, register, Dict.get?_insert, hid, PaymentNetwork.handler, PaymentNetwork.table]

theorem builtin_get?_id (network : PaymentNetwork) : builtin.tables.get? network.id = some network.table := by
  cases network <;> simp [builtin, get?_registerNetwork, empty, PaymentNetwork.id]

theorem builtin_get?_eq_none {id : String} (h : ∀ network : PaymentNetwork, id ≠ network.id) :
    builtin.tables.get? id = none := by
  simp [builtin, get?_registerNetwork, empty, h]

/-- The known networks have a handler for each kind of action, and there are no others. -/
theorem builtin_handler_eq_ok {a : ExtensionAction} {h : Handler} :
    builtin.handler a = .ok h ↔ ∃ (network : PaymentNetwork) (kind : ActionKind),
      a.id = network.id ∧ a.kind? = some kind ∧ h = network.handler kind := by
  unfold handler
  cases hkind : a.kind? with
  | none =>
    constructor
    · intro hok
      cases hok
    · rintro ⟨_, _, -, hk, -⟩
      cases hk
  | some kind =>
    by_cases hid : ∃ network : PaymentNetwork, a.id = network.id
    · obtain ⟨network, hid⟩ := hid
      simp only [hid, builtin_get?_id, lookup_table, Except.ok.injEq, Option.some.injEq]
      constructor
      · rintro rfl
        exact ⟨network, kind, rfl, rfl, rfl⟩
      · rintro ⟨network', kind', hnetwork, rfl, rfl⟩
        rw [PaymentNetwork.id_injective hnetwork]
    · have hnone := builtin_get?_eq_none fun network hnetwork => hid ⟨network, hnetwork⟩
      simp only [hnone]
      constructor
      · intro hok
        cases hok
      · rintro ⟨network, -, hnetwork, -⟩
        exact absurd ⟨network, hnetwork⟩ hid

/-- What an action makes of the extension that it names. -/
def outcome (r : Registry) (current : Option ExtensionState) (s : Submission) :
    Except ExtensionError ExtensionState := do
  if current.isNone ∧ s.action.kind? ≠ some .create then throw .uncreated
  let handler ← r.handler s.action
  handler.apply current s

/-- An action reads and writes the extension that it names, and no other. -/
theorem apply_eq (r : Registry) (extensions : Extensions) (s : Submission) :
    r.apply extensions s =
      (r.outcome (extensions.get? s.action.id) s).map fun state => extensions.insert s.action.id state := by
  unfold apply outcome
  dsimp only
  split
  · rfl
  · cases r.handler s.action with
    | error e => rfl
    | ok handler =>
      show (handler.apply _ s >>= _) = Except.map _ (handler.apply _ s)
      cases handler.apply (extensions.get? s.action.id) s with
      | error e => rfl
      | ok state => rfl

/-- What the known networks make of an extension: it is created or amended, and there is no other way. -/
theorem outcome_builtin {current : Option ExtensionState} {state : ExtensionState} :
    builtin.outcome current s = .ok state ↔ s.Changes current state := by
  unfold outcome
  by_cases hguard : current.isNone ∧ s.action.kind? ≠ some .create
  · rw [if_pos hguard]
    refine ⟨nofun, ?_⟩
    intro hchanges
    cases hchanges with
    | create network hid hcreate => exact absurd hcreate hguard.2
    | amend => cases hguard.1
  · rw [if_neg hguard]
    show (builtin.handler s.action >>= _) = _ ↔ _
    simp only [bind_eq_ok, builtin_handler_eq_ok]
    constructor
    · rintro ⟨h, ⟨network, kind, hid, hkind, rfl⟩, hstate⟩
      exact (Handler.apply_handler hid hkind).1 hstate
    · intro hchanges
      obtain ⟨network, kind, hid, hkind⟩ := hchanges.known
      exact ⟨_, ⟨network, kind, hid, hkind, rfl⟩, (Handler.apply_handler hid hkind).2 hchanges⟩

/-- **What the known networks accept.** An action is accepted exactly in one of the two ways, and then the extension
that it names gets its new state and no other is touched. -/
theorem apply_builtin {extensions next : Extensions} :
    builtin.apply extensions s = .ok next ↔
      ∃ state, s.Changes (extensions.get? s.action.id) state ∧ next = extensions.insert s.action.id state := by
  simp only [apply_eq, ← outcome_builtin]
  cases builtin.outcome (extensions.get? s.action.id) s <;> simp [Except.map, eq_comm]

end Registry

end Invoicing
