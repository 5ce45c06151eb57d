import Invoicing.Extension.Builder
import Invoicing.Proofs.Extension.Validity

set_option autoImplicit false

/-! # Builders and handlers agree

The format of an action is checked when it is built and once more when it is submitted, by checks of their own. They
ask for the same: whatever is built has the right format (`PaymentNetwork.build?_eq_ok`), so when it is submitted only
the request, the state or the signer can be wrong, and whatever is accepted could have been built. -/

namespace Invoicing

open Effect (check_eq_ok bind_eq_error)
open PaymentValues

/-! ## Errors of format -/

namespace ExtensionError

/-- Is something wrong with the action in itself: its name, its extension or the format of its values? -/
def IsFormat : ExtensionError → Prop
  | unknownAction _ => True
  | unknownExtension _ => True
  | invalidAddress _ => True
  | unusableAddress _ => True
  | invalidAmount _ => True
  | missingTokens => True
  | invalidTokens => True
  | _ => False

/-- If the result is an error, then not one of format. -/
def FormatFree {α : Type} (r : Except ExtensionError α) : Prop := ∀ e, r = .error e → ¬ e.IsFormat

variable {α β : Type}

theorem formatFree_ok (a : α) : FormatFree (.ok a) := by
  intro e h
  cases h

theorem formatFree_error {e : ExtensionError} (he : ¬ e.IsFormat) :
    FormatFree (.error e : Except ExtensionError α) := by
  intro e' h
  cases h
  exact he

theorem FormatFree.bind {r : Except ExtensionError α} {f : α → Except ExtensionError β} (hr : FormatFree r)
    (hf : ∀ a, FormatFree (f a)) : FormatFree (r >>= f) := by
  intro e h
  rcases bind_eq_error.1 h with h | ⟨a, -, h⟩
  · exact hr e h
  · exact hf a e h

end ExtensionError

open ExtensionError

/-! ## What is built -/

namespace PaymentNetwork

/-- What the network's builder for a kind of action makes of the values that it takes, if they are all there. -/
def build? (network : PaymentNetwork) (v : PaymentValues) : ActionKind → Option (Except ExtensionError ExtensionAction)
  | .create => some (network.creation v)
  | .addPaymentAddress => v.paymentAddress.map network.paymentAddressAction
  | .addRefundAddress => v.refundAddress.map network.refundAddressAction
  | .addFee => v.feeAddress.bind fun address => v.feeAmount.map (network.feeAction address)

/-- The values have the format that an action of the kind needs. -/
def Suits (network : PaymentNetwork) (v : PaymentValues) : ActionKind → Prop
  | .create => v.WellFormed ∧ (network = .conversion → checkTokens v.tokensAccepted = .ok ())
  | kind => ∀ f ∈ kind.fields, (v.get? f).any (isValid f) = true

/-- The action of a kind with the values that belong to it. -/
def action (network : PaymentNetwork) (v : PaymentValues) : ActionKind → ExtensionAction
  | .create => { ExtensionAction.ofKind .create network.id v with version := some currentVersion }
  | kind => .ofKind kind network.id (v.given kind)

variable {network : PaymentNetwork} {v : PaymentValues} {kind : ActionKind} {a : ExtensionAction}

@[simp] theorem id_action (network : PaymentNetwork) (v : PaymentValues) (kind : ActionKind) :
    (network.action v kind).id = network.id := by
  cases kind <;> rfl

@[simp] theorem kind?_action (network : PaymentNetwork) (v : PaymentValues) (kind : ActionKind) :
    (network.action v kind).kind? = some kind := by
  cases kind <;> rfl

theorem checkUsable_eq_ok {value : Option String} {field : ValueField} :
    checkUsable value field = .ok () ↔ ∀ text, value = some text → Address.isValid text = true := by
  simp [checkUsable, Option.all_eq_true]

/-- The checks of a builder say that the values are well-formed. -/
theorem checkCreation_eq_ok : checkCreation v = .ok () ↔ v.WellFormed := by
  simp only [checkCreation, check_eq_ok, checkUsable_eq_ok, wellFormed_iff, checkOptionalAddress_eq_ok]

theorem creation_eq_ok :
    network.creation v = .ok a ↔ network.Suits v .create ∧ a = network.action v .create := by
  unfold Suits
  rw [← checkCreation_eq_ok]
  cases network with
  | token =>
    show (checkCreation v >>= fun _ => .ok (token.action v .create)) = .ok a ↔ _
    simp [check_eq_ok, eq_comm (a := a)]
  | conversion =>
    show (checkCreation v >>= fun _ => checkTokens v.tokensAccepted >>= fun _ =>
      .ok (conversion.action v .create)) = .ok a ↔ _
    simp [check_eq_ok, eq_comm (a := a), and_assoc]

/-- A builder that checks one address. -/
theorem address_builder_eq_ok {address : String} {field : ValueField} {built : ExtensionAction} :
    (do checkUsable (some address) field; return built) = .ok a ↔ Address.isValid address = true ∧ a = built := by
  rw [check_eq_ok, checkUsable_eq_ok]
  simp [pure, Except.pure, eq_comm (a := a)]

theorem feeAction_eq_ok {address amount : String} :
    network.feeAction address amount = .ok a ↔ Address.isValid address = true ∧ Amount.isValidText amount = true ∧
      a = .ofKind .addFee network.id
        { PaymentValues.empty with feeAddress := some address, feeAmount := some amount } := by
  rw [feeAction, check_eq_ok, check_eq_ok, checkUsable_eq_ok, checkOptionalAmount_eq_ok]
  simp [pure, Except.pure, eq_comm (a := a)]

/-- **What the builders make.** There is an action exactly if the values suit its kind. It is on the network's
extension, and has the values that belong to it and no others. -/
theorem build?_eq_ok :
    network.build? v kind = some (.ok a) ↔ network.Suits v kind ∧ a = network.action v kind := by
  cases kind with
  | create => exact (Option.some_inj).trans creation_eq_ok
  | addPaymentAddress =>
    cases haddress : v.paymentAddress with
    | none => simp [build?, Suits, ActionKind.fields, get?, haddress]
    | some address =>
      simp only [build?, haddress, Option.map_some, Option.some.injEq, paymentAddressAction, address_builder_eq_ok]
      simp [Suits, action, given, ActionKind.fields, get?, isValid, PaymentValues.empty, haddress]
  | addRefundAddress =>
    cases haddress : v.refundAddress with
    | none => simp [build?, Suits, ActionKind.fields, get?, haddress]
    | some address =>
      simp only [build?, haddress, Option.map_some, Option.some.injEq, refundAddressAction, address_builder_eq_ok]
      simp [Suits, action, given, ActionKind.fields, get?, isValid, PaymentValues.empty, haddress]
  | addFee =>
    cases haddress : v.feeAddress with
    | none => simp [build?, Suits, ActionKind.fields, get?, haddress]
    | some address =>
      cases hamount : v.feeAmount with
      | none => simp [build?, Suits, ActionKind.fields, get?, haddress, hamount]
      | some amount =>
        simp only [build?, haddress, hamount, Option.bind_some, Option.map_some, Option.some.injEq, feeAction_eq_ok]
        simp [Suits, action, given, ActionKind.fields, get?, isValid, PaymentValues.empty, haddress, hamount, and_assoc]

theorem suits_action (h : network.Suits v kind) : network.Suits (network.action v kind).parameters kind := by
  have hgiven : ∀ f ∈ kind.fields, (v.given kind).get? f = v.get? f := by
    intro f hf
    rw [get?_given, if_pos hf]
  cases kind with
  | create => exact h
  | _ =>
    intro f hf
    exact (congrArg (Option.any (isValid f)) (hgiven f hf)).trans (h f hf)

/-! ## The rules of the networks -/

/-- The currency can be converted on a chain. -/
def Converts (chain : String) (currency : Currency) : Prop :=
  ∃ table values, conversionCurrencies.lookup chain = some table ∧ table.lookup currency.kind = some values ∧
    isListed currency values = true

theorem checkConversion_eq_ok {request : Request} : checkConversion v request = .ok () ↔
    Converts (v.network.getD defaultChain) request.currency ∧ checkTokens v.tokensAccepted = .ok () := by
  unfold checkConversion Converts
  dsimp only
  cases conversionCurrencies.lookup (v.network.getD defaultChain) with
  | none => simp
  | some table =>
    simp only [Option.some.injEq, exists_and_left, exists_eq_left']
    cases table.lookup request.currency.kind with
    | none => simp
    | some values =>
      by_cases hlisted : isListed request.currency values = true
      · simp [hlisted]
      · simp [hlisted]

/-- With suitable values, the rules ask for another request and not for another format. -/
theorem formatFree_check (h : network.Suits v .create) (request : Request) : FormatFree (network.check v request) := by
  obtain ⟨-, htokens⟩ := h
  cases network with
  | token =>
    simp only [check, checkToken]
    split
    · split
      · exact formatFree_ok _
      · exact formatFree_error not_false
    · exact formatFree_error not_false
  | conversion =>
    simp only [check, checkConversion, htokens rfl]
    split
    · exact formatFree_error not_false
    · split
      · exact formatFree_error not_false
      · split
        · exact formatFree_ok _
        · exact formatFree_error not_false

end PaymentNetwork

/-! ## What is submitted -/

namespace Handler

variable {s : Submission} {kind : ActionKind} {network : PaymentNetwork}

theorem formatFree_requireState (current : Option ExtensionState) : FormatFree (requireState current) := by
  cases current with
  | none => exact formatFree_error not_false
  | some state => exact formatFree_ok state

theorem formatFree_requireSigner (party : Party) (s : Submission) : FormatFree (requireSigner party s) := by
  unfold requireSigner
  split
  · exact formatFree_error not_false
  · split
    · exact formatFree_ok _
    · exact formatFree_error not_false

theorem formatFree_requireAbsent (given : Bool) (field : ValueField) : FormatFree (requireAbsent given field) := by
  cases given with
  | false => exact formatFree_ok _
  | true => exact formatFree_error not_false

/-- A handler whose check of the values succeeds. -/
theorem formatFree_amend {party : Party} {check : Except ExtensionError Unit} (hcheck : check = .ok ())
    (given : ExtensionState → Bool) (field : ValueField) (f : ExtensionState → ExtensionState)
    (current : Option ExtensionState) :
    FormatFree (do
      check
      let state ← requireState current
      requireSigner party s
      requireAbsent (given state) field
      return f state) := by
  rw [hcheck]
  refine (formatFree_ok ()).bind fun _ => (formatFree_requireState current).bind fun state => ?_
  refine (formatFree_requireSigner party s).bind fun _ => ?_
  exact (formatFree_requireAbsent (given state) field).bind fun _ => formatFree_ok _

theorem formatFree_applyCreate (h : network.Suits s.parameters .create) (version : String)
    (current : Option ExtensionState) : FormatFree (applyCreate network version current s) := by
  obtain ⟨hpayment, hrefund, haddress, hamount⟩ := wellFormed_iff.1 h.1
  cases current with
  | some state => exact formatFree_error not_false
  | none =>
    show FormatFree (network.check s.parameters s.request >>= _)
    refine (PaymentNetwork.formatFree_check h s.request).bind fun _ => ?_
    rw [hpayment, hrefund, haddress, hamount]
    exact formatFree_ok _

/-- Values that suit the kind of their action are not refused for their format. -/
theorem formatFree_apply (h : network.Suits s.parameters kind) (current : Option ExtensionState) :
    FormatFree ((network.handler kind).apply current s) := by
  cases kind with
  | create => exact formatFree_applyCreate h _ current
  | addPaymentAddress =>
    exact formatFree_amend (checkAddress_eq_ok.2 (h .paymentAddress List.mem_cons_self)) _ _ _ current
  | addRefundAddress =>
    exact formatFree_amend (checkAddress_eq_ok.2 (h .refundAddress List.mem_cons_self)) _ _ _ current
  | addFee =>
    have haddress : checkAddress s.parameters.feeAddress .feeAddress = .ok () :=
      checkAddress_eq_ok.2 (h .feeAddress List.mem_cons_self)
    have hamount : checkAmount s.parameters.feeAmount .feeAmount = .ok () :=
      checkAmount_eq_ok.2 (h .feeAmount (List.mem_cons_of_mem _ List.mem_cons_self))
    show FormatFree (applyFee current s)
    rw [applyFee, haddress]
    exact formatFree_amend hamount _ _ _ current

end Handler

namespace Submission

/-- What is accepted has values that suit its kind. -/
theorem Changes.suits {s : Submission} {current : Option ExtensionState} {next : ExtensionState}
    (h : s.Changes current next) : ∃ (network : PaymentNetwork) (kind : ActionKind),
      s.action.id = network.id ∧ s.action.kind? = some kind ∧ network.Suits s.parameters kind := by
  cases h with
  | create network hid hkind hcheck hwell =>
    refine ⟨network, .create, hid, hkind, hwell, ?_⟩
    rintro rfl
    exact (PaymentNetwork.checkConversion_eq_ok.1 hcheck).2
  | amend network kind party state hid hkind hparty hsigned hbrought hlacks =>
    refine ⟨network, kind, hid, hkind, ?_⟩
    cases kind with
    | create => cases hparty
    | _ => exact hbrought

end Submission

namespace Registry

theorem formatFree_apply {s : Submission} {network : PaymentNetwork} {kind : ActionKind}
    (hid : s.action.id = network.id) (hkind : s.action.kind? = some kind) (h : network.Suits s.parameters kind)
    (extensions : Extensions) : FormatFree (builtin.apply extensions s) := by
  unfold apply
  dsimp only
  split
  · exact formatFree_error not_false
  · rw [builtin_handler_eq_ok.2 ⟨network, kind, hid, hkind, rfl⟩]
    exact (Handler.formatFree_apply h (extensions.get? s.action.id)).bind fun _ => formatFree_ok _

/-- **Builders and reducer ask for the same format.** For any values, a creation on the conversion network can be built
exactly if it is accepted where the extension is lacking and the currency of the request can be converted on the chain
that they name. An action that a builder of either network has made is never refused for its name, its extension or the
format of its values, whatever the extensions, the request and the signer. And of every action that is accepted, the
builder of its kind takes the values. -/
theorem builders_agree :
    (∀ (extensions : Extensions) (s : Submission), s.action.id = PaymentNetwork.conversion.id →
      s.action.kind? = some .create → extensions.get? s.action.id = none →
      PaymentNetwork.Converts (s.parameters.network.getD PaymentNetwork.defaultChain) s.request.currency →
      ((∃ a, PaymentNetwork.conversion.creation s.parameters = .ok a) ↔
        ∃ next, builtin.apply extensions s = .ok next)) ∧
    (∀ (network : PaymentNetwork) (v : PaymentValues) (kind : ActionKind) (a : ExtensionAction),
      network.build? v kind = some (.ok a) → ∀ (extensions : Extensions) (s : Submission), s.action = a →
        ∀ e, builtin.apply extensions s = .error e → ¬ e.IsFormat) ∧
    (∀ (extensions next : Extensions) (s : Submission), builtin.apply extensions s = .ok next →
      ∃ (network : PaymentNetwork) (kind : ActionKind) (a : ExtensionAction), s.action.id = network.id ∧
        s.action.kind? = some kind ∧ network.build? s.parameters kind = some (.ok a) ∧
        a.id = s.action.id ∧ a.kind? = s.action.kind?) := by
  refine ⟨fun extensions s hid hkind hnone hconverts => ⟨?_, ?_⟩, ?_, ?_⟩
  · rintro ⟨a, ha⟩
    obtain ⟨⟨hwell, htokens⟩, -⟩ := PaymentNetwork.creation_eq_ok.1 ha
    have hcheck := PaymentNetwork.checkConversion_eq_ok.2 ⟨hconverts, htokens rfl⟩
    refine ⟨_, apply_builtin.2 ⟨s.created, ?_, rfl⟩⟩
    rw [hnone]
    exact .create .conversion hid hkind hcheck hwell
  · rintro ⟨next, hnext⟩
    obtain ⟨state, hchanges, -⟩ := apply_builtin.1 hnext
    obtain ⟨network, kind, hid', hkind', hsuits⟩ := hchanges.suits
    obtain rfl := PaymentNetwork.id_injective (hid.symm.trans hid')
    obtain rfl := Option.some.inj (hkind.symm.trans hkind')
    exact ⟨_, PaymentNetwork.creation_eq_ok.2 ⟨hsuits, rfl⟩⟩
  · rintro network v kind a hbuilt extensions s rfl
    obtain ⟨hsuits, haction⟩ := PaymentNetwork.build?_eq_ok.1 hbuilt
    have hparameters : network.Suits s.parameters kind := by
      rw [Submission.parameters, haction]
      exact PaymentNetwork.suits_action hsuits
    exact formatFree_apply (haction ▸ PaymentNetwork.id_action network v kind)
      (haction ▸ PaymentNetwork.kind?_action network v kind) hparameters extensions
  · intro extensions next s hnext
    obtain ⟨state, hchanges, -⟩ := apply_builtin.1 hnext
    obtain ⟨network, kind, hid, hkind, hsuits⟩ := hchanges.suits
    refine ⟨network, kind, _, hid, hkind, PaymentNetwork.build?_eq_ok.2 ⟨hsuits, rfl⟩, ?_, ?_⟩
    · rw [PaymentNetwork.id_action, hid]
    · rw [PaymentNetwork.kind?_action, hkind]

/-- On the chain of the trial the creation can be built, and so it is accepted. A fee that was built is refused where
there is nothing to give it to, and it is not its format that is wrong. -/
theorem builders_agree_trial :
    (∃ next, builtin.apply .empty .trialConversion = .ok next) ∧
      builtin.apply .empty (.trialFee "5") = .error .uncreated ∧ ¬ ExtensionError.uncreated.IsFormat ∧
      ∃ a, PaymentNetwork.conversion.build? Submission.trialConversion.parameters .create = some (.ok a) := by
  obtain ⟨hcreation, hbuilt, haccepted⟩ := builders_agree
  have hconverts : PaymentNetwork.Converts "rinkeby" ⟨.fiat, "EUR", none⟩ :=
    ⟨_, ["EUR", "USD"], rfl, rfl, by decide +kernel⟩
  have hsuits : PaymentNetwork.conversion.Suits Submission.trialConversion.parameters .create := by
    refine ⟨wellFormed_iff.2 (by decide +kernel), fun _ => by decide +kernel⟩
  obtain ⟨next, hnext⟩ := (hcreation .empty .trialConversion rfl rfl rfl hconverts).1
    ⟨_, PaymentNetwork.creation_eq_ok.2 ⟨hsuits, rfl⟩⟩
  have hfee : PaymentNetwork.conversion.build? (Submission.trialFee "5").parameters .addFee =
      some (.ok (Submission.trialFee "5").action) := by
    decide +kernel
  have hrefused : builtin.apply .empty (.trialFee "5") = .error .uncreated := rfl
  refine ⟨⟨next, hnext⟩, hrefused, hbuilt _ _ _ _ hfee .empty _ rfl _ hrefused, ?_⟩
  obtain ⟨network, kind, a, hid, hkind, ha, -⟩ := haccepted .empty next .trialConversion hnext
  obtain rfl : PaymentNetwork.conversion = network := PaymentNetwork.id_injective hid
  obtain rfl := Option.some.inj hkind
  exact ⟨a, ha⟩

end Registry

end Invoicing
