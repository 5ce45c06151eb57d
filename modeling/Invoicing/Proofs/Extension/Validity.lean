import Invoicing.Proofs.Extension.History
import Mathlib.Data.List.Induction

set_option autoImplicit false

/-! # What an extension can hold

Actions come from anyone and may bring anything, but what is taken over into an extension has been looked at: at its
creation all values at once, and later each value that is given. So whatever is submitted, the extensions of a request
are well-formed (`Registry.wellFormed_run`). -/

namespace Invoicing

/-- The state of a known extension, under its own id and with well-formed values. The conversion network knows the
tokens that are accepted, and the chain that it names has a conversion proxy. -/
structure ExtensionState.WellFormed (state : ExtensionState) (id : String) : Prop where
  known : ∃ network : PaymentNetwork, id = network.id
  named : state.id = id
  values : state.values.WellFormed
  tokens : id = PaymentNetwork.conversion.id → ∃ tokens, state.values.tokensAccepted = some tokens ∧ tokens ≠ [] ∧
    ∀ token ∈ tokens, Address.isValid token = true
  chain : id = PaymentNetwork.conversion.id → ∀ chain, state.values.network = some chain →
    chain ∈ PaymentNetwork.conversionChains

/-- All extensions are well-formed. -/
def Extensions.WellFormed (extensions : Extensions) : Prop :=
  ∀ id state, extensions.get? id = some state → state.WellFormed id

/-! ## The rules of the conversion network -/

namespace PaymentNetwork

theorem checkTokens_eq_ok {tokens : Option (List String)} :
    checkTokens tokens = .ok () ↔
      ∃ ts, tokens = some ts ∧ ts ≠ [] ∧ ∀ token ∈ ts, Address.isValid token = true := by
  match tokens with
  | none => simp [checkTokens]
  | some [] => simp [checkTokens]
  | some (t :: ts) => simp [checkTokens]

/-- A request that can be converted is on a chain with a proxy, and names tokens. -/
theorem supports_of_checkConversion {v : PaymentValues} {request : Request} (h : checkConversion v request = .ok ()) :
    v.network.getD defaultChain ∈ conversionChains ∧ checkTokens v.tokensAccepted = .ok () := by
  unfold checkConversion at h
  dsimp only at h
  split at h
  · cases h
  · next table htable =>
    refine ⟨List.mem_map.2 ⟨_, Dict.mem_of_lookup htable, rfl⟩, ?_⟩
    split at h
    · cases h
    · split at h
      · exact h
      · cases h

end PaymentNetwork

/-! ## One submission -/

namespace Submission

variable {s : Submission}

theorem wellFormed_created {network : PaymentNetwork} (hid : s.action.id = network.id)
    (hcheck : network.check s.parameters s.request = .ok ()) (hwell : s.parameters.WellFormed) :
    s.created.WellFormed s.action.id := by
  have hconversion (h : s.action.id = PaymentNetwork.conversion.id) :
      s.parameters.network.getD PaymentNetwork.defaultChain ∈ PaymentNetwork.conversionChains ∧
        PaymentNetwork.checkTokens s.parameters.tokensAccepted = .ok () := by
    obtain rfl := PaymentNetwork.id_injective (hid.symm.trans h)
    exact PaymentNetwork.supports_of_checkConversion hcheck
  refine ⟨⟨network, hid⟩, rfl, hwell, fun h => PaymentNetwork.checkTokens_eq_ok.1 (hconversion h).2, ?_⟩
  intro h chain hchain
  have hmem := (hconversion h).1
  rwa [show s.parameters.network = some chain from hchain, Option.getD_some] at hmem

/-- A value that an amendment gives is well-formed, and all others stay as they were. -/
theorem wellFormed_amended {kind : ActionKind} {state : ExtensionState} {id : String}
    (hkind : s.action.kind? = some kind)
    (hbrought : ∀ f ∈ kind.fields, (s.parameters.get? f).any (PaymentValues.isValid f) = true)
    (hlacks : ∀ f ∈ kind.fields, state.values.get? f = none) (hstate : state.WellFormed id) :
    (s.amended state).WellFormed id := by
  have hgrows : state.Grows (s.amended state) := grows_amended hkind hlacks
  refine ⟨hstate.known, hstate.named, fun f text htext => ?_, fun h => ?_, fun h => ?_⟩
  · by_cases hf : f ∈ kind.fields
    · rw [amended, PaymentValues.get?_overlay, hlacks f hf, Option.or_none, given_of_kind hkind,
        PaymentValues.get?_given, if_pos hf] at htext
      simpa [htext] using hbrought f hf
    · rw [amended, PaymentValues.get?_overlay, get?_given_eq_none hkind hf, Option.none_or] at htext
      exact hstate.values f text htext
  · rw [hgrows.tokensAccepted]
    exact hstate.tokens h
  · rw [hgrows.network]
    exact hstate.chain h

/-- Whatever way a submission is accepted in, it leaves a well-formed state. -/
theorem Changes.wellFormed {current : Option ExtensionState} {next : ExtensionState} (h : s.Changes current next)
    (hcurrent : ∀ state, current = some state → state.WellFormed s.action.id) : next.WellFormed s.action.id := by
  cases h with
  | create network hid hkind hcheck hwell => exact wellFormed_created hid hcheck hwell
  | amend network kind party state hid hkind hparty hsigned hbrought hlacks =>
    exact wellFormed_amended hkind hbrought hlacks (hcurrent state rfl)

end Submission

namespace Registry

/-- A submission keeps the extensions well-formed. -/
theorem wellFormed_next {extensions : Extensions} (h : extensions.WellFormed) (s : Submission) :
    (builtin.next extensions s).WellFormed := by
  rcases next_builtin extensions s with ⟨hnext, -⟩ | ⟨next, hchanges, hnext, -⟩
  · rwa [hnext]
  · intro id state hstate
    rw [hnext, Dict.get?_insert] at hstate
    by_cases hid : id = s.action.id
    · subst hid
      rw [if_pos rfl] at hstate
      exact Option.some.inj hstate ▸ hchanges.wellFormed fun state hstate => h _ state hstate
    · rw [if_neg hid] at hstate
      exact h id state hstate

/-! ## Runs -/

/-- A run of submissions keeps the extensions well-formed. -/
theorem wellFormed_after {start : Extensions} (h : start.WellFormed) (ss : List Submission) :
    (builtin.run start ss).WellFormed := by
  induction ss using List.reverseRecOn with
  | nil => exact h
  | append_singleton ss s ih =>
    rw [run_append]
    exact wellFormed_next ih s

/-- **Only well-formed values are taken over.** Whatever is submitted to a request that has no extensions, every
extension that it gets is one of the known networks, under its own id. The addresses and the amount that it holds are
valid; the conversion network holds a list of accepted tokens that is not empty and has valid addresses only, and
names no chain or a supported one. -/
theorem wellFormed_run (ss : List Submission) (id : String) (state : ExtensionState)
    (hstate : (builtin.run .empty ss).get? id = some state) : state.WellFormed id := by
  have hempty : Extensions.WellFormed .empty := nofun
  exact wellFormed_after hempty ss id state hstate

end Registry

/-! ## A trial -/

namespace Submission

/-- A creation on the conversion network, with two accepted tokens. -/
def trialConversion : Submission where
  action := .ofKind .create PaymentNetwork.conversion.id
    { PaymentValues.empty with
      paymentAddress := some Identity.trial.value
      network := some "rinkeby"
      tokensAccepted := some [Identity.trial.value, "0xfb6916095ca1df60bb79ce92ce3ea74c37c5d359"] }
  request := ⟨"request", ⟨.fiat, "EUR", none⟩, some .trial, none, "100", .empty, 5⟩
  signer := .trial
  timestamp := 7

/-- The fee, for the network of the trial. -/
def trialFee (amount : String) : Submission :=
  { trialConversion with
    action := .ofKind .addFee PaymentNetwork.conversion.id
      { PaymentValues.empty with feeAddress := some Identity.trial.value, feeAmount := some amount } }

end Submission

namespace Registry

/-- A fee that is no amount is refused, and one that is comes into the state. -/
theorem wellFormed_run_trial :
    ∃ state, (builtin.run .empty [.trialConversion, .trialFee "-5", .trialFee "5"]).get? PaymentNetwork.conversion.id =
        some state ∧ state.values.feeAmount = some "5" ∧ state.WellFormed PaymentNetwork.conversion.id := by
  obtain ⟨state, hstate, hfee⟩ : ∃ state,
      (builtin.run .empty [.trialConversion, .trialFee "-5", .trialFee "5"]).get? PaymentNetwork.conversion.id =
        some state ∧ state.values.feeAmount = some "5" :=
    Option.bind_eq_some_iff.1 (by decide +kernel)
  exact ⟨state, hstate, hfee, wellFormed_run _ _ state hstate⟩

end Registry

end Invoicing
