import Invoicing.Proofs.Extension.History
import Mathlib.Data.List.Induction

set_option autoImplicit false

/-! # Who may change an extension

Anyone may create an extension. Once it is there, only the parties of a request can give it a value that it lacks: the
payee those of the payment, the payer the refund address. -/

namespace Invoicing

namespace ValueField

/-- The kind of action that gives a value to an extension that is there. -/
def giver : ValueField → ActionKind
  | paymentAddress => .addPaymentAddress
  | refundAddress => .addRefundAddress
  | feeAddress => .addFee
  | feeAmount => .addFee

/-- The party who may give a value to an extension that is there. -/
def party : ValueField → Party
  | refundAddress => .payer
  | _ => .payee

theorem mem_fields_iff {f : ValueField} {kind : ActionKind} : f ∈ kind.fields ↔ kind = f.giver := by
  cases f <;> cases kind <;> simp [ActionKind.fields, giver]

theorem party?_giver (f : ValueField) : f.giver.party? = some f.party := by
  cases f <;> rfl

end ValueField

namespace Submission

/-- The submission may change an extension that is there: it is signed by the party that its kind needs. -/
def Authorized (s : Submission) : Prop :=
  (s.action.kind? = some .addPaymentAddress ∨ s.action.kind? = some .addFee) ∧ s.SignedBy .payee ∨
    s.action.kind? = some .addRefundAddress ∧ s.SignedBy .payer

theorem authorized_iff {s : Submission} :
    s.Authorized ↔ ∃ kind party, s.action.kind? = some kind ∧ kind.party? = some party ∧ s.SignedBy party := by
  constructor
  · rintro (⟨hkind | hkind, hsigned⟩ | ⟨hkind, hsigned⟩)
    · exact ⟨_, _, hkind, rfl, hsigned⟩
    · exact ⟨_, _, hkind, rfl, hsigned⟩
    · exact ⟨_, _, hkind, rfl, hsigned⟩
  · rintro ⟨kind, party, hkind, hparty, hsigned⟩
    cases kind with
    | create => cases hparty
    | addPaymentAddress =>
      cases hparty
      exact .inl ⟨.inl hkind, hsigned⟩
    | addRefundAddress =>
      cases hparty
      exact .inr ⟨hkind, hsigned⟩
    | addFee =>
      cases hparty
      exact .inl ⟨.inr hkind, hsigned⟩

/-- Where a value of a state comes from: it was there before, or the submission has brought it, in creating the
extension or as a value that was lacking. -/
theorem Changes.origin {s : Submission} {current : Option ExtensionState} {next : ExtensionState} {field : ValueField}
    {text : String} (h : s.Changes current next) (htext : next.values.get? field = some text) :
    (∃ state, current = some state ∧ state.values.get? field = some text) ∨
      s.parameters.get? field = some text ∧
        (current = none ∧ s.action.kind? = some .create ∨
          (∃ state, current = some state ∧ state.values.get? field = none) ∧
            s.action.kind? = some field.giver ∧ s.SignedBy field.party) := by
  cases h with
  | create network hid hkind hcheck hwell => exact .inr ⟨htext, .inl ⟨rfl, hkind⟩⟩
  | amend network kind party state hid hkind hparty hsigned hbrought hlacks =>
    by_cases hf : field ∈ kind.fields
    · have hnone : state.values.get? field = none := hlacks field hf
      obtain rfl := ValueField.mem_fields_iff.1 hf
      obtain rfl := Option.some.inj ((ValueField.party?_giver field).symm.trans hparty)
      rw [amended, PaymentValues.get?_overlay, hnone, Option.or_none, given_of_kind hkind, PaymentValues.get?_given,
        if_pos hf] at htext
      exact .inr ⟨htext, .inr ⟨⟨state, rfl, hnone⟩, hkind, hsigned⟩⟩
    · rw [amended, PaymentValues.get?_overlay, get?_given_eq_none hkind hf, Option.none_or] at htext
      exact .inl ⟨state, rfl, htext⟩

end Submission

/-- An extension has a value. -/
def Extensions.Holds (extensions : Extensions) (id : String) (field : ValueField) (text : String) : Prop :=
  ∃ state, extensions.get? id = some state ∧ state.values.get? field = some text

/-- A submission gives an extension a value: in creating it, or as one that it lacks and the signer may give. -/
def Submission.Brings (s : Submission) (extensions : Extensions) (id : String) (field : ValueField) (text : String) :
    Prop :=
  s.action.id = id ∧ s.parameters.get? field = some text ∧
    (extensions.get? id = none ∧ s.action.kind? = some .create ∨
      (∃ state, extensions.get? id = some state ∧ state.values.get? field = none) ∧
        s.action.kind? = some field.giver ∧ s.SignedBy field.party)

namespace Registry

variable {extensions : Extensions} {s : Submission} {id : String} {field : ValueField} {text : String}

/-! ## One submission -/

theorem authorized_next {state : ExtensionState} (hstate : extensions.get? id = some state)
    (hchanged : (builtin.next extensions s).get? id ≠ some state) : s.action.id = id ∧ s.Authorized := by
  rcases next_builtin extensions s with ⟨hnext, -⟩ | ⟨next, hchanges, hnext, -⟩
  · rw [hnext] at hchanged
    exact absurd hstate hchanged
  · by_cases hid : id = s.action.id
    · subst hid
      rw [hstate] at hchanges
      cases hchanges with
      | amend network kind party _ hid hkind hparty hsigned =>
        exact ⟨rfl, Submission.authorized_iff.2 ⟨kind, party, hkind, hparty, hsigned⟩⟩
    · rw [hnext, Dict.get?_insert, if_neg hid] at hchanged
      exact absurd hstate hchanged

theorem origin_next (h : (builtin.next extensions s).Holds id field text) :
    extensions.Holds id field text ∨ s.Brings extensions id field text := by
  rcases next_builtin extensions s with ⟨hnext, -⟩ | ⟨next, hchanges, hnext, -⟩
  · exact .inl (hnext ▸ h)
  · obtain ⟨state, hstate, htext⟩ := h
    rw [hnext, Dict.get?_insert] at hstate
    by_cases hid : id = s.action.id
    · rw [if_pos hid] at hstate
      subst hid
      obtain rfl := Option.some.inj hstate
      exact (hchanges.origin htext).imp_right fun h => ⟨rfl, h⟩
    · rw [if_neg hid] at hstate
      exact .inl ⟨state, hstate, htext⟩

/-! ## Runs -/

/-- In a run, a submission takes some extensions to others. -/
def Takes (start : Extensions) (ss : List Submission) (s : Submission) (before after : Extensions) : Prop :=
  ∃ earlier later, ss = earlier ++ s :: later ∧ before = builtin.run start earlier ∧
    after = builtin.next before s

theorem Takes.append {start : Extensions} {ss : List Submission} {before after : Extensions}
    (h : Takes start ss s before after) (ss' : List Submission) : Takes start (ss ++ ss') s before after := by
  obtain ⟨earlier, later, rfl, hbefore, hafter⟩ := h
  exact ⟨earlier, later ++ ss', by simp, hbefore, hafter⟩

theorem takes_last (start : Extensions) (ss : List Submission) (s : Submission) :
    Takes start (ss ++ [s]) s (builtin.run start ss) (builtin.run start (ss ++ [s])) :=
  ⟨ss, [], rfl, rfl, run_append ss [s]⟩

theorem origin_run (start : Extensions) (ss : List Submission) (h : (builtin.run start ss).Holds id field text) :
    start.Holds id field text ∨ ∃ s before after, Takes start ss s before after ∧
      s.Brings before id field text ∧ after.Holds id field text := by
  induction ss using List.reverseRecOn with
  | nil => exact .inl h
  | append_singleton ss s ih =>
    have hnext : builtin.run start (ss ++ [s]) = builtin.next (builtin.run start ss) s := run_append ss [s]
    rcases origin_next (hnext ▸ h) with hbefore | hbrings
    · refine (ih hbefore).imp_right ?_
      rintro ⟨s', before, after, htakes, hbrings⟩
      exact ⟨s', before, after, htakes.append [s], hbrings⟩
    · exact .inr ⟨s, _, _, takes_last start ss s, hbrings, h⟩

/-- **Only the parties change an extension that is there.** In any run, a step that changes a state is an amendment of
that extension, signed by the payee of its request if it gives a payment address or a fee and by the payer if it gives
a refund address; so a step that neither of them has signed changes no state. Every value was there at the start, or
was brought by a step: by the one that created the extension, or by one signed by the party who may give it. -/
theorem authorized_run (start : Extensions) (ss : List Submission) (id : String) :
    (∀ s before after state, Takes start ss s before after → before.get? id = some state →
        (after.get? id ≠ some state → s.action.id = id ∧ s.Authorized) ∧
        (¬ s.SignedBy .payee → ¬ s.SignedBy .payer → after.get? id = some state)) ∧
      ∀ field text, (builtin.run start ss).Holds id field text →
        start.Holds id field text ∨
          ∃ s before after, Takes start ss s before after ∧ s.Brings before id field text ∧
            after.Holds id field text := by
  refine ⟨?_, fun field text h => origin_run start ss h⟩
  rintro s before after state ⟨earlier, later, -, -, rfl⟩ hstate
  have hauthorized := authorized_next (s := s) hstate
  refine ⟨hauthorized, fun hpayee hpayer => by_contra fun hchanged => ?_⟩
  rcases (hauthorized hchanged).2 with ⟨-, hsigned⟩ | ⟨-, hsigned⟩
  · exact hpayee hsigned
  · exact hpayer hsigned

/-- In the trial the forgery changes nothing, the amendment is authorized, and it has brought the address. -/
theorem authorized_run_trial :
    let steps := [Submission.trialCreation, Submission.trialForgery, Submission.trialAmendment]
    let id := PaymentNetwork.token.id
    let created := builtin.run .empty [Submission.trialCreation]
    (∃ state, created.get? id = some state ∧ (builtin.next created .trialForgery).get? id = some state ∧
        (builtin.next created .trialAmendment).get? id ≠ some state ∧ Submission.trialAmendment.Authorized) ∧
      ∃ s before after, Takes .empty steps s before after ∧ s.Brings before id .paymentAddress Identity.trial.value ∧
        after.Holds id .paymentAddress Identity.trial.value := by
  intro steps id created
  obtain ⟨hsteps, horigin⟩ := authorized_run .empty steps id
  obtain ⟨state, hstate⟩ : ∃ state, created.get? id = some state :=
    ⟨Submission.trialCreation.created, by decide +kernel⟩
  have hpayee : ¬ Submission.trialForgery.SignedBy .payee := by
    rintro ⟨identity, hidentity, hkind, -⟩
    obtain rfl := Option.some.inj hidentity
    exact nomatch hkind
  have hpayer : ¬ Submission.trialForgery.SignedBy .payer := fun ⟨_, hidentity, _⟩ => nomatch hidentity
  have hforged : (builtin.next created .trialForgery).get? id = some state :=
    (hsteps _ _ _ state ⟨[.trialCreation], [.trialAmendment], rfl, rfl, rfl⟩ hstate).2 hpayee hpayer
  have hsame : builtin.run .empty [.trialCreation, .trialForgery] = created := by decide +kernel
  have hlacks : (builtin.next created .trialAmendment).get? id ≠ created.get? id := by decide +kernel
  have hchanged : (builtin.next created .trialAmendment).get? id ≠ some state := hstate ▸ hlacks
  have hamended := (hsteps .trialAmendment created _ state ⟨[.trialCreation, .trialForgery], [], rfl, hsame.symm, rfl⟩
    hstate).1 hchanged
  have hholds : (builtin.run .empty steps).Holds id .paymentAddress Identity.trial.value :=
    Option.bind_eq_some_iff.1 (by decide +kernel :
      ((builtin.run .empty steps).get? id).bind (·.values.get? .paymentAddress) = some Identity.trial.value)
  refine ⟨⟨state, hstate, hforged, hchanged, hamended.2⟩, (horigin _ _ hholds).resolve_left ?_⟩
  rintro ⟨_, hnone, -⟩
  cases hnone

end Registry

end Invoicing
