import Invoicing.Proofs.Extension.Authority
import Invoicing.Proofs.Extension.Validity

set_option autoImplicit false

/-! # Actions that do not meet

What an action comes to is settled by the state of the extension that it names (`Registry.apply_eq`), so actions on
two extensions can change places. On one extension two amendments can change places as well: each of them is about its
own values, and only the log tells which was first. -/

namespace Invoicing

/-! ## Amendments -/

namespace PaymentValues

/-- Kinds have no value in common, so it makes no difference which is given first. -/
theorem overlay_given_comm {kind kind' : ActionKind} (h : kind ≠ kind') (v w w' : PaymentValues) :
    (v.overlay (w.given kind)).overlay (w'.given kind') = (v.overlay (w'.given kind')).overlay (w.given kind) := by
  cases kind <;> cases kind' <;> simp [overlay, given, ActionKind.fields] at h ⊢

end PaymentValues

namespace Submission

variable {s s' : Submission} {kind kind' : ActionKind} {state : ExtensionState}

/-- A value that is lacking after an amendment was lacking before. -/
theorem lacks_of_amended {f : ValueField} (h : (s.amended state).values.get? f = none) :
    state.values.get? f = none := by
  rw [amended, PaymentValues.get?_overlay, Option.or_eq_none_iff] at h
  exact h.2

/-- After an amendment the values of the other kinds are lacking as before. -/
theorem lacks_amended (hkind : s.action.kind? = some kind) (hne : kind ≠ kind')
    (hlacks : ∀ f ∈ kind'.fields, state.values.get? f = none) :
    ∀ f ∈ kind'.fields, (s.amended state).values.get? f = none := by
  intro f hf
  have hnot : f ∉ kind.fields := by
    intro hf'
    exact hne ((ValueField.mem_fields_iff.1 hf').trans (ValueField.mem_fields_iff.1 hf).symm)
  rw [amended, PaymentValues.get?_overlay, get?_given_eq_none hkind hnot, Option.none_or, hlacks f hf]

/-- After an amendment there is no second one of its kind. -/
theorem ne_of_lacks_amended (hkind : s.action.kind? = some kind) (hne : kind ≠ .create)
    (hbrought : ∀ f ∈ kind.fields, (s.parameters.get? f).any (PaymentValues.isValid f) = true)
    (hlacks : ∀ f ∈ kind'.fields, (s.amended state).values.get? f = none) : kind ≠ kind' := by
  rintro rfl
  obtain ⟨f, hf⟩ := ActionKind.exists_mem_fields hne
  have hsome : ((s.amended state).values.get? f).isSome = true := isSome_get?_amended hkind hbrought f hf
  rw [hlacks f hf] at hsome
  cases hsome

theorem values_amended_comm (hkind : s.action.kind? = some kind) (hkind' : s'.action.kind? = some kind')
    (hne : kind ≠ kind') : (s'.amended (s.amended state)).values = (s.amended (s'.amended state)).values := by
  simp only [amended, given_of_kind hkind, given_of_kind hkind']
  exact PaymentValues.overlay_given_comm hne _ _ _

/-- Two amendments in a row. -/
theorem amended_amended (s s' : Submission) (state : ExtensionState) :
    s'.amended (s.amended state) =
      { state with
        values := (s'.amended (s.amended state)).values
        events := state.events ++ [s.event, s'.event] } := by
  simp [amended]

/-- Two amendments of one extension are accepted in either order, with the same values in the end. -/
theorem Changes.swap {mid last : ExtensionState} (h : s.Changes (some state) mid) (h' : s'.Changes (some mid) last) :
    mid = s.amended state ∧ last = s'.amended mid ∧ s'.Changes (some state) (s'.amended state) ∧
      s.Changes (some (s'.amended state)) (s.amended (s'.amended state)) ∧
      last.values = (s.amended (s'.amended state)).values := by
  cases h with
  | amend network kind party _ hnetwork hkind hparty hsigned hbrought hlacks =>
    cases h' with
    | amend network' kind' party' _ hnetwork' hkind' hparty' hsigned' hbrought' hlacks' =>
      have hamends : kind ≠ .create := by
        rintro rfl
        cases hparty
      -- The second amendment found its values lacking after the first, so it is of another kind.
      have hne := ne_of_lacks_amended hkind hamends hbrought hlacks'
      refine ⟨rfl, rfl, ?_, ?_, values_amended_comm hkind hkind' hne⟩
      · exact .amend network' kind' party' state hnetwork' hkind' hparty' hsigned' hbrought' fun f hf =>
          lacks_of_amended (hlacks' f hf)
      · exact .amend network kind party _ hnetwork hkind hparty hsigned hbrought (lacks_amended hkind' hne.symm hlacks)

/-- The submission for a request that has other extensions. -/
def holding (s : Submission) (extensions : Extensions) : Submission :=
  { s with request := { s.request with extensions } }

end Submission

/-! ## What an action reads -/

namespace Handler

/-- The handlers look at the request, but not at the extensions that it has. -/
theorem apply_holding (h : Handler) (current : Option ExtensionState) (s : Submission) (held : Extensions) :
    h.apply current (s.holding held) = h.apply current s := by
  cases h with
  | create network version => cases network <;> rfl
  | _ => rfl

end Handler

namespace Registry

variable {r : Registry} {extensions : Extensions} {s s' : Submission}

theorem outcome_holding (r : Registry) (current : Option ExtensionState) (s : Submission) (held : Extensions) :
    r.outcome current (s.holding held) = r.outcome current s := by
  unfold outcome
  simp only [Handler.apply_holding]
  rfl

/-- The extension that an action names, after the action. -/
theorem map_get?_apply (r : Registry) (extensions : Extensions) (s : Submission) :
    (r.apply extensions s).map (·.get? s.action.id) = (r.outcome (extensions.get? s.action.id) s).map some := by
  rw [apply_eq]
  cases r.outcome (extensions.get? s.action.id) s with
  | error e => rfl
  | ok state => simp [Except.map, Dict.get?_insert]

theorem apply_eq_error {e : ExtensionError} :
    r.apply extensions s = .error e ↔ r.outcome (extensions.get? s.action.id) s = .error e := by
  rw [apply_eq]
  cases r.outcome (extensions.get? s.action.id) s <;> simp [Except.map]

/-- The extensions after an action, by what it comes to. -/
theorem next_eq (r : Registry) (extensions : Extensions) (s : Submission) :
    r.next extensions s =
      match r.outcome (extensions.get? s.action.id) s with
      | .ok state => extensions.insert s.action.id state
      | .error _ => extensions := by
  rw [next, apply_eq]
  cases r.outcome (extensions.get? s.action.id) s <;> rfl

theorem get?_next_of_ne {id : String} (h : id ≠ s.action.id) : (r.next extensions s).get? id = extensions.get? id := by
  rw [next_eq]
  split
  · rw [Dict.get?_insert, if_neg h]
  · rfl

/-- Actions on two extensions can change places. -/
theorem next_comm (h : s.action.id ≠ s'.action.id) :
    r.next (r.next extensions s) s' = r.next (r.next extensions s') s := by
  rw [next_eq r (r.next extensions s), next_eq r (r.next extensions s'), get?_next_of_ne h.symm, get?_next_of_ne h,
    next_eq r extensions s, next_eq r extensions s']
  cases r.outcome (extensions.get? s.action.id) s with
  | error e => cases r.outcome (extensions.get? s'.action.id) s' <;> rfl
  | ok state =>
    cases r.outcome (extensions.get? s'.action.id) s' with
    | error e => rfl
    | ok state' => exact Dict.insert_comm extensions h state state'

/-- Two amendments of an extension that is there can change places. -/
theorem apply_swap {state : ExtensionState} {mid last : Extensions} (hid : s.action.id = s'.action.id)
    (hstate : extensions.get? s.action.id = some state) (hmid : builtin.apply extensions s = .ok mid)
    (hlast : builtin.apply mid s' = .ok last) :
    ∃ values mid' last', builtin.apply extensions s' = .ok mid' ∧ builtin.apply mid' s = .ok last' ∧
      last = extensions.insert s.action.id { state with values, events := state.events ++ [s.event, s'.event] } ∧
      last' = extensions.insert s.action.id { state with values, events := state.events ++ [s'.event, s.event] } := by
  obtain ⟨state₁, hchanges, rfl⟩ := apply_builtin.1 hmid
  obtain ⟨state₂, hchanges', rfl⟩ := apply_builtin.1 hlast
  rw [hstate] at hchanges
  rw [← hid, Dict.get?_insert, if_pos rfl] at hchanges'
  obtain ⟨rfl, rfl, hfirst, hsecond, hvalues⟩ := hchanges.swap hchanges'
  have hmid' : builtin.apply extensions s' = .ok (extensions.insert s'.action.id (s'.amended state)) := by
    refine apply_builtin.2 ⟨_, ?_, rfl⟩
    rwa [← hid, hstate]
  have hlast' : builtin.apply (extensions.insert s'.action.id (s'.amended state)) s =
      .ok ((extensions.insert s'.action.id (s'.amended state)).insert s.action.id (s.amended (s'.amended state))) := by
    refine apply_builtin.2 ⟨_, ?_, rfl⟩
    rwa [hid, Dict.get?_insert, if_pos rfl]
  refine ⟨(s.amended (s'.amended state)).values, _, _, hmid', hlast', ?_, ?_⟩
  · rw [← hid, Dict.insert_insert, ← hvalues, ← Submission.amended_amended]
  · rw [← hid, Dict.insert_insert, ← Submission.amended_amended]

/-- **Actions that do not meet can change places.** Two actions on two extensions leave the same extensions in either
order, and each is refused after the other exactly as it is on its own. What an action makes of its extension, or why
it is refused, does not depend on the state of any other extension, nor on the extensions that its request has. And two
amendments of one extension that are accepted in one order are accepted in the other, with the same values, and with
their two entries in the log the other way round. -/
theorem actions_commute :
    (∀ (r : Registry) (extensions : Extensions) (s s' : Submission), s.action.id ≠ s'.action.id →
      r.run extensions [s, s'] = r.run extensions [s', s] ∧
        ∀ e, r.apply (r.next extensions s) s' = .error e ↔ r.apply extensions s' = .error e) ∧
    (∀ (r : Registry) (extensions other held : Extensions) (s : Submission),
      other.get? s.action.id = extensions.get? s.action.id →
      (r.apply other (s.holding held)).map (·.get? s.action.id) =
        (r.apply extensions s).map (·.get? s.action.id)) ∧
    (∀ (extensions mid last : Extensions) (s s' : Submission) (state : ExtensionState),
      s.action.id = s'.action.id → extensions.get? s.action.id = some state →
      builtin.apply extensions s = .ok mid → builtin.apply mid s' = .ok last →
      ∃ values mid' last', builtin.apply extensions s' = .ok mid' ∧ builtin.apply mid' s = .ok last' ∧
        last = extensions.insert s.action.id
          { state with values, events := state.events ++ [s.event, s'.event] } ∧
        last' = extensions.insert s.action.id
          { state with values, events := state.events ++ [s'.event, s.event] }) := by
  refine ⟨fun r extensions s s' hid => ⟨next_comm hid, fun e => ?_⟩, fun r extensions other held s hsame => ?_, ?_⟩
  · rw [apply_eq_error, apply_eq_error, get?_next_of_ne hid.symm]
  · have hheld := map_get?_apply r other (s.holding held)
    rw [outcome_holding] at hheld
    rw [map_get?_apply, ← hsame]
    exact hheld
  · intro extensions mid last s s' state hid hstate hmid hlast
    exact apply_swap hid hstate hmid hlast

end Registry

/-! ## A trial -/

namespace Submission

/-- A fee on the token network. -/
def trialTokenFee : Submission :=
  trial .addFee
    { PaymentValues.empty with feeAddress := some Identity.trial.value, feeAmount := some "5" } .trial

end Submission

namespace Registry

/-- The address and the fee of the trial can be given in either order, before or after the other extension is created,
and that one is created no matter what the request holds. -/
theorem actions_commute_trial :
    let created := builtin.run .empty [.trialCreation]
    let id := PaymentNetwork.conversion.id
    builtin.run created [.trialAmendment, .trialConversion] = builtin.run created [.trialConversion, .trialAmendment] ∧
      (builtin.apply .empty (Submission.trialConversion.holding created)).map (·.get? id) =
        (builtin.apply created .trialConversion).map (·.get? id) ∧
      ∃ values mid last, builtin.apply created .trialTokenFee = .ok mid ∧ builtin.apply mid .trialAmendment = .ok last ∧
        last = created.insert PaymentNetwork.token.id { Submission.trialCreation.created with
          values, events := [Submission.trialTokenFee.event, Submission.trialAmendment.event] } := by
  intro created id
  obtain ⟨hapart, hreads, htogether⟩ := actions_commute
  have hne : Submission.trialAmendment.action.id ≠ Submission.trialConversion.action.id := by decide +kernel
  have hlacking : (Dict.empty : Extensions).get? id = created.get? id := by decide +kernel
  have hstate : created.get? Submission.trialAmendment.action.id = some Submission.trialCreation.created := by
    decide +kernel
  have hmid : builtin.apply created .trialAmendment = .ok (builtin.next created .trialAmendment) := by decide +kernel
  have hlast : builtin.apply (builtin.next created .trialAmendment) .trialTokenFee =
      .ok (builtin.run created [.trialAmendment, .trialTokenFee]) := by
    decide +kernel
  obtain ⟨values, mid', last', hmid', hlast', -, hswapped⟩ :=
    htogether created _ _ .trialAmendment .trialTokenFee _ rfl hstate hmid hlast
  refine ⟨(hapart builtin created _ _ hne).1, hreads builtin created .empty created .trialConversion hlacking, ?_⟩
  exact ⟨values, mid', last', hmid', hlast', hswapped⟩

end Registry

end Invoicing
