import Invoicing.Detection.Config
import Invoicing.Detection.Event
import Invoicing.Extension.Action
import Invoicing.Proofs.Address
import Invoicing.Proofs.Block
import Invoicing.Service.Config

set_option autoImplicit false

/-! # Records that travel

Every record that leaves or enters the program as text is read back as it was, whichever of its fields are absent, and
its text is the one form of all that is read as the same record (`Wire.records_roundTrip`). -/

namespace Invoicing

/-! ## Leaves -/

instance {n : Nat} : LawfulWire (Octets n) where
  printable a := Json.printable_ofText a.render
  ne_null _ := nofun
  ofJson?_toJson a := by
    show (Json.ofText a.render).text?.bind Octets.ofText? = some a
    rw [Json.text?_ofText, Option.bind_some, Octets.ofText?_render]

instance : LawfulWire IdentityKind :=
  .ofNames (fun _ => rfl) (fun _ => rfl) fun kind => by cases kind <;> rfl

instance : LawfulWire CurrencyKind :=
  .ofNames (fun _ => rfl) (fun _ => rfl) fun kind => by cases kind <;> rfl

instance : LawfulWire ExtensionFamily :=
  .ofNames (fun _ => rfl) (fun _ => rfl) fun .paymentNetwork => rfl

instance : LawfulWire Direction :=
  .ofNames (fun _ => rfl) (fun _ => rfl) fun direction => by cases direction <;> rfl

instance : LawfulWire BalanceErrorCode :=
  .ofNames (fun _ => rfl) (fun _ => rfl) fun code => by cases code <;> rfl

/-! ## Requests -/

instance : LawfulWire Identity := .ofRecord (fun _ => rfl) (fun _ => rfl) fun _ => rfl

instance : LawfulWire Currency := .ofRecord (fun _ => rfl) (fun _ => rfl) fun _ => rfl

instance : LawfulWire Window := .ofRecord (fun _ => rfl) (fun _ => rfl) fun _ => rfl

instance : LawfulWire PaymentValues := .ofRecord (fun _ => rfl) (fun _ => rfl) fun _ => rfl

instance : LawfulWire ExtensionAction := .ofRecord (fun _ => rfl) (fun _ => rfl) fun _ => rfl

instance : LawfulWire ExtensionEvent := .ofRecord (fun _ => rfl) (fun _ => rfl) fun _ => rfl

instance : LawfulWire ExtensionState := .ofRecord (fun _ => rfl) (fun _ => rfl) fun _ => rfl

instance : LawfulWire Request := .ofRecord (fun _ => rfl) (fun _ => rfl) fun _ => rfl

/-! ## The ledger -/

instance : LawfulWire Log := .ofRecord (fun _ => rfl) (fun _ => rfl) fun _ => rfl

instance : LawfulWire BlockTag where
  printable tag := by
    cases tag with
    | number n =>
      refine Json.printable_object fun m hm => ?_
      rw [List.mem_singleton.1 hm]
      exact ⟨Json.Text.isBody_escape "number".toList, Json.printable_ofUInt64 n⟩
    | latest => exact Json.printable_ofText "latest"
  ne_null tag := by cases tag <;> nofun
  ofJson?_toJson tag := by
    cases tag with
    | number n =>
      show (Json.ofUInt64 n).uint64?.map BlockTag.number = _
      rw [Json.uint64?_ofUInt64, Option.map_some]
    | latest => rfl

instance : LawfulWire LogFilter := .ofRecord (fun _ => rfl) (fun _ => rfl) fun _ => rfl

/-! ## Balances -/

instance : LawfulWire EventDetails := .ofRecord (fun _ => rfl) (fun _ => rfl) fun _ => rfl

instance : LawfulWire PaymentEvent := .ofRecord (fun _ => rfl) (fun _ => rfl) fun _ => rfl

instance : LawfulWire DirectionBalance := .ofRecord (fun _ => rfl) (fun _ => rfl) fun _ => rfl

instance : LawfulWire BalanceError := .ofRecord (fun _ => rfl) (fun _ => rfl) fun _ => rfl

instance : LawfulWire Balance := .ofRecord (fun _ => rfl) (fun _ => rfl) fun _ => rfl

/-! ## Settings -/

instance : LawfulWire ServiceConfig := .ofRecord (fun _ => rfl) (fun _ => rfl) fun _ => rfl

instance : LawfulWire ProxyDeployment := .ofRecord (fun _ => rfl) (fun _ => rfl) fun _ => rfl

instance : LawfulWire DetectionConfig := .ofRecord (fun _ => rfl) (fun _ => rfl) fun _ => rfl

/-! ## Reading back -/

namespace Wire

/-- What a text is written as again after it was read as a value of a type. -/
def rewrite? (α : Type) [Wire α] (text : String) : Option String := (parse? text : Option α).map render

/-- Every value is read back from its text, and a text that is read and written again stays as it is from then on. -/
structure RoundTrips (α : Type) [Wire α] : Prop where
  readsBack : ∀ a : α, parse? (render a) = some a
  settles : ∀ text written, rewrite? α text = some written → rewrite? α written = some written

theorem roundTrips_of_lawful (α : Type) [Wire α] [LawfulWire α] : RoundTrips α where
  readsBack := parse?_render
  settles text written h := by
    obtain ⟨a, -, rfl⟩ := Option.map_eq_some_iff.1 h
    rw [rewrite?, parse?_render a, Option.map_some]

/-- **Every record that travels is read back as it was written**, and all texts of one record have one form. -/
theorem records_roundTrip :
    RoundTrips Identity ∧ RoundTrips Currency ∧ RoundTrips Transaction ∧ RoundTrips BlockHeader ∧ RoundTrips Block ∧
      RoundTrips Window ∧ RoundTrips PaymentValues ∧ RoundTrips ExtensionAction ∧ RoundTrips ExtensionState ∧
      RoundTrips Request ∧ RoundTrips Log ∧ RoundTrips LogFilter ∧ RoundTrips PaymentEvent ∧
      RoundTrips DirectionBalance ∧ RoundTrips Balance ∧ RoundTrips ServiceConfig ∧ RoundTrips DetectionConfig := by
  refine ⟨?_, ?_, ?_, ?_, ?_, ?_, ?_, ?_, ?_, ?_, ?_, ?_, ?_, ?_, ?_, ?_, ?_⟩ <;> exact roundTrips_of_lawful _

end Wire

end Invoicing
