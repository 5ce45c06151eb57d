import Invoicing.Proofs.Index.Reading
import Invoicing.Proofs.Record.Canonical

set_option autoImplicit false

/-! # Loading a record

Whatever bytes the store answers with, loading comes to a value or says that the record is corrupted
(`StoreM.load?_exact`). Times and lists have one spelling each, so that their value tells with which bytes the record
starts. A map tells the entries only up to their order, and up to entries whose key comes again. -/

namespace Invoicing.StoreM

open Effect

variable {α : Type} {k : RecordKey} {s : Store} {bytes : List UInt8}

/-- What loading a record comes to. -/
def loaded (α : Type) [Record α] (k : RecordKey) (s : Store) : Except IndexError (Option α) :=
  ((load? α k).run.run s).1

theorem loaded_eq [Record α] (h : (s.get k.bytes).1 = .ok (some bytes)) :
    loaded α k s =
      match (Record.decode? bytes : Option α) with
      | some v => .ok (some v)
      | none => .error (.corrupted k.text) := by
  rw [loaded, load?, run_bind_ok (congrArg Prod.fst (run_modifyGet _ s)), run_modifyGet, h]
  cases hdecode : (Record.decode? bytes : Option α) with
  | none =>
    simp only [hdecode]
    rfl
  | some v =>
    simp only [hdecode]
    rfl

theorem loaded_eq_some_iff [Record α] (h : (s.get k.bytes).1 = .ok (some bytes)) {v : α} :
    loaded α k s = .ok (some v) ↔ Record.decode? bytes = some v := by
  rw [loaded_eq h]
  cases (Record.decode? bytes : Option α) with
  | none => simp
  | some a => simp

theorem loaded_eq_corrupted [Record α] (h : (s.get k.bytes).1 = .ok (some bytes))
    (hnone : (Record.decode? bytes : Option α) = none) : loaded α k s = .error (.corrupted k.text) := by
  rw [loaded_eq h, hnone]

/-- A value is loaded from its record whatever follows it there, and what is loaded from other bytes is a value or the
error that names the key. -/
structure LoadsBack (α : Type) [Record α] (k : RecordKey) (s : Store) (bytes : List UInt8) : Prop where
  eq_ok (v : α) (rest : List UInt8) : bytes = Record.encode v ++ rest → loaded α k s = .ok (some v)
  ok_or_corrupted : (∃ v, loaded α k s = .ok (some v)) ∨ loaded α k s = .error (.corrupted k.text)

theorem loadsBack [Record α] [LawfulRecord α] (h : (s.get k.bytes).1 = .ok (some bytes)) :
    LoadsBack α k s bytes where
  eq_ok v rest hbytes := by
    rw [loaded_eq_some_iff h, hbytes]
    exact Record.decode?_encode_append v rest
  ok_or_corrupted := by
    cases hdecode : (Record.decode? bytes : Option α) with
    | none => exact .inr (loaded_eq_corrupted h hdecode)
    | some v => exact .inl ⟨v, (loaded_eq_some_iff h).2 hdecode⟩

theorem encode_prefix_of_loaded [Record α] [CanonicalRecord α] (h : (s.get k.bytes).1 = .ok (some bytes)) {v : α}
    (hv : loaded α k s = .ok (some v)) : Record.encode v <+: bytes :=
  Record.decode?_eq_some_iff.1 ((loaded_eq_some_iff h).1 hv)

/-- **Loading is exact.** Let the store answer with some bytes. A time, a list of texts or a map of times is loaded back from
its record, whatever follows it, and other bytes give a value or the error that the record is corrupted. Bytes from which a
time or a list is loaded start with the record of that value, and bytes from which a map is loaded start with a list of
entries that makes it up. A list or a map that declares more items, or a longer text, than there are bytes for is
corrupted. -/
theorem load?_exact (h : (s.get k.bytes).1 = .ok (some bytes)) :
    LoadsBack UInt64 k s bytes ∧ LoadsBack (List String) k s bytes ∧ LoadsBack (Dict String UInt64) k s bytes ∧
    (∀ v : UInt64, loaded UInt64 k s = .ok (some v) → Record.encode v <+: bytes) ∧
    (∀ v : List String, loaded (List String) k s = .ok (some v) → Record.encode v <+: bytes) ∧
    (∀ v : Dict String UInt64, loaded (Dict String UInt64) k s = .ok (some v) →
      ∃ entries : List (String × UInt64), Record.encode entries <+: bytes ∧ v = Dict.ofList entries) ∧
    (Record.Overlong String 8 bytes → loaded (List String) k s = .error (.corrupted k.text)) ∧
    (Record.Overlong (String × UInt64) 16 bytes →
      loaded (Dict String UInt64) k s = .error (.corrupted k.text)) := by
  refine ⟨loadsBack h, loadsBack h, loadsBack h, fun v => encode_prefix_of_loaded h,
    fun v => encode_prefix_of_loaded h, ?_, ?_, ?_⟩
  · intro v hv
    exact Record.decode?_dict_eq_some_iff.1 ((loaded_eq_some_iff h).1 hv)
  · intro hover
    exact loaded_eq_corrupted h (Record.decode?_list_eq_none hover)
  · intro hover
    exact loaded_eq_corrupted h (Record.decode?_dict_eq_none hover)

/-- A list that declares `2 ^ 63` locations and holds nine bytes is corrupted; one of a single location is loaded, whatever
follows it. -/
theorem load?_exact_channel :
    loaded (List String) (.channel "a")
        (Store.empty.poke (RecordKey.channel "a").bytes (Bytes.ofNatLE 8 (2 ^ 63) ++ [1, 0, 0, 0, 0, 0, 0, 0, 120])) =
      .error (.corrupted "channel:a") ∧
    loaded (List String) (.channel "a")
        (Store.empty.poke (RecordKey.channel "a").bytes (Record.encode ["x"] ++ [7])) = .ok (some ["x"]) := by
  constructor
  · exact (load?_exact rfl).2.2.2.2.2.2.1 (.items (by decide) (by decide))
  · exact (load?_exact rfl).2.1.eq_ok ["x"] [7] rfl

end Invoicing.StoreM
