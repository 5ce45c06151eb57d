import Invoicing.Proofs.Index.Batch

set_option autoImplicit false

/-! # When the index fails

Whatever the store does, and whatever its records spell, a block that cannot be added changes no record: all reads come
before the one batch that is written. -/

namespace Invoicing

open Effect

namespace StoreM

variable {α β : Type}

/-- The computation writes nothing, on any store. -/
def ReadsOnly (m : StoreM α) : Prop := Keeps Store.ReadOnly m

theorem readsOnly_pure (a : α) : (pure a : StoreM α).ReadsOnly := keeps_pure Store.ReadOnly.refl a

theorem ReadsOnly.bind {m : StoreM α} {f : α → StoreM β} (hm : m.ReadsOnly) (hf : ∀ a, (f a).ReadsOnly) :
    (m >>= f).ReadsOnly :=
  Keeps.bind (R := Store.ReadOnly) (fun _ _ _ => Store.ReadOnly.trans) hm hf

theorem readsOnly_mapM {f : α → StoreM β} (hf : ∀ a, (f a).ReadsOnly) (as : List α) : (as.mapM f).ReadsOnly :=
  keeps_mapM (R := Store.ReadOnly) Store.ReadOnly.refl (fun _ _ _ => Store.ReadOnly.trans) hf as

theorem readsOnly_filterMapM {f : α → StoreM (Option β)} (hf : ∀ a, (f a).ReadsOnly) (as : List α) :
    (as.filterMapM f).ReadsOnly :=
  keeps_filterMapM (R := Store.ReadOnly) Store.ReadOnly.refl (fun _ _ _ => Store.ReadOnly.trans) hf as

theorem readsOnly_load? [Record α] (k : RecordKey) : (load? α k).ReadsOnly :=
  fun _ => (answers_load? k).readOnly rfl

end StoreM

open StoreM

namespace Index

variable {location : String} {header : BlockHeader} {timestamp : Timestamp}

theorem readsOnly_channelWrite? (location channel : String) : (channelWrite? location channel).ReadsOnly := by
  refine (readsOnly_load? _).bind fun locations => ?_
  show StoreM.ReadsOnly (if (locations.getD []).contains location then pure none else pure (some _))
  split
  · exact readsOnly_pure _
  · exact readsOnly_pure _

theorem readsOnly_changes (location : String) (header : BlockHeader) (timestamp : Timestamp) :
    (changes location header timestamp).ReadsOnly := by
  refine (readsOnly_load? _).bind fun known => ?_
  refine (readsOnly_filterMapM (readsOnly_channelWrite? location) _).bind fun channels => ?_
  refine (readsOnly_mapM (fun topic => (readsOnly_load? _).bind fun latest => readsOnly_pure _) _).bind fun topics => ?_
  exact (readsOnly_load? _).bind fun last => readsOnly_pure _

/-- A block that cannot be added leaves all records as they were. -/
theorem records_add_error {s : Store} {e : IndexError}
    (h : ((add location header timestamp).run.run s).1 = .error e) :
    ((add location header timestamp).run.run s).2.records = s.records := by
  have hro := readsOnly_changes location header timestamp s
  rw [add] at h ⊢
  cases hchanges : ((changes location header timestamp).run.run s).1 with
  | error e => rw [run_bind_error hchanges, hro.records]
  | ok batch =>
    rw [run_bind_ok hchanges] at h ⊢
    obtain ⟨-, ⟨hok, -⟩ | ⟨-, -, hsame⟩⟩ := run_commit batch ((changes location header timestamp).run.run s).2
    · rw [hok] at h
      cases h
    · rw [hsame, hro.records]

end Index

end Invoicing
