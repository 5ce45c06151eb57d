import Invoicing.Index.Basic
import Invoicing.Proofs.Effect
import Invoicing.Proofs.Record

set_option autoImplicit false

/-! # Computations that only read

A computation of the index that writes nothing comes to an answer that the records determine, unless a read fails
(`StoreM.Answers`). Answers of parts make up the answer of the whole. -/

namespace Invoicing

/-- `s'` is left by reads of `s`. -/
structure Store.ReadOnly (s s' : Store) : Prop where
  records : s'.records = s.records
  writing : s'.writing = s.writing
  writes : s'.writes = s.writes
  quiet : s.reading.Quiet → s'.reading.Quiet

namespace Store.ReadOnly

theorem refl (s : Store) : s.ReadOnly s := ⟨rfl, rfl, rfl, id⟩

theorem trans {s s' s'' : Store} (h : s.ReadOnly s') (h' : s'.ReadOnly s'') : s.ReadOnly s'' :=
  ⟨h'.records.trans h.records, h'.writing.trans h.writing, h'.writes.trans h.writes,
    fun hq => h'.quiet (h.quiet hq)⟩

end Store.ReadOnly

open Effect

namespace StoreM

variable {α β : Type}

/-- A call is made to the store as it is, and its answer is passed on. -/
theorem run_modifyGet (call : Store → α × Store) (s : Store) :
    (modifyGet call : StoreM α).run.run s = (.ok (call s).1, (call s).2) := rfl

/-- On these records the computation writes nothing and comes to `r`, unless a read fails. -/
def Answers (m : StoreM α) (records : Records) (r : Except IndexError α) : Prop :=
  ∀ s : Store, s.records = records → s.ReadOnly (m.run.run s).2 ∧
    ((m.run.run s).1 = r ∨ ¬ s.reading.Quiet ∧ ∃ f, (m.run.run s).1 = .error (.store f))

variable {records : Records}

theorem Answers.readOnly {m : StoreM α} {r : Except IndexError α} (h : m.Answers records r)
    {s : Store} (hs : s.records = records) : s.ReadOnly (m.run.run s).2 := (h s hs).1

theorem Answers.fst_eq {m : StoreM α} {r : Except IndexError α} (h : m.Answers records r)
    {s : Store} (hs : s.records = records) (hq : s.reading.Quiet) : (m.run.run s).1 = r := by
  rcases (h s hs).2 with h | ⟨hnq, -⟩
  · exact h
  · exact absurd hq hnq

/-- A computation comes to one answer only. -/
theorem Answers.unique {m : StoreM α} {r r' : Except IndexError α} (h : m.Answers records r)
    (h' : m.Answers records r') : r = r' := by
  let s : Store := { Store.empty with records }
  have hq : s.reading.Quiet := Faults.quiet_never
  exact (h.fst_eq (s := s) rfl hq).symm.trans (h'.fst_eq (s := s) rfl hq)

theorem answers_pure (a : α) : (pure a : StoreM α).Answers records (.ok a) :=
  fun s _ => ⟨.refl s, .inl rfl⟩

theorem Answers.bind {m : StoreM α} {f : α → StoreM β} {a : α} {r : Except IndexError β}
    (hm : m.Answers records (.ok a)) (hf : (f a).Answers records r) :
    (m >>= f).Answers records r := by
  intro s hs
  obtain ⟨hro, hres⟩ := hm s hs
  rcases hres with hok | ⟨hnq, e, herr⟩
  · rw [run_bind_ok hok]
    obtain ⟨hro', hres'⟩ := hf _ (hro.records.trans hs)
    refine ⟨hro.trans hro', hres'.imp id fun ⟨hnq, e, he⟩ => ⟨fun hq => hnq (hro.quiet hq), e, he⟩⟩
  · rw [run_bind_error herr]
    exact ⟨hro, .inr ⟨hnq, e, rfl⟩⟩

theorem Answers.map {m : StoreM α} {f : α → β} {a : α} (hm : m.Answers records (.ok a)) :
    (f <$> m).Answers records (.ok (f a)) := by
  rw [map_eq_pure_bind]
  exact hm.bind (answers_pure _)

/-- What a record holds, if reads do not fail. -/
def held? (α : Type) [Record α] (records : Records) (k : RecordKey) : Except IndexError (Option α) :=
  match records.get? k.bytes with
  | none => .ok none
  | some bytes =>
    match Record.decode? bytes with
    | some a => .ok (some a)
    | none => .error (.corrupted k.text)

theorem answers_load? [Record α] (k : RecordKey) :
    (load? α k).Answers records (held? α records k) := by
  intro s hs
  have hro : s.ReadOnly (s.get k.bytes).2 := by
    unfold Store.get
    split
    · exact ⟨rfl, rfl, rfl, Faults.Quiet.tick⟩
    · exact ⟨rfl, rfl, rfl, Faults.Quiet.tick⟩
  rw [load?, run_bind_ok (congrArg Prod.fst (run_modifyGet _ s)), run_modifyGet]
  by_cases hfail : s.reading.failing
  · have hget : (s.get k.bytes).1 = .error ⟨"injected get failure"⟩ := by simp [Store.get, hfail]
    rw [hget]
    refine ⟨hro, .inr ⟨fun hq => ?_, _, rfl⟩⟩
    rw [hq.failing] at hfail
    cases hfail
  · have hget : (s.get k.bytes).1 = .ok (records.get? k.bytes) := by simp [Store.get, hfail, hs]
    rw [hget, held?]
    cases records.get? k.bytes with
    | none => exact ⟨hro, .inl rfl⟩
    | some bytes =>
      cases hdec : (Record.decode? bytes : Option α) with
      | none => simp only [hdec]; exact ⟨hro, .inl rfl⟩
      | some a => simp only [hdec]; exact ⟨hro, .inl rfl⟩

theorem Answers.mapM {f : α → StoreM β} {g : α → β} {as : List α}
    (h : ∀ a ∈ as, (f a).Answers records (.ok (g a))) :
    (as.mapM f).Answers records (.ok (as.map g)) := by
  induction as with
  | nil => exact answers_pure _
  | cons a as ih =>
    rw [List.mapM_cons]
    refine (h a List.mem_cons_self).bind ?_
    exact (ih fun b hb => h b (List.mem_cons_of_mem a hb)).bind (answers_pure _)

theorem Answers.filterMapM {f : α → StoreM (Option β)} {g : α → Option β} {as : List α}
    (h : ∀ a ∈ as, (f a).Answers records (.ok (g a))) :
    (as.filterMapM f).Answers records (.ok (as.filterMap g)) := by
  induction as with
  | nil => exact answers_pure _
  | cons a as ih =>
    have htail := ih fun b hb => h b (List.mem_cons_of_mem a hb)
    rw [List.filterMapM_cons]
    refine (h a List.mem_cons_self).bind ?_
    cases hg : g a with
    | none => rwa [List.filterMap_cons_none hg]
    | some b =>
      rw [List.filterMap_cons_some hg]
      exact htail.bind (answers_pure _)

theorem Answers.filterAuxM {f : α → StoreM Bool} {g : α → Bool} {as : List α}
    (h : ∀ a ∈ as, (f a).Answers records (.ok (g a))) (acc : List α) :
    (as.filterAuxM f acc).Answers records (.ok ((as.filter g).reverse ++ acc)) := by
  induction as generalizing acc with
  | nil => exact answers_pure _
  | cons a as ih =>
    have htail := ih fun b hb => h b (List.mem_cons_of_mem a hb)
    refine (h a List.mem_cons_self).bind ?_
    cases hg : g a with
    | false => simpa [hg] using htail acc
    | true => simpa [hg] using htail (a :: acc)

theorem Answers.filterM {f : α → StoreM Bool} {g : α → Bool} {as : List α}
    (h : ∀ a ∈ as, (f a).Answers records (.ok (g a))) :
    (as.filterM f).Answers records (.ok (as.filter g)) := by
  have hrun : as.filterM f = as.filterAuxM f [] >>= fun found => pure found.reverse := rfl
  rw [hrun]
  refine (Answers.filterAuxM h []).bind ?_
  simpa using answers_pure (as.filter g)

end StoreM
end Invoicing
