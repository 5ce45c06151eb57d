import Mathlib.Data.List.Forall2

set_option autoImplicit false

/-! # Computations with a state and an error

The laws of running computations that keep a state even when they fail, as those of the store and of the ledger
do. -/

namespace Invoicing.Effect

variable {ε σ α β γ : Type}

theorem run_bind_ok {m : ExceptT ε (StateM σ) α} {f : α → ExceptT ε (StateM σ) β} {s : σ} {a : α}
    (h : (m.run.run s).1 = .ok a) : (m >>= f).run.run s = (f a).run.run (m.run.run s).2 := by
  show StateT.run (m.run >>= ExceptT.bindCont f) s = _
  rw [StateT.run_bind]
  show (ExceptT.bindCont f (m.run.run s).1).run (m.run.run s).2 = _
  rw [h]
  rfl

theorem run_bind_error {m : ExceptT ε (StateM σ) α} {f : α → ExceptT ε (StateM σ) β} {s : σ} {e : ε}
    (h : (m.run.run s).1 = .error e) : (m >>= f).run.run s = (.error e, (m.run.run s).2) := by
  show StateT.run (m.run >>= ExceptT.bindCont f) s = _
  rw [StateT.run_bind]
  show (ExceptT.bindCont f (m.run.run s).1).run (m.run.run s).2 = _
  rw [h]
  rfl

@[simp] theorem run_ofExcept (r : Except ε α) (s : σ) :
    (MonadExcept.ofExcept r : ExceptT ε (StateM σ) α).run.run s = (r, s) := by
  cases r <;> rfl

/-! ## Results that are translated -/

theorem run_map (f : α → β) (m : ExceptT ε (StateM σ) α) (s : σ) :
    (f <$> m).run.run s = ((m.run.run s).1.map f, (m.run.run s).2) := by
  rw [map_eq_pure_bind]
  cases h : (m.run.run s).1 with
  | error e => rw [run_bind_error h]; rfl
  | ok a => rw [run_bind_ok h]; rfl

theorem ofExcept_map (f : α → β) (r : Except ε α) :
    (MonadExcept.ofExcept (f <$> r) : ExceptT ε (StateM σ) β) = f <$> MonadExcept.ofExcept r := by
  cases r <;> rfl

/-- Each element is translated, or all of them at the end. -/
theorem mapM_map {m : Type → Type} [Monad m] [LawfulMonad m] (f : α → m β) (g : β → γ) (as : List α) :
    (as.mapM fun a => g <$> f a) = List.map g <$> as.mapM f := by
  induction as with
  | nil => simp
  | cons a as ih => simp [List.mapM_cons, ih]

/-! ## What every run keeps -/

/-- Every run ends in a state that stands in a relation to the one that it began with, whether it fails or not. -/
def Keeps (R : σ → σ → Prop) (m : ExceptT ε (StateM σ) α) : Prop := ∀ s, R s (m.run.run s).2

section Keeps

variable {R : σ → σ → Prop} (hrefl : ∀ s, R s s) (htrans : ∀ ⦃s s' s''⦄, R s s' → R s' s'' → R s s'')

include hrefl in
theorem keeps_pure (a : α) : Keeps R (pure a : ExceptT ε (StateM σ) α) := hrefl

include htrans in
theorem Keeps.bind {m : ExceptT ε (StateM σ) α} {f : α → ExceptT ε (StateM σ) β} (hm : Keeps R m)
    (hf : ∀ a, Keeps R (f a)) : Keeps R (m >>= f) := by
  intro s
  cases h : (m.run.run s).1 with
  | error e => exact run_bind_error h ▸ hm s
  | ok a => exact run_bind_ok h ▸ htrans (hm s) (hf a _)

include hrefl htrans in
theorem keeps_mapM {f : α → ExceptT ε (StateM σ) β} (hf : ∀ a, Keeps R (f a)) (as : List α) :
    Keeps R (as.mapM f) := by
  induction as with
  | nil => exact keeps_pure hrefl _
  | cons a as ih =>
    rw [List.mapM_cons]
    exact (hf a).bind htrans fun b => ih.bind htrans fun bs => keeps_pure hrefl _

include hrefl htrans in
theorem keeps_filterMapM {f : α → ExceptT ε (StateM σ) (Option β)} (hf : ∀ a, Keeps R (f a)) (as : List α) :
    Keeps R (as.filterMapM f) := by
  induction as with
  | nil => exact keeps_pure hrefl _
  | cons a as ih =>
    rw [List.filterMapM_cons]
    refine (hf a).bind htrans fun b => ?_
    cases b with
    | none => exact ih
    | some b => exact ih.bind htrans fun bs => keeps_pure hrefl _

end Keeps

/-! ## Two runs -/

/-- From states that stand in a relation, the computation comes to one result, and to states that stand in it again. -/
def Agrees (R : σ → σ → Prop) (m : ExceptT ε (StateM σ) α) : Prop :=
  ∀ s s', R s s' → (m.run.run s).1 = (m.run.run s').1 ∧ R (m.run.run s).2 (m.run.run s').2

section Agrees

variable {R : σ → σ → Prop}

theorem agrees_pure (a : α) : Agrees R (pure a : ExceptT ε (StateM σ) α) := fun _ _ h => ⟨rfl, h⟩

theorem agrees_ofExcept (r : Except ε α) : Agrees R (MonadExcept.ofExcept r : ExceptT ε (StateM σ) α) := by
  intro s s' h
  rw [run_ofExcept, run_ofExcept]
  exact ⟨rfl, h⟩

theorem Agrees.bind {m : ExceptT ε (StateM σ) α} {f : α → ExceptT ε (StateM σ) β} (hm : Agrees R m)
    (hf : ∀ a, Agrees R (f a)) : Agrees R (m >>= f) := by
  intro s s' h
  obtain ⟨hres, hstate⟩ := hm s s' h
  cases hok : (m.run.run s).1 with
  | error e =>
    rw [run_bind_error hok, run_bind_error (hres.symm.trans hok)]
    exact ⟨rfl, hstate⟩
  | ok a =>
    rw [run_bind_ok hok, run_bind_ok (hres.symm.trans hok)]
    exact hf a _ _ hstate

theorem agrees_ofExcept_bind {r : Except ε α} {f : α → ExceptT ε (StateM σ) β}
    (hf : ∀ a, r = .ok a → Agrees R (f a)) : Agrees R (MonadExcept.ofExcept r >>= f) := by
  intro s s' h
  cases r with
  | error e => exact ⟨rfl, h⟩
  | ok a => exact hf a rfl s s' h

theorem agrees_mapM_of_mem {f : α → ExceptT ε (StateM σ) β} {as : List α} (hf : ∀ a ∈ as, Agrees R (f a)) :
    Agrees R (as.mapM f) := by
  induction as with
  | nil => exact agrees_pure _
  | cons a as ih =>
    rw [List.mapM_cons]
    refine (hf a List.mem_cons_self).bind fun b => ?_
    exact (ih fun a' ha' => hf a' (List.mem_cons_of_mem a ha')).bind fun bs => agrees_pure _

theorem agrees_mapM {f : α → ExceptT ε (StateM σ) β} (hf : ∀ a, Agrees R (f a)) (as : List α) :
    Agrees R (as.mapM f) := agrees_mapM_of_mem fun a _ => hf a

theorem agrees_filterAuxM {f : α → ExceptT ε (StateM σ) Bool} {as : List α} (hf : ∀ a ∈ as, Agrees R (f a))
    (acc : List α) : Agrees R (as.filterAuxM f acc) := by
  induction as generalizing acc with
  | nil => exact agrees_pure _
  | cons a as ih =>
    exact (hf a List.mem_cons_self).bind fun b => ih (fun a' ha' => hf a' (List.mem_cons_of_mem a ha')) _

theorem agrees_filterM {f : α → ExceptT ε (StateM σ) Bool} {as : List α} (hf : ∀ a ∈ as, Agrees R (f a)) :
    Agrees R (as.filterM f) :=
  (agrees_filterAuxM hf []).bind fun found => agrees_pure found.reverse

end Agrees

/-! ## Computations without a state -/

/-- A computation in two parts comes to a value exactly if both parts do. -/
theorem bind_eq_ok {x : Except ε α} {f : α → Except ε β} {b : β} :
    (x >>= f) = .ok b ↔ ∃ a, x = .ok a ∧ f a = .ok b := by
  cases x with
  | error e => exact ⟨nofun, fun ⟨_, h, _⟩ => nomatch h⟩
  | ok a => exact ⟨fun h => ⟨a, rfl, h⟩, fun ⟨_, h, hf⟩ => Except.ok.inj h ▸ hf⟩

/-- A check and what follows it. -/
theorem check_eq_ok {x : Except ε Unit} {f : Unit → Except ε β} {b : β} :
    (x >>= f) = .ok b ↔ x = .ok () ∧ f () = .ok b := by
  rw [bind_eq_ok]
  constructor
  · rintro ⟨⟨⟩, hx, hf⟩
    exact ⟨hx, hf⟩
  · rintro ⟨hx, hf⟩
    exact ⟨(), hx, hf⟩

theorem bind_eq_error {x : Except ε α} {f : α → Except ε β} {e : ε} :
    (x >>= f) = .error e ↔ x = .error e ∨ ∃ a, x = .ok a ∧ f a = .error e := by
  cases x with
  | error e' => exact ⟨fun h => .inl (congrArg Except.error (Except.error.inj h)),
      fun h => h.elim (fun h => congrArg Except.error (Except.error.inj h)) fun ⟨_, h, _⟩ => nomatch h⟩
  | ok a => exact ⟨fun h => .inr ⟨a, rfl, h⟩, fun h => h.elim nofun fun ⟨_, h, hf⟩ => Except.ok.inj h ▸ hf⟩

theorem mapM_congr {f g : α → Except ε β} {as : List α} (h : ∀ a ∈ as, f a = g a) : as.mapM f = as.mapM g := by
  induction as with
  | nil => rfl
  | cons a as ih =>
    rw [List.mapM_cons, List.mapM_cons, h a List.mem_cons_self, ih fun b hb => h b (List.mem_cons_of_mem a hb)]

/-- If every element comes to a value, then so does the list. -/
theorem mapM_ok {f : α → Except ε β} {g : α → β} {as : List α} (h : ∀ a ∈ as, f a = .ok (g a)) :
    as.mapM f = .ok (as.map g) := by
  induction as with
  | nil => rfl
  | cons a as ih =>
    rw [List.mapM_cons, h a List.mem_cons_self, ih fun b hb => h b (List.mem_cons_of_mem a hb)]
    rfl

theorem mapM_ok_iff {f : α → Except ε β} {as : List α} :
    (∃ bs, as.mapM f = .ok bs) ↔ ∀ a ∈ as, ∃ b, f a = .ok b := by
  induction as with
  | nil => exact ⟨fun _ _ ha => (nomatch ha), fun _ => ⟨[], rfl⟩⟩
  | cons a as ih =>
    rw [List.forall_mem_cons, ← ih, List.mapM_cons]
    cases f a with
    | error e => exact ⟨fun ⟨_, h⟩ => (nomatch h), fun ⟨⟨_, h⟩, _⟩ => (nomatch h)⟩
    | ok b =>
      cases as.mapM f with
      | error e => exact ⟨fun ⟨_, h⟩ => (nomatch h), fun ⟨_, _, h⟩ => (nomatch h)⟩
      | ok bs => exact ⟨fun _ => ⟨⟨b, rfl⟩, bs, rfl⟩, fun _ => ⟨b :: bs, rfl⟩⟩

/-- A list comes to an error exactly if one of its elements does. -/
theorem mapM_error_iff {f : α → Except ε β} {as : List α} :
    (∃ e, as.mapM f = .error e) ↔ ∃ a ∈ as, ∃ e, f a = .error e := by
  have hok := @mapM_ok_iff _ _ _ f as
  constructor
  · rintro ⟨e, he⟩
    by_contra hnone
    obtain ⟨bs, hbs⟩ := hok.2 fun a ha => by
      cases hf : f a with
      | ok b => exact ⟨b, rfl⟩
      | error e => exact absurd ⟨a, ha, e, hf⟩ hnone
    cases he.symm.trans hbs
  · rintro ⟨a, ha, e, he⟩
    cases hall : as.mapM f with
    | error e' => exact ⟨e', rfl⟩
    | ok bs =>
      obtain ⟨b, hb⟩ := hok.1 ⟨bs, hall⟩ a ha
      cases he.symm.trans hb

/-- The error of a list is that of one of its elements. -/
theorem exists_of_mapM_error {f : α → Except ε β} {as : List α} {e : ε} (h : as.mapM f = .error e) :
    ∃ a ∈ as, f a = .error e := by
  induction as with
  | nil => cases h
  | cons a as ih =>
    rw [List.mapM_cons] at h
    rcases bind_eq_error.1 h with ha | ⟨b, -, h⟩
    · exact ⟨a, List.mem_cons_self, ha⟩
    · rcases bind_eq_error.1 h with has | ⟨bs, -, h⟩
      · obtain ⟨a', ha', he⟩ := ih has
        exact ⟨a', List.mem_cons_of_mem a ha', he⟩
      · cases h

/-- Elements that are listed with their values make up the graph of a function. -/
theorem exists_graph_of_mapM [Inhabited β] {f : α → Except ε β} {as : List α} {pairs : List (α × β)}
    (h : (as.mapM fun a => (f a).map (a, ·)) = .ok pairs) :
    ∃ g : α → β, (∀ a ∈ as, f a = .ok (g a)) ∧ pairs = as.map fun a => (a, g a) := by
  have hg : ∀ a ∈ as, f a = .ok ((f a).toOption.getD default) := by
    intro a ha
    obtain ⟨pair, hpair⟩ := mapM_ok_iff.1 ⟨pairs, h⟩ a ha
    cases hf : f a with
    | ok b => rfl
    | error e =>
      rw [hf] at hpair
      cases hpair
  refine ⟨fun a => (f a).toOption.getD default, hg, ?_⟩
  rw [mapM_ok fun a ha => by rw [hg a ha]; rfl] at h
  exact (Except.ok.inj h).symm

/-- The values of a list stand beside the elements that they come from. -/
theorem forall₂_of_mapM {f : α → Except ε β} {as : List α} {bs : List β} (h : as.mapM f = .ok bs) :
    List.Forall₂ (fun a b => f a = .ok b) as bs := by
  induction as generalizing bs with
  | nil =>
    cases h
    exact .nil
  | cons a as ih =>
    rw [List.mapM_cons] at h
    obtain ⟨b, hb, h⟩ := bind_eq_ok.1 h
    obtain ⟨bs', hbs, h⟩ := bind_eq_ok.1 h
    cases h
    exact .cons hb (ih hbs)

/-- If a single element comes to an error, then it is the error of the list. -/
theorem mapM_error {f : α → Except ε β} {as : List α} {a : α} {e : ε} (ha : a ∈ as) (he : f a = .error e)
    (hrest : ∀ a' ∈ as, a' ≠ a → ∃ b, f a' = .ok b) : as.mapM f = .error e := by
  induction as with
  | nil => cases ha
  | cons a' as ih =>
    rw [List.mapM_cons]
    by_cases heq : a' = a
    · rw [heq, he]
      rfl
    · obtain ⟨b, hb⟩ := hrest a' List.mem_cons_self heq
      rw [hb, ih ((List.mem_cons.1 ha).resolve_left (Ne.symm heq)) fun c hc => hrest c (List.mem_cons_of_mem a' hc)]
      rfl

/-! ## Lists in step -/

/-- Two relations in step make up one. -/
theorem forall₂_comp {R : α → β → Prop} {S : β → γ → Prop} {as : List α} {bs : List β} {cs : List γ}
    (h : List.Forall₂ R as bs) (h' : List.Forall₂ S bs cs) :
    List.Forall₂ (fun a c => ∃ b, R a b ∧ S b c) as cs := by
  induction h generalizing cs with
  | nil =>
    cases h'
    exact .nil
  | cons hR _ ih =>
    cases h' with
    | cons hS hrest => exact .cons ⟨_, hR, hS⟩ (ih hrest)

/-- Every element on the right has one on the left. -/
theorem exists_left_of_forall₂ {R : α → β → Prop} {as : List α} {bs : List β} {b : β} (h : List.Forall₂ R as bs)
    (hb : b ∈ bs) : ∃ a ∈ as, R a b := by
  induction h with
  | nil => cases hb
  | cons hR _ ih =>
    rcases List.mem_cons.1 hb with rfl | hb
    · exact ⟨_, List.mem_cons_self, hR⟩
    · obtain ⟨a, ha, hab⟩ := ih hb
      exact ⟨a, List.mem_cons_of_mem _ ha, hab⟩

end Invoicing.Effect
