import Invoicing.Proofs.Index.Queries
import Invoicing.Service.Basic
import Mathlib.Data.List.Forall2

set_option autoImplicit false

/-! # Running tasks

The laws of running a task on a site, and what the tasks that only read leave as it is: `Site.ReadOnly` holds
after every program whose calls are all of the reading kind (`Program.Reads.readOnly`), while the index holds a
history. -/

namespace Invoicing

/-! ## Running -/

namespace Task

variable {α β : Type}

@[simp] theorem run_pure (a : α) (site : Site) : (pure a : Task α).run site = (.ok a, site) := rfl

@[simp] theorem run_throw (e : ServiceError) (site : Site) :
    (throw e : Task α).run site = (.error e, site) := rfl

theorem run_bind (t : Task α) (f : α → Task β) (site : Site) :
    (t >>= f).run site =
      match (t.run site).1 with
      | .ok a => (f a).run (t.run site).2
      | .error e => (.error e, (t.run site).2) := by
  show (ExceptT.run t >>= ExceptT.bindCont f).run site = _
  rw [Program.run_bind]
  show (ExceptT.bindCont f (t.run site).1).run (t.run site).2 = _
  cases (t.run site).1 <;> rfl

theorem run_bind_ok {t : Task α} {f : α → Task β} {site : Site} {a : α}
    (h : (t.run site).1 = .ok a) : (t >>= f).run site = (f a).run (t.run site).2 := by
  rw [run_bind, h]

theorem run_bind_error {t : Task α} {f : α → Task β} {site : Site} {e : ServiceError}
    (h : (t.run site).1 = .error e) : (t >>= f).run site = (.error e, (t.run site).2) := by
  rw [run_bind, h]

/-- A task that comes to a value went through all its parts. -/
theorem run_bind_eq_ok {t : Task α} {f : α → Task β} {site : Site} {b : β} (h : ((t >>= f).run site).1 = .ok b) :
    ∃ a, (t.run site).1 = .ok a ∧ ((f a).run (t.run site).2).1 = .ok b := by
  rw [run_bind] at h
  split at h
  · next a ha => exact ⟨a, ha, h⟩
  · cases h

@[simp] theorem run_map (t : Task α) (f : α → β) (site : Site) :
    (f <$> t).run site = ((t.run site).1.map f, (t.run site).2) := by
  rw [map_eq_pure_bind, run_bind]
  cases (t.run site).1 <;> rfl

@[simp] theorem run_now (site : Site) : now.run site = (.ok site.serviceTime, site) := rfl

theorem run_ofStorage (c : Call (Except StorageError α)) (site : Site) :
    (ofStorage c).run site = ((c.run site).1.mapError .storage, (c.run site).2) := by
  have hlift : Task.run (ExceptT.lift (Program.ofCall c)) site = (.ok (c.run site).1, (c.run site).2) := rfl
  rw [ofStorage, run_bind, hlift]
  cases (c.run site).1 <;> rfl

theorem run_ofIndex (c : Call (Except IndexError α)) (site : Site) :
    (ofIndex c).run site = ((c.run site).1.mapError .index, (c.run site).2) := by
  have hlift : Task.run (ExceptT.lift (Program.ofCall c)) site = (.ok (c.run site).1, (c.run site).2) := rfl
  rw [ofIndex, run_bind, hlift]
  cases (c.run site).1 <;> rfl

@[simp] theorem run_ofExcept (r : Except ServiceError α) (site : Site) :
    (MonadExcept.ofExcept r : Task α).run site = (r, site) := by
  cases r <;> rfl

@[simp] theorem run_ofBlock (r : Except BlockError α) (site : Site) :
    (ofBlock r).run site = (r.mapError .block, site) := by
  cases r <;> rfl

/-- A task for each element of a list, where every one comes to its result while `I` holds. -/
theorem run_mapM {I : Site → Prop} {f : α → Task β} {g : α → Except ServiceError β} (as : List α)
    (h : ∀ a ∈ as, ∀ site, I site → ((f a).run site).1 = g a ∧ I ((f a).run site).2) (site : Site) (hI : I site) :
    ((as.mapM f).run site).1 = as.mapM g := by
  induction as generalizing site with
  | nil => rfl
  | cons a as ih =>
    obtain ⟨hres, hI'⟩ := h a List.mem_cons_self site hI
    have hrest := ih (fun b hb => h b (List.mem_cons_of_mem a hb)) _ hI'
    rw [List.mapM_cons, List.mapM_cons]
    cases hg : g a with
    | error e =>
      rw [run_bind_error (hres.trans hg)]
      rfl
    | ok b =>
      rw [run_bind_ok (hres.trans hg), ← map_eq_pure_bind, run_map, hrest]
      show (as.mapM g).map _ = as.mapM g >>= fun bs => pure (b :: bs)
      cases as.mapM g <;> rfl

/-- To take blocks apart needs no call. -/
theorem mapM_ofBlock {f : α → Except BlockError β} (as : List α) :
    (as.mapM fun a => ofBlock (f a)) = ofBlock (as.mapM f) := by
  induction as with
  | nil => rfl
  | cons a as ih =>
    rw [List.mapM_cons, List.mapM_cons, ih]
    cases f a with
    | error e => rfl
    | ok b =>
      cases as.mapM f <;> rfl

end Task

/-! ## Reading -/

/-- Only counters and journals have changed from `site` to `site'`. -/
structure Site.ReadOnly (site site' : Site) : Prop where
  log : site'.storage.log = site.storage.log
  script : site'.storage.script = site.storage.script
  clock : site'.clock = site.clock
  ownTime : site'.ownTime = site.ownTime
  indexReady : site'.index.isReady = site.index.isReady
  store : site.index.store.ReadOnly site'.index.store

namespace Site.ReadOnly

theorem refl (site : Site) : site.ReadOnly site := ⟨rfl, rfl, rfl, rfl, rfl, .refl _⟩

theorem trans {site site' site'' : Site} (h : site.ReadOnly site') (h' : site'.ReadOnly site'') :
    site.ReadOnly site'' :=
  ⟨h'.log.trans h.log, h'.script.trans h.script, h'.clock.trans h.clock, h'.ownTime.trans h.ownTime,
    h'.indexReady.trans h.indexReady, h.store.trans h'.store⟩

end Site.ReadOnly

/-- A look-up in the index either comes to its answer or fails at a read. -/
theorem Task.run_ofIndex_answers {α : Type} {c : Call (Except IndexError α)} {m : StoreM α}
    {r : Except IndexError α} {site : Site}
    (hc : c.run site = Call.onIndex site fun index => index.run m)
    (hm : m.Answers site.index.store.records r) :
    site.ReadOnly ((ofIndex c).run site).2 ∧
      (((ofIndex c).run site).1 = r.mapError .index ∨
        ¬ site.index.store.reading.Quiet ∧ ∃ e, ((ofIndex c).run site).1 = .error e) := by
  rw [run_ofIndex, hc]
  refine ⟨⟨rfl, rfl, rfl, rfl, rfl, hm.readOnly rfl⟩, ?_⟩
  rcases (hm site.index.store rfl).2 with hr | ⟨hq, f, hf⟩
  · exact .inl (congrArg (Except.mapError ServiceError.index) hr)
  · exact .inr ⟨hq, _, congrArg (Except.mapError ServiceError.index) hf⟩

/-- Calls that only look something up. -/
inductive Call.Reads : {α : Type} → Call α → Prop where
  | now : Call.now.Reads
  | read (location : String) : (Call.read location).Reads
  | locations (channel : String) (window : Option Window) : (Call.locations channel window).Reads
  | channels (topics : List String) (window : Option Window) : (Call.channels topics window).Reads

theorem Call.Reads.readOnly {α : Type} {c : Call α} (hc : c.Reads) {site : Site} {h : History}
    (hold : site.index.store.records.Hold h) : site.ReadOnly (c.run site).2 := by
  cases hc with
  | now => exact .refl site
  | read location =>
    have hread : (site.storage.read location).2.log = site.storage.log ∧
        (site.storage.read location).2.script = site.storage.script := by
      simp only [StorageNode.read]
      split <;> exact ⟨rfl, rfl⟩
    exact ⟨hread.1, hread.2, rfl, rfl, rfl, .refl _⟩
  | locations channel window =>
    have hstore : site.index.store.ReadOnly ((Index.locations channel window).run.run site.index.store).2 := by
      cases window with
      | none => exact (Index.answers_locations_none (hold.spells_channel channel)).readOnly rfl
      | some window =>
        exact (Index.answers_locations_some window (hold.spells_channel channel)
          fun l _ => hold.spells_location l).readOnly rfl
    exact ⟨rfl, rfl, rfl, rfl, rfl, hstore⟩
  | channels topics window =>
    have hstore := (Index.answers_channelsOfTopics window fun t (_ : t ∈ topics) => hold.spells_topic t).readOnly
      (s := site.index.store) rfl
    exact ⟨rfl, rfl, rfl, rfl, rfl, hstore⟩

/-- All calls of the program only look something up, whatever the answers are. -/
def Program.Reads {α : Type} : Program α → Prop
  | done _ => True
  | call c next => c.Reads ∧ ∀ answer, (next answer).Reads

namespace Program

variable {α β : Type}

theorem Reads.bind {p : Program α} {f : α → Program β} (hp : p.Reads) (hf : ∀ a, (f a).Reads) :
    (p >>= f).Reads := by
  show (p.bind f).Reads
  induction p with
  | done a => exact hf a
  | call c next ih => exact ⟨hp.1, fun answer => ih answer (hp.2 answer)⟩

theorem Reads.readOnly {p : Program α} (hp : p.Reads) {site : Site} {h : History}
    (hold : site.index.store.records.Hold h) : site.ReadOnly (p.run site).2 := by
  induction p generalizing site with
  | done a => exact .refl site
  | call c next ih =>
    have hro := hp.1.readOnly hold
    exact hro.trans (ih _ (hp.2 _) (hro.store.records ▸ hold))

end Program

namespace Task

variable {α β : Type}

/-- All calls of the task only look something up. -/
def Reads (t : Task α) : Prop := Program.Reads (ExceptT.run t)

theorem Reads.readOnly {t : Task α} (ht : t.Reads) {site : Site} {h : History}
    (hold : site.index.store.records.Hold h) : site.ReadOnly (t.run site).2 :=
  Program.Reads.readOnly ht hold

theorem reads_pure (a : α) : (pure a : Task α).Reads := trivial

theorem Reads.bind {t : Task α} {f : α → Task β} (ht : t.Reads) (hf : ∀ a, (f a).Reads) :
    (t >>= f).Reads := by
  refine Program.Reads.bind ht fun r => ?_
  cases r with
  | ok a => exact hf a
  | error e => trivial

theorem Reads.map {t : Task α} {f : α → β} (ht : t.Reads) : (f <$> t).Reads := by
  rw [map_eq_pure_bind]
  exact ht.bind fun a => reads_pure (f a)

theorem reads_now : now.Reads := ⟨.now, fun _ => trivial⟩

theorem reads_ofStorage {c : Call (Except StorageError α)} (hc : c.Reads) : (ofStorage c).Reads := by
  refine ⟨hc, fun answer => ?_⟩
  cases answer <;> trivial

theorem reads_ofIndex {c : Call (Except IndexError α)} (hc : c.Reads) : (ofIndex c).Reads := by
  refine ⟨hc, fun answer => ?_⟩
  cases answer <;> trivial

theorem reads_ofExcept (r : Except ServiceError α) : (MonadExcept.ofExcept r : Task α).Reads := by
  cases r <;> trivial

theorem reads_ofBlock (r : Except BlockError α) : (ofBlock r).Reads := by
  cases r <;> trivial

theorem reads_mapM {f : α → Task β} (hf : ∀ a, (f a).Reads) (as : List α) : (as.mapM f).Reads := by
  induction as with
  | nil => exact reads_pure _
  | cons a as ih =>
    rw [List.mapM_cons]
    exact (hf a).bind fun b => ih.bind fun bs => reads_pure _

theorem reads_closeWindow (window : Option Window) : (closeWindow window).Reads := by
  cases window with
  | none => exact reads_pure _
  | some window => exact reads_now.bind fun now => reads_pure _

theorem reads_readChannel (channel : String) (locations : List String) :
    (readChannel channel locations).Reads := by
  refine Reads.bind (reads_mapM (fun l => (reads_ofStorage (.read l)).bind fun r => reads_pure _) _) fun stored => ?_
  exact (reads_mapM (fun s => reads_ofBlock _) stored).bind fun entries => reads_pure _

theorem reads_channelEntries (channel : String) (window : Option Window) :
    (channelEntries channel window).Reads :=
  (reads_closeWindow window).bind fun w => (reads_ofIndex (.locations channel w)).bind fun ls => reads_readChannel channel ls

theorem reads_topicsEntries (topics : List String) (window : Option Window) :
    (topicsEntries topics window).Reads := by
  refine (reads_ofExcept _).bind fun _ => (reads_closeWindow window).bind fun w => ?_
  refine (reads_ofIndex (.channels topics w)).bind fun cs => reads_mapM (fun c => ?_) cs
  exact (reads_ofIndex (.locations c none)).bind fun ls => (reads_readChannel c ls).bind fun es => reads_pure _

end Task

end Invoicing
