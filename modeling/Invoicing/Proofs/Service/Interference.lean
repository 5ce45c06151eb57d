import Invoicing.Proofs.Service.Clock

set_option autoImplicit false

/-! # Programs among other programs

Between two calls of a program others may make calls of their own. All that they can do is to let the site evolve
(`Site.Evolves`): log and history grow, and nothing that was there is lost. A program is safe if each of its calls lets the
site evolve as well, however it has evolved before the call (`Program.Safe`), and then it also comes to what it is
to come to. -/

namespace Invoicing

/-! ## How a site evolves -/

/-- The storage has no script, the store of the index does not fail, and the index holds a history of blobs that are in
the log. -/
structure Site.Sound (site : Site) (h : History) : Prop where
  script : site.storage.script = .empty
  records : site.index.store.records.Hold h
  quiet : site.index.store.Quiet
  nodup : (site.storage.log.blobs.map (·.location)).Nodup
  stored : ∀ a ∈ h, Stored site.storage.log a

/-- What may have happened between two moments. -/
structure Site.Evolves (site : Site) (h : History) (site' : Site) (h' : History) : Prop where
  sound : site'.Sound h'
  history : h <+: h'
  find? : ∀ location blob, site.storage.log.find? location = some blob →
    site'.storage.log.find? location = some blob
  mem : ∀ blob ∈ site.storage.log.blobs, blob ∈ site'.storage.log.blobs

namespace Site

variable {site site' site'' : Site} {h h' h'' : History}

theorem Sound.refl (hs : site.Sound h) : site.Evolves h site h :=
  ⟨hs, List.prefix_rfl, fun _ _ hfind => hfind, fun _ hblob => hblob⟩

theorem Evolves.trans (h₁ : site.Evolves h site' h') (h₂ : site'.Evolves h' site'' h'') : site.Evolves h site'' h'' :=
  ⟨h₂.sound, h₁.history.trans h₂.history, fun l blob hfind => h₂.find? l blob (h₁.find? l blob hfind),
    fun blob hblob => h₂.mem blob (h₁.mem blob hblob)⟩

/-- A blob that could be read can be read later on. -/
theorem Evolves.read (hev : site.Evolves h site' h') {location : String} {result : ReadResult}
    (hread : site.storage.log.read location = .ok result) : site'.storage.log.read location = .ok result := by
  unfold BlobLog.read at hread ⊢
  split at hread
  · next blob hfind =>
    rw [hev.find? location blob hfind]
    exact hread
  · cases hread

/-! ## What calls do -/

/-- Calls that only look something up. -/
theorem Sound.reads (hs : site.Sound h) {α : Type} {c : Call α} (hc : c.Reads) : site.Evolves h (c.run site).2 h := by
  have hro := hc.readOnly hs.records
  refine ⟨⟨hro.script.trans hs.script, hro.store.records ▸ hs.records, hro.store.store_quiet hs.quiet, ?_, ?_⟩,
    List.prefix_rfl, ?_, ?_⟩
  · exact hro.log ▸ hs.nodup
  · exact hro.log ▸ hs.stored
  · exact hro.log ▸ fun _ _ hfind => hfind
  · exact hro.log ▸ fun _ hblob => hblob

/-- A content is appended, by whomever and with whatever time. -/
theorem Sound.append (hs : site.Sound h) (content : String) (time : Timestamp) :
    site.Evolves h { site with storage.log := (site.storage.log.append content time).2 } h := by
  refine ⟨⟨hs.script, hs.records, hs.quiet, BlobLog.nodup_append hs.nodup content time, fun a ha => ?_⟩,
    List.prefix_rfl, fun l blob hfind => BlobLog.find?_append_of_find? hfind content time,
    fun blob hblob => BlobLog.mem_append_of_mem hblob content time⟩
  obtain ⟨blob, hblob, hrest⟩ := hs.stored a ha
  exact ⟨blob, BlobLog.mem_append_of_mem hblob content time, hrest⟩

/-- A query for data either has all blobs of the window as its answer, or it fails. -/
theorem Sound.data (hs : site.Sound h) (window : Option Window) :
    site.Evolves h ((Call.data window).run site).2 h ∧
      (((Call.data window).run site).1 = .ok (site.storage.log.data window site.clock.now) ∨
        ∃ e, ((Call.data window).run site).1 = .error e) := by
  obtain ⟨hlog, hscript, hanswer⟩ := StorageNode.data_unscripted hs.script window site.clock.now
  refine ⟨⟨⟨hscript, hs.records, hs.quiet, ?_, ?_⟩, List.prefix_rfl, ?_, ?_⟩, hanswer.imp_right And.left⟩
  · show ((site.storage.data window site.clock.now).2.log.blobs.map (·.location)).Nodup
    exact hlog ▸ hs.nodup
  · show ∀ a ∈ h, Stored (site.storage.data window site.clock.now).2.log a
    exact hlog ▸ hs.stored
  · show ∀ l blob, site.storage.log.find? l = some blob →
      (site.storage.data window site.clock.now).2.log.find? l = some blob
    exact hlog ▸ fun _ _ hfind => hfind
  · show ∀ blob ∈ site.storage.log.blobs, blob ∈ (site.storage.data window site.clock.now).2.log.blobs
    exact hlog ▸ fun _ hblob => hblob

/-- A block that is in the log is added to the index. -/
theorem Sound.add (hs : site.Sound h) {a : Addition} (hstored : Stored site.storage.log a) :
    ((Call.add a.location a.header a.timestamp).run site).1 = .ok () ∧
      site.Evolves h ((Call.add a.location a.header a.timestamp).run site).2 (h ++ [a]) := by
  obtain ⟨hquiet, ⟨hok, hrecords⟩ | ⟨hnq, -⟩⟩ := Index.run_add (hs.records.readableFor a.location a.header) a.timestamp
  · have hold := hs.records.write_batchFor a
    rw [← hrecords] at hold
    refine ⟨hok, ⟨hs.script, hold, hquiet hs.quiet, hs.nodup, fun b hb => ?_⟩, List.prefix_append h [a],
      fun _ _ hfind => hfind, fun _ hblob => hblob⟩
    rcases List.mem_append.1 hb with hb | hb
    · exact hs.stored b hb
    · exact List.mem_singleton.1 hb ▸ hstored
  · exact absurd hs.quiet hnq

theorem Sound.setClock (hs : site.Sound h) (now : Timestamp) :
    site.Evolves h { site with clock := site.clock.set now } h :=
  ⟨⟨hs.script, hs.records, hs.quiet, hs.nodup, hs.stored⟩, List.prefix_rfl, fun _ _ hfind => hfind,
    fun _ hblob => hblob⟩

end Site

/-! ## Safe programs -/

namespace Program

variable {α β : Type} {Q Q' : α → Site → History → Prop} {site : Site} {h : History}

/-- However the site evolves before each call, the call lets it evolve too, and `Q` holds of the result from the
last call on. -/
def Safe (Q : α → Site → History → Prop) : Program α → Site → History → Prop
  | done a, site, h => ∀ site' h', site.Evolves h site' h' → Q a site' h'
  | call c next, site, h => ∀ site' h', site.Evolves h site' h' →
    ∃ h'', site'.Evolves h' (c.run site').2 h'' ∧ (next (c.run site').1).Safe Q (c.run site').2 h''

/-- A program that is safe now is safe later on. -/
theorem Safe.later {p : Program α} (hp : p.Safe Q site h) {site' : Site} {h' : History}
    (hev : site.Evolves h site' h') : p.Safe Q site' h' := by
  cases p with
  | done a =>
    intro site'' h'' hev'
    exact hp site'' h'' (hev.trans hev')
  | call c next =>
    intro site'' h'' hev'
    exact hp site'' h'' (hev.trans hev')

theorem Safe.mono {p : Program α} (hp : p.Safe Q site h) (hQ : ∀ a site h, Q a site h → Q' a site h) :
    p.Safe Q' site h := by
  induction p generalizing site h with
  | done a =>
    intro site' h' hev
    exact hQ a site' h' (hp site' h' hev)
  | call c next ih =>
    intro site' h' hev
    obtain ⟨h'', hev', hnext⟩ := hp site' h' hev
    exact ⟨h'', hev', ih _ hnext⟩

theorem Safe.bind {p : Program α} {f : α → Program β} {Q : β → Site → History → Prop} (hs : site.Sound h)
    (hp : p.Safe (fun a site h => (f a).Safe Q site h) site h) : (p >>= f).Safe Q site h := by
  show (p.bind f).Safe Q site h
  induction p generalizing site h with
  | done a => exact hp site h hs.refl
  | call c next ih =>
    intro site' h' hev
    obtain ⟨h'', hev', hnext⟩ := hp site' h' hev
    exact ⟨h'', hev', ih _ hev'.sound hnext⟩

/-- To make all calls in a row is one way to make them. -/
theorem Safe.run {p : Program α} (hp : p.Safe Q site h) (hs : site.Sound h) :
    ∃ h', site.Evolves h (p.run site).2 h' ∧ Q (p.run site).1 (p.run site).2 h' := by
  induction p generalizing site h with
  | done a => exact ⟨h, hs.refl, hp site h hs.refl⟩
  | call c next ih =>
    obtain ⟨h', hev, hnext⟩ := hp site h hs.refl
    obtain ⟨h'', hev', hQ⟩ := ih _ hnext hev.sound
    exact ⟨h'', hev.trans hev', hQ⟩

end Program

namespace Task

variable {α β : Type} {site : Site} {h : History}

/-- A task is safe if its program is. -/
def Safe (Q : Except ServiceError α → Site → History → Prop) (t : Task α) (site : Site) (h : History) : Prop :=
  Program.Safe Q (ExceptT.run t) site h

variable {Q : Except ServiceError β → Site → History → Prop}

/-- A task that stops the whole is done with its error. -/
theorem Safe.bind {t : Task α} {f : α → Task β} (hs : site.Sound h)
    (ht : t.Safe (fun r site h => match r with
      | .ok a => (f a).Safe Q site h
      | .error e => ∀ site' h', site.Evolves h site' h' → Q (.error e) site' h') site h) : (t >>= f).Safe Q site h := by
  refine Program.Safe.bind (f := ExceptT.bindCont f) hs (Program.Safe.mono ht fun r site h hr => ?_)
  cases r with
  | ok a => exact hr
  | error e => exact hr

theorem Safe.map {t : Task α} {f : α → β} (hs : site.Sound h)
    (ht : t.Safe (fun r site h => ∀ site' h', site.Evolves h site' h' → Q (r.map f) site' h') site h) :
    (f <$> t).Safe Q site h := by
  rw [map_eq_pure_bind]
  refine Safe.bind hs (Program.Safe.mono ht fun r site h hr => ?_)
  cases r <;> exact hr

/-! ## The first call of a task -/

theorem run_now_bind (f : Timestamp → Task β) : ExceptT.run (now >>= f) = .call .now fun time => ExceptT.run (f time) :=
  rfl

theorem run_ofStorage_bind (c : Call (Except StorageError α)) (f : α → Task β) :
    ExceptT.run (ofStorage c >>= f) = .call c fun answer =>
      match answer with
      | .ok a => ExceptT.run (f a)
      | .error e => .done (.error (.storage e)) := by
  show Program.call c _ = Program.call c _
  congr
  funext answer
  cases answer <;> rfl

theorem run_ofIndex_bind (c : Call (Except IndexError α)) (f : α → Task β) :
    ExceptT.run (ofIndex c >>= f) = .call c fun answer =>
      match answer with
      | .ok a => ExceptT.run (f a)
      | .error e => .done (.error (.index e)) := by
  show Program.call c _ = Program.call c _
  congr
  funext answer
  cases answer <;> rfl

/-! ## Synchronizing -/

/-- Blobs of the log can be indexed one by one. -/
theorem safe_indexBlobs (hs : site.Sound h) {blobs : List Blob} (hblobs : ∀ blob ∈ blobs, blob ∈ site.storage.log.blobs)
    (report : SyncReport) : (indexBlobs report blobs).Safe (fun _ _ _ => True) site h := by
  induction blobs generalizing site h report with
  | nil => exact fun _ _ _ => trivial
  | cons blob blobs ih =>
    have hrest : ∀ b ∈ blobs, b ∈ site.storage.log.blobs := fun b hb => hblobs b (List.mem_cons_of_mem blob hb)
    rw [indexBlobs]
    split
    · next block hparse =>
      unfold Safe
      rw [run_ofIndex_bind]
      intro site' h' hev
      obtain ⟨hok, hev'⟩ := hev.sound.add (a := ⟨blob.location, block.header, blob.info.timestamp⟩)
        ⟨blob, hev.mem blob (hblobs blob List.mem_cons_self), rfl, rfl⟩
      refine ⟨_, hev', ?_⟩
      rw [hok]
      exact ih hev'.sound (fun b hb => hev'.mem b (hev.mem b (hrest b hb))) _
    · exact ih hs hrest _

theorem safe_catchUp (site : Site) (h : History) (window : Option Window) :
    (catchUp window).Safe (fun _ _ _ => True) site h := by
  unfold Safe catchUp
  rw [run_ofStorage_bind]
  intro site₁ h₁ hev₁
  obtain ⟨hev₂, hok | ⟨e, he⟩⟩ := hev₁.sound.data window
  · refine ⟨h₁, hev₂, ?_⟩
    rw [hok]
    generalize ((Call.data window).run site₁).2 = site₂ at hev₂
    -- All blobs of the answer are in the log, and they stay there.
    have hindex : (indexData (site₁.storage.log.data window site₁.clock.now)).Safe (fun _ _ _ => True) site₂ h₁ := by
      unfold indexData
      rw [blobsOf_data]
      exact safe_indexBlobs hev₂.sound (fun blob hblob => hev₂.mem blob (List.mem_of_mem_filter hblob)) ⟨0, 0⟩
    refine Safe.bind hev₂.sound (Program.Safe.mono hindex fun r site h _ => ?_)
    cases r with
    | ok report => exact fun _ _ _ => trivial
    | error e => exact fun _ _ _ => trivial
  · refine ⟨h₁, hev₂, ?_⟩
    rw [he]
    exact fun _ _ _ => trivial

theorem safe_synchronize (site : Site) (h : History) (watermark : Timestamp) :
    (synchronize watermark).Safe (fun _ _ _ => True) site h := by
  unfold Safe synchronize
  rw [run_now_bind]
  intro site₁ h₁ hev₁
  have hev₂ := hev₁.sound.reads .now
  exact ⟨h₁, hev₂, safe_catchUp _ h₁ _⟩

/-! ## Storing -/

/-- What a transaction that was stored has left behind, unless its topics were refused. -/
def Persisted (t : Transaction) (channel : String) (topics : List String) (r : Except ServiceError Receipt) (site : Site)
    (h : History) : Prop :=
  match checkTopics topics with
  | .error e => r = .error e
  | .ok _ => ∃ receipt, r = .ok receipt ∧
    (∃ blob ∈ site.storage.log.blobs, blob.location = receipt.location ∧ blob.info = receipt.info) ∧
    ⟨receipt.location, (Block.empty.push t channel topics).header, receipt.info.timestamp⟩ ∈ h

theorem safe_persist (site : Site) (h : History) (t : Transaction) (channel : String) (topics : List String) :
    (persist t channel topics).Safe (Persisted t channel topics) site h := by
  unfold Safe persist
  cases htopics : checkTopics topics with
  | error e =>
    intro site' h' _
    unfold Persisted
    rw [htopics]
  | ok u =>
    show Program.Safe _ (ExceptT.run (ofStorage _ >>= _)) site h
    rw [run_ofStorage_bind]
    intro site₁ h₁ hev₁
    obtain ⟨content, hcontent⟩ : ∃ content, content = (Block.empty.push t channel topics).render := ⟨_, rfl⟩
    have happend : (Call.append content).run site₁ = (.ok (site₁.storage.log.append content site₁.clock.now).1,
        { site₁ with storage.log := (site₁.storage.log.append content site₁.clock.now).2 }) := by
      simp only [Call.run, Call.onStorage, StorageNode.append_unscripted hev₁.sound.script]
    have hev₂ := hev₁.sound.append content site₁.clock.now
    obtain ⟨blob, hblob, hlocation, hinfo⟩ := BlobLog.exists_append_self site₁.storage.log content site₁.clock.now
    rw [← hcontent, happend]
    refine ⟨h₁, hev₂, ?_⟩
    generalize (site₁.storage.log.append content site₁.clock.now).1 = stored at hlocation hinfo
    show Program.Safe _ (ExceptT.run (ofIndex (.add stored.location _ stored.info.timestamp) >>= _)) _ _
    rw [run_ofIndex_bind]
    -- Others may have indexed the block by now.
    intro site₃ h₃ hev₃
    obtain ⟨hok, hev₄⟩ := hev₃.sound.add
      (a := ⟨stored.location, (Block.empty.push t channel topics).header, stored.info.timestamp⟩)
      ⟨blob, hev₃.mem blob hblob, hlocation, congrArg StorageMeta.timestamp hinfo⟩
    refine ⟨_, hev₄, ?_⟩
    rw [hok]
    intro site₅ h₅ hev₅
    unfold Persisted
    rw [htopics]
    exact ⟨⟨stored.location, stored.info, topics⟩, rfl,
      ⟨blob, hev₅.mem blob (hev₄.mem blob (hev₃.mem blob hblob)), hlocation, hinfo⟩,
      hev₅.history.subset (List.mem_append_right _ List.mem_cons_self)⟩

/-! ## Reading -/

/-- Locations that can be read are read with the same results whatever happens meanwhile. -/
theorem safe_readAll {locations : List String}
    (hread : ∀ l ∈ locations, ∃ result, site.storage.log.read l = .ok result) :
    ∃ results, (readAll locations).Safe (fun r _ _ => r = .ok results) site h := by
  induction locations with
  | nil => exact ⟨[], fun _ _ _ => rfl⟩
  | cons l locations ih =>
    obtain ⟨result, hresult⟩ := hread l List.mem_cons_self
    obtain ⟨results, hrest⟩ := ih fun l' hl' => hread l' (List.mem_cons_of_mem l hl')
    refine ⟨(l, result) :: results, ?_⟩
    have hcons : readAll (l :: locations) =
        ofStorage (.read l) >>= fun result => (fun results => (l, result) :: results) <$> readAll locations := by
      simp only [readAll, List.mapM_cons, bind_assoc, pure_bind, map_eq_pure_bind]
    unfold Safe
    rw [hcons, run_ofStorage_bind]
    intro site' h' hev
    have hev' := hev.sound.reads (.read l)
    have hanswer : ((Call.read l).run site').1 = .ok result := by
      simp only [Call.run, Call.onStorage, StorageNode.read_unscripted hev.sound.script]
      exact hev.read hresult
    refine ⟨h', hev', ?_⟩
    rw [hanswer]
    refine Safe.map hev'.sound (Program.Safe.mono (hrest.later (hev.trans hev')) fun r site h hr => ?_)
    intro _ _ _
    rw [hr]
    rfl

/-- A channel is read with the same result whatever happens meanwhile. -/
theorem safe_readChannel (hs : site.Sound h) (channel : String) {locations : List String}
    (hread : ∀ l ∈ locations, ∃ result, site.storage.log.read l = .ok result) :
    ∃ value, (readChannel channel locations).Safe (fun r _ _ => r = value) site h := by
  obtain ⟨results, hall⟩ := safe_readAll hread
  obtain ⟨value, hvalue⟩ : ∃ value, ∀ site h, (results.mapM (fun read =>
      ofBlock (entriesOf channel read.1 read.2)) >>= fun entries => pure entries.flatten : Task _).Safe
        (fun r _ _ => r = value) site h := by
    rw [mapM_ofBlock]
    cases results.mapM fun read => entriesOf channel read.1 read.2 with
    | ok entries => exact ⟨.ok entries.flatten, fun _ _ _ _ _ => rfl⟩
    | error e => exact ⟨.error (.block e), fun _ _ _ _ _ => rfl⟩
  refine ⟨value, ?_⟩
  unfold readChannel
  refine Safe.bind hs (Program.Safe.mono hall fun r site h hr => ?_)
  rw [hr]
  exact hvalue site h

/-- A channel is looked up first, and what it lists is in the log. -/
theorem run_channelEntries_eq (channel : String) :
    ExceptT.run (channelEntries channel none) = .call (.locations channel none) fun answer =>
      match answer with
      | .ok locations => ExceptT.run (readChannel channel locations)
      | .error e => .done (.error (.index e)) := by
  unfold channelEntries closeWindow
  rw [pure_bind]
  rw [run_ofIndex_bind]
  congr
  funext answer
  cases answer <;> rfl

end Task

/-- Every location that the index lists can be read. -/
theorem Site.Sound.read_listed {site : Site} {h : History} (hs : site.Sound h) {channel location : String}
    (hl : location ∈ h.locationsOf channel) : ∃ result, site.storage.log.read location = .ok result := by
  obtain ⟨a, ha, -, rfl⟩ := History.mem_locationsOf.1 hl
  obtain ⟨found, hfound⟩ := (hs.stored a ha).exists_find?
  exact ⟨⟨found.content, found.info⟩, by rw [BlobLog.read, hfound]⟩

/-- **A channel is read as of its look-up.** After the look-up in the index, the rest of the query is safe, and it comes
to what the query would have come to if all its calls had been made at that moment. -/
theorem Task.safe_channelEntries {site : Site} {h : History} (hs : site.Sound h) (channel : String) {α : Type}
    {c : Call α} {next : α → Program (Except ServiceError (List ChannelEntry))}
    (hrun : .call c next = ExceptT.run (channelEntries channel none)) :
    site.Evolves h (c.run site).2 h ∧
      (next (c.run site).1).Safe (fun r _ _ => r = ((channelEntries channel none).run site).1) (c.run site).2 h := by
  have hatonce : ((channelEntries channel none).run site).1 = ((next (c.run site).1).run (c.run site).2).1 := by
    show (Program.run (ExceptT.run _) site).1 = _
    rw [← hrun]
    rfl
  rw [run_channelEntries_eq] at hrun
  cases hrun
  have hev := hs.reads (.locations channel none)
  have hlookup := Index.answers_locations_none (hs.records.spells_channel channel)
  have hanswer : ((Call.locations channel none).run site).1 = .ok (h.locationsOf channel) := by
    rw [← hs.records.locationsOf_eq]
    exact hlookup.fst_eq rfl hs.quiet.reading
  rw [hatonce]
  refine ⟨hev, ?_⟩
  rw [hanswer]
  obtain ⟨value, hvalue⟩ := safe_readChannel hev.sound channel fun l hl => hev.sound.read_listed hl
  obtain ⟨-, -, hresult⟩ := Program.Safe.run hvalue hev.sound
  exact Program.Safe.mono hvalue fun r _ _ hr => hr.trans hresult.symm

end Invoicing
