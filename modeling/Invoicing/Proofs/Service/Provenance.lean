import Invoicing.Proofs.Service.Restart

set_option autoImplicit false

/-! # Where the entries of a channel come from

A channel that is read gives one entry for each position that the blocks at its locations list for it, and every
entry stands beside the location and the meta data with which its block was read (`DataService.channel_eq`). No
position is passed over, since a block is only read if all its positions are within it (`Block.Sound`), and none is
given twice, since the index lists a location once and the positions of a block are taken in ascending order. -/

namespace Invoicing

/-- Each position that the block lists for the channel, once and in ascending order. -/
structure Block.Ranks (b : Block) (channel : String) (positions : List Nat) : Prop where
  ascending : positions.Pairwise (· < ·)
  mem_iff : ∀ i, i ∈ positions ↔ ∃ p ∈ b.positions channel, p.toNat = i

/-- What a node gives for a channel at a location: the transactions at the channel's positions in the block there,
each with the location and the meta data of the block. -/
def StorageNode.Gives (node : StorageNode) (channel location : String) (entries : List ChannelEntry) : Prop :=
  ∃ stored block positions, (node.read location).1 = .ok stored ∧ Block.parse stored.content = .ok block ∧
    block.Ranks channel positions ∧
    List.Forall₂ (fun i entry => block.transactions[i]? = some entry.transaction ∧ entry.location = location ∧
      entry.info = stored.info) positions entries

/-! ## One location -/

/-- A list is mapped in step if every element comes to a value. -/
theorem forall₂_filterMap {α β : Type} {f : α → Option β} {as : List α} (h : ∀ a ∈ as, (f a).isSome) :
    List.Forall₂ (fun a b => f a = some b) as (as.filterMap f) := by
  induction as with
  | nil => exact .nil
  | cons a as ih =>
    obtain ⟨b, hb⟩ := Option.isSome_iff_exists.1 (h a List.mem_cons_self)
    rw [List.filterMap_cons_some hb]
    exact .cons hb (ih fun a' ha' => h a' (List.mem_cons_of_mem a ha'))

namespace Task

theorem mem_positionsOf {block : Block} {channel : String} {i : Nat} :
    i ∈ positionsOf block channel ↔
      i < block.transactions.length ∧ ∃ p ∈ block.positions channel, p.toNat = i := by
  simp [positionsOf]

/-- No position of a block that was read is out of range, so none is passed over. -/
theorem ranks_positionsOf {block : Block} (hsound : block.Sound) (channel : String) :
    block.Ranks channel (positionsOf block channel) where
  ascending := List.pairwise_lt_range.filter _
  mem_iff i := by
    rw [mem_positionsOf, and_iff_right_iff_imp]
    rintro ⟨p, hp, rfl⟩
    exact hsound.inRange channel p hp

theorem gives_of_entriesOf {node : StorageNode} {channel location : String} {stored : ReadResult}
    {entries : List ChannelEntry} (hread : (node.read location).1 = .ok stored)
    (hentries : entriesOf channel location stored = .ok entries) : node.Gives channel location entries := by
  cases hparse : Block.parse stored.content with
  | error e =>
    rw [entriesOf, hparse] at hentries
    cases hentries
  | ok block =>
    rw [entriesOf_eq_ok stored hparse] at hentries
    cases hentries
    refine ⟨stored, block, _, hread, hparse, ranks_positionsOf (Block.sound_of_parse hparse) channel, ?_⟩
    refine (forall₂_filterMap fun i hi => ?_).imp fun i entry hentry => ?_
    · rw [Option.isSome_map, List.getElem?_eq_getElem (mem_positionsOf.1 hi).1]
      rfl
    · obtain ⟨t, ht, rfl⟩ := Option.map_eq_some_iff.1 hentry
      exact ⟨ht, rfl, rfl⟩

end Task

/-! ## All locations -/

/-- A channel that is read gives what the node has for it at each location, one after the other. -/
theorem StorageNode.gives_of_readChannel {node : StorageNode} (hscript : node.script = .empty) {channel : String}
    {locations : List String} {entries : List ChannelEntry}
    (hok : node.log.readChannel channel locations = .ok entries) :
    ∃ groups, List.Forall₂ (node.Gives channel) locations groups ∧ entries = groups.flatten := by
  obtain ⟨stored, hstored, hok⟩ := Effect.bind_eq_ok.1 hok
  have hread := Effect.forall₂_of_mapM hstored
  cases hgroups : stored.mapM fun read => Task.entriesOf channel read.1 read.2 with
  | error e =>
    rw [hgroups] at hok
    cases hok
  | ok groups =>
    rw [hgroups] at hok
    cases hok
    refine ⟨groups, (Effect.forall₂_comp hread (Effect.forall₂_of_mapM hgroups)).imp ?_, rfl⟩
    rintro l es ⟨answer, hl, hes⟩
    cases hfound : node.log.read l with
    | ok result =>
      rw [hfound] at hl
      cases hl
      exact Task.gives_of_entriesOf ((StorageNode.read_unscripted hscript l).symm ▸ hfound) hes
    | error e =>
      rw [hfound] at hl
      cases hl

namespace Engine

variable {e : Engine} {h : History}

/-- The index lists the locations of a channel, each once. -/
theorem Carries.answers_locations (hc : e.Carries h) (channel : String) (window : Option Window) :
    ∃ locations, (Index.locations channel window).Answers e.site.index.store.records (.ok locations) ∧
      locations.Nodup := by
  have hnodup : (e.site.index.store.records.locationsOf channel).Nodup := by
    rw [hc.records.locationsOf_eq]
    exact h.nodup_locationsOf channel
  cases window with
  | none => exact ⟨_, Index.answers_locations_none (hc.records.spells_channel channel), hnodup⟩
  | some window =>
    exact ⟨_, Index.answers_locations_some window (hc.records.spells_channel channel)
      fun l _ => hc.records.spells_location l, hnodup.filter _⟩

/-- What is read for a channel is what the node gives at the locations that the index lists. -/
theorem Carries.gives_of_channelEntries (hc : e.Carries h) {channel : String} {window : Option Window}
    {entries : List ChannelEntry} (hok : ((Task.channelEntries channel window).run e.site).1 = .ok entries) :
    ∃ locations groups, (Index.locations channel (window.map (·.closedAt e.site.clock.now))).Answers
        e.site.index.store.records (.ok locations) ∧ locations.Nodup ∧
      List.Forall₂ (e.site.storage.Gives channel) locations groups ∧ entries = groups.flatten := by
  obtain ⟨locations, hanswers, hnodup⟩ := hc.answers_locations channel (window.map (·.closedAt e.site.clock.now))
  have hread := @Task.run_channelEntries_answers e.site channel window locations hc.script
  rw [hc.serviceTime_eq] at hread
  rcases hread hanswers with hread | ⟨-, error, herror⟩
  · obtain ⟨groups, hgroups, hentries⟩ := StorageNode.gives_of_readChannel hc.script (hread.symm.trans hok)
    exact ⟨locations, groups, hanswers, hnodup, hgroups, hentries⟩
  · cases hok.symm.trans herror

end Engine

namespace DataService

/-- Someone else stores a block, and a new service takes over. -/
def trialTurns : List Turn :=
  [.event .setUp, .event (.append Block.trial.render 10), .event (.schedule .never .never .never), .restart,
    .event .setUp, .event (.schedule .never .never .never)]

end DataService

end Invoicing
