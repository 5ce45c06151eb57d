import Invoicing.Proofs.Block.Check
import Invoicing.Proofs.Index.History

set_option autoImplicit false

/-! # Blocks that are built

A block that is built by putting transactions into the empty one can be read off the list of what was put in: which
channel has which positions (`Block.positions_pushAll`), and with which topics (`Block.topics_pushAll`). If the channels
and the topics are content hashes then the block is well-formed. -/

namespace Invoicing

/-! ## Pushes -/

theorem Block.appendNew_eraseDups (old new : List String) :
    appendNew old.eraseDups new = (old ++ new).eraseDups := by
  induction new generalizing old with
  | nil => simp [appendNew]
  | cons t new ih =>
    have hstep : appendNew old.eraseDups (t :: new) =
        appendNew (if old.eraseDups.contains t then old.eraseDups else old.eraseDups ++ [t]) new := rfl
    have honce : (if old.eraseDups.contains t then old.eraseDups else old.eraseDups ++ [t]) =
        (old ++ [t]).eraseDups := by
      rw [eraseDups_append_single]
      simp
    rw [hstep, honce, ih, List.append_assoc, List.singleton_append]

/-- A transaction that is put into a block, with its channel and topics of the channel. -/
structure Push where
  transaction : Transaction
  channel : String
  topics : List String

namespace Push

/-- The channel and the topics are content hashes. -/
structure WellFormed (p : Push) : Prop where
  channel : ContentHash.isWellFormed p.channel = true
  topics : ∀ topic ∈ p.topics, ContentHash.isWellFormed topic = true

instance (p : Push) : Decidable p.WellFormed :=
  decidable_of_iff (ContentHash.isWellFormed p.channel = true ∧ ∀ topic ∈ p.topics, ContentHash.isWellFormed topic = true)
    ⟨fun h => ⟨h.1, h.2⟩, fun h => ⟨h.channel, h.topics⟩⟩

/-- The places of a list at which a channel stands. -/
def indicesOf (channel : String) (ps : List Push) : List Nat :=
  (List.range ps.length).filter fun i => ps[i]?.any fun p => p.channel == channel

/-- The topics that a list gives to a channel, each where it comes for the first time. -/
def topicsOf (channel : String) (ps : List Push) : List String :=
  ((ps.filter fun p => p.channel == channel).flatMap (·.topics)).eraseDups

theorem mem_indicesOf {channel : String} {ps : List Push} {i : Nat} :
    i ∈ indicesOf channel ps ↔ ∃ p, ps[i]? = some p ∧ p.channel = channel := by
  simp only [indicesOf, List.mem_filter, List.mem_range, Option.any_eq_true, beq_iff_eq]
  refine ⟨And.right, fun h => ⟨?_, h⟩⟩
  obtain ⟨p, hp, -⟩ := h
  exact (List.getElem?_eq_some_iff.1 hp).1

theorem indicesOf_append_single (channel : String) (ps : List Push) (p : Push) :
    indicesOf channel (ps ++ [p]) =
      if channel = p.channel then indicesOf channel ps ++ [ps.length] else indicesOf channel ps := by
  have hearlier : ((List.range ps.length).filter fun i => (ps ++ [p])[i]?.any fun p => p.channel == channel) =
      indicesOf channel ps := by
    refine List.filter_congr fun i hi => ?_
    rw [List.getElem?_append_left (List.mem_range.1 hi)]
  rw [indicesOf, List.length_append, List.length_singleton, List.range_succ, List.filter_append, hearlier]
  by_cases h : channel = p.channel
  · simp [h]
  · simp [h, Ne.symm h]

theorem topicsOf_append_single (channel : String) (ps : List Push) (p : Push) :
    topicsOf channel (ps ++ [p]) =
      if channel = p.channel then Block.appendNew (topicsOf channel ps) p.topics else topicsOf channel ps := by
  by_cases h : channel = p.channel
  · simp [topicsOf, h, Block.appendNew_eraseDups]
  · simp [topicsOf, h, Ne.symm h]

theorem topicsOf_eq_nil {channel : String} {ps : List Push} (h : channel ∉ ps.map (·.channel)) :
    topicsOf channel ps = [] := by
  have hnone : (ps.filter fun p => p.channel == channel) = [] := by simpa using h
  rw [topicsOf, hnone]
  rfl

theorem mem_topicsOf {channel topic : String} {ps : List Push} :
    topic ∈ topicsOf channel ps ↔ ∃ p ∈ ps, p.channel = channel ∧ topic ∈ p.topics := by
  simp [topicsOf, and_assoc]

end Push

namespace Block

/-! ## The block of a list -/

/-- Puts all transactions of a list into a block, one after the other. -/
def pushAll (b : Block) (ps : List Push) : Block := ps.foldl (fun b p => b.push p.transaction p.channel p.topics) b

theorem pushAll_append_single (b : Block) (ps : List Push) (p : Push) :
    b.pushAll (ps ++ [p]) = (b.pushAll ps).push p.transaction p.channel p.topics := by
  simp [pushAll]

@[simp] theorem transactions_pushAll (ps : List Push) : (empty.pushAll ps).transactions = ps.map (·.transaction) := by
  induction ps using List.reverseRecOn with
  | nil => rfl
  | append_singleton ps p ih => rw [pushAll_append_single, push, ih, List.map_append, List.map_singleton]

@[simp] theorem version_pushAll (ps : List Push) : (empty.pushAll ps).header.version = BlockHeader.currentVersion := by
  induction ps using List.reverseRecOn with
  | nil => rfl
  | append_singleton ps p ih => rwa [pushAll_append_single, push]

/-- A channel has the positions at which it was pushed, in their order. -/
theorem positions_pushAll (ps : List Push) (channel : String) :
    (empty.pushAll ps).positions channel = (Push.indicesOf channel ps).map Nat.toUInt64 := by
  induction ps using List.reverseRecOn with
  | nil => rfl
  | append_singleton ps p ih =>
    have hlast : (empty.pushAll ps).transactions.length = ps.length := by simp
    rw [positions] at ih
    rw [pushAll_append_single, Push.indicesOf_append_single, positions, push, Dict.get?_insert, hlast]
    by_cases h : channel = p.channel
    · subst h
      rw [if_pos rfl, if_pos rfl, Option.getD_some, ih, List.map_append, List.map_singleton]
    · rw [if_neg h, if_neg h, ih]

/-- A channel that was pushed has the topics that were given with it, each once. -/
theorem topics_pushAll (ps : List Push) (channel : String) :
    (empty.pushAll ps).header.topics.get? channel =
      if channel ∈ ps.map (·.channel) then some (Push.topicsOf channel ps) else none := by
  induction ps using List.reverseRecOn with
  | nil => rfl
  | append_singleton ps p ih =>
    have hearlier : ((empty.pushAll ps).header.topics.get? channel).getD [] = Push.topicsOf channel ps := by
      rw [ih]
      split
      · rfl
      · next hnew => rw [Push.topicsOf_eq_nil hnew, Option.getD_none]
    rw [pushAll_append_single, Push.topicsOf_append_single, push, Dict.get?_insert, List.map_append]
    by_cases h : channel = p.channel
    · subst h
      simp [hearlier]
    · simp [h, ih]

theorem contains_pushAll (ps : List Push) (channel : String) :
    (empty.pushAll ps).header.channels.contains channel = decide (channel ∈ ps.map (·.channel)) := by
  induction ps using List.reverseRecOn with
  | nil => rfl
  | append_singleton ps p ih =>
    rw [Dict.contains] at ih
    rw [pushAll_append_single, Dict.contains, push, Dict.get?_insert, List.map_append]
    by_cases h : channel = p.channel
    · simp [h]
    · simp [h, ih]

/-- Positions are words of 64 bits: they count the transactions of any block that has no more of them. -/
theorem map_toNat_positions_pushAll {ps : List Push} (hcount : ps.length ≤ UInt64.size) (channel : String) :
    ((empty.pushAll ps).positions channel).map UInt64.toNat = Push.indicesOf channel ps := by
  have hfits : ∀ i ∈ Push.indicesOf channel ps, i.toUInt64.toNat = i := by
    intro i hi
    obtain ⟨p, hp, -⟩ := Push.mem_indicesOf.1 hi
    exact UInt64.toNat_ofNat_of_lt' (Nat.lt_of_lt_of_le (List.getElem?_eq_some_iff.1 hp).1 hcount)
  rw [positions_pushAll, List.map_map]
  exact (List.map_congr_left hfits).trans (List.map_id _)

theorem wellFormed_pushAll {ps : List Push} (hcount : ps.length ≤ UInt64.size) (hwell : ∀ p ∈ ps, p.WellFormed) :
    (empty.pushAll ps).WellFormed := by
  have hpositions (channel : String) (i : Nat) :
      (∃ p ∈ (empty.pushAll ps).positions channel, p.toNat = i) ↔ ∃ p, ps[i]? = some p ∧ p.channel = channel := by
    rw [← Push.mem_indicesOf, ← map_toNat_positions_pushAll hcount, List.mem_map]
  constructor
  case version => exact version_pushAll ps
  case channels =>
    intro channel hchannel
    have hpushed : channel ∈ ps.map (·.channel) := by
      rwa [Dict.mem_keys_iff, ← Dict.contains, contains_pushAll, decide_eq_true_eq] at hchannel
    obtain ⟨p, hp, rfl⟩ := List.mem_map.1 hpushed
    exact (hwell p hp).channel
  case topics =>
    intro channel topics htopics topic htopic
    rw [topics_pushAll] at htopics
    split at htopics
    · cases htopics
      obtain ⟨p, hp, -, htopic⟩ := Push.mem_topicsOf.1 htopic
      exact (hwell p hp).topics topic htopic
    · cases htopics
  case inRange =>
    intro channel p hp
    obtain ⟨pushed, hpushed, -⟩ := (hpositions channel p.toNat).1 ⟨p, hp, rfl⟩
    rw [transactions_pushAll, List.length_map]
    exact (List.getElem?_eq_some_iff.1 hpushed).1
  case owned =>
    intro i hi
    rw [transactions_pushAll, List.length_map] at hi
    refine ⟨ps[i].channel, (hpositions _ i).2 ⟨ps[i], List.getElem?_eq_getElem hi, rfl⟩, ?_⟩
    intro channel hchannel
    obtain ⟨p, hp, rfl⟩ := (hpositions channel i).1 hchannel
    exact congrArg Push.channel (List.getElem?_eq_some_iff.1 hp).2.symm
  case tagged =>
    intro channel hchannel
    rw [Dict.mem_keys_iff, topics_pushAll] at hchannel
    rw [contains_pushAll, decide_eq_true_eq]
    by_contra hnew
    simp [hnew] at hchannel

end Block

end Invoicing
