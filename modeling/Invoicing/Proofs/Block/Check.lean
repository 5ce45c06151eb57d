import Invoicing.Block.Check
import Invoicing.Proofs.Effect
import Mathlib.Data.List.Pairwise
import Mathlib.Logic.ExistsUnique
import Mathlib.Tactic.Tauto

set_option autoImplicit false

/-! # What the checks of a block ask for

The checks of a block stop at the first thing that is wrong. A block passes all of them exactly if it is well-formed
(`Block.check_eq_ok`), which says nothing of the order in which they are made. -/

namespace Invoicing.Block

/-- A block whose header describes its transactions: every one of them belongs to one channel, which may list it
more than once. -/
structure WellFormed (b : Block) : Prop where
  version : b.header.version = BlockHeader.currentVersion
  channels : ∀ channel ∈ b.header.channels.keys, ContentHash.isWellFormed channel = true
  topics : ∀ channel topics, b.header.topics.get? channel = some topics →
    ∀ topic ∈ topics, ContentHash.isWellFormed topic = true
  inRange : ∀ channel, ∀ p ∈ b.positions channel, p.toNat < b.transactions.length
  owned : ∀ i < b.transactions.length, ∃! channel, ∃ p ∈ b.positions channel, p.toNat = i
  tagged : ∀ channel ∈ b.header.topics.keys, b.header.channels.contains channel = true

/-! ## Claims -/

theorem mem_claims_iff {b : Block} {channel : String} {p : Position} :
    (channel, p) ∈ b.claims ↔ p ∈ b.positions channel := by
  simp only [claims, List.mem_flatMap, List.mem_map, Prod.mk.injEq, positions]
  constructor
  · rintro ⟨⟨_, positions⟩, hentry, _, hp, rfl, rfl⟩
    rwa [Dict.get?_eq_some_iff.2 hentry, Option.getD_some]
  · intro hp
    cases hget : b.header.channels.get? channel with
    | none => simp [hget] at hp
    | some positions =>
      rw [hget, Option.getD_some] at hp
      exact ⟨(channel, positions), Dict.get?_eq_some_iff.1 hget, p, hp, rfl, rfl⟩

/-- Claims pass if they are in range, agree with the owners known so far and agree with each other. -/
theorem checkClaims_eq_ok {count : Nat} {owners : List (Position × String)} {claims : List (String × Position)} :
    checkClaims count owners claims = .ok () ↔
      (∀ claim ∈ claims, claim.2.toNat < count) ∧
      (∀ claim ∈ claims, ∀ owner, owners.lookup claim.2 = some owner → owner = claim.1) ∧
      claims.Pairwise fun claim claim' => claim.2 = claim'.2 → claim.1 = claim'.1 := by
  induction claims generalizing owners with
  | nil => simp [checkClaims]
  | cons claim claims ih =>
    obtain ⟨channel, p⟩ := claim
    rw [checkClaims, List.forall_mem_cons, List.forall_mem_cons, List.pairwise_cons]
    by_cases hlt : p.toNat < count
    · rw [if_pos hlt]
      cases howner : owners.lookup p with
      | none =>
        -- The channel becomes the owner of the position, so the rest has to agree with it.
        have hknown : (∀ claim ∈ claims, ∀ owner, ((p, channel) :: owners).lookup claim.2 = some owner →
            owner = claim.1) ↔
            (∀ claim ∈ claims, ∀ owner, owners.lookup claim.2 = some owner → owner = claim.1) ∧
              ∀ claim ∈ claims, p = claim.2 → channel = claim.1 := by
          rw [← forall₂_and]
          refine forall₂_congr fun claim _ => ?_
          by_cases hp : claim.2 = p
          · simp [hp, howner]
          · simp [Dict.lookup_cons, hp, Ne.symm hp]
        rw [ih, hknown]
        tauto
      | some owner =>
        by_cases hsame : owner = channel
        · subst hsame
          simp only [if_true, ih]
          refine ⟨fun ⟨hrange, hknown, hagree⟩ => ⟨⟨hlt, hrange⟩, ⟨by simp, hknown⟩, ?_, hagree⟩,
            fun ⟨⟨_, hrange⟩, ⟨_, hknown⟩, _, hagree⟩ => ⟨hrange, hknown, hagree⟩⟩
          rintro claim hclaim rfl
          exact hknown claim hclaim owner howner
        · simp only [if_neg hsame]
          exact ⟨nofun, fun ⟨_, ⟨hknown, _⟩, _⟩ => absurd (hknown owner rfl) hsame⟩
    · rw [if_neg hlt]
      exact ⟨nofun, fun ⟨⟨hrange, _⟩, _⟩ => absurd hrange hlt⟩

/-- The claims of a block pass if they are in range and no position belongs to two channels. -/
theorem checkClaims_claims_eq_ok {b : Block} :
    checkClaims b.transactions.length [] b.claims = .ok () ↔
      (∀ channel, ∀ p ∈ b.positions channel, p.toNat < b.transactions.length) ∧
        ∀ channel channel' p, p ∈ b.positions channel → p ∈ b.positions channel' → channel = channel' := by
  rw [checkClaims_eq_ok]
  simp only [List.lookup_nil, reduceCtorEq, false_implies, implies_true, true_and, Prod.forall, mem_claims_iff]
  refine and_congr_right fun _ => ⟨fun hagree channel channel' p hp hp' => ?_, fun hagree => ?_⟩
  · have hsymm : Std.Symm fun claim claim' : String × Position => claim.2 = claim'.2 → claim.1 = claim'.1 :=
      ⟨fun _ _ h he => (h he.symm).symm⟩
    exact hagree.forall_of_forall (fun _ _ _ => rfl) (mem_claims_iff.2 hp) (mem_claims_iff.2 hp') rfl
  · refine List.pairwise_of_forall_mem_list ?_
    rintro ⟨channel, p⟩ hp ⟨channel', _⟩ hp' rfl
    exact hagree channel channel' p (mem_claims_iff.1 hp) (mem_claims_iff.1 hp')

/-! ## All checks -/

theorem checkVersion_eq_ok {b : Block} :
    b.checkVersion = .ok () ↔ b.header.version = BlockHeader.currentVersion := by
  simp [checkVersion]

theorem checkChannelIds_eq_ok {b : Block} :
    b.checkChannelIds = .ok () ↔ ∀ channel ∈ b.header.channels.keys, ContentHash.isWellFormed channel = true := by
  have hfind : b.checkChannelIds = .ok () ↔
      b.header.channels.keys.find? (fun channel => !ContentHash.isWellFormed channel) = none := by
    unfold checkChannelIds
    split <;> simp [*]
  simp [hfind]

theorem checkTopics_eq_ok {b : Block} :
    b.checkTopics = .ok () ↔ ∀ channel topics, b.header.topics.get? channel = some topics →
      ∀ topic ∈ topics, ContentHash.isWellFormed topic = true := by
  have hfind : b.checkTopics = .ok () ↔
      (b.header.topics.entries.flatMap fun entry => entry.2.map fun t => (entry.1, t)).find?
        (fun tag => !ContentHash.isWellFormed tag.2) = none := by
    unfold checkTopics
    dsimp only
    split
    · next hsome => exact iff_of_false (by simp) fun hnone => Option.some_ne_none _ (hsome.symm.trans hnone)
    · next hnone => exact iff_of_true rfl hnone
  rw [hfind, List.find?_eq_none]
  simp only [Dict.get?_eq_some_iff, List.mem_flatMap, List.mem_map]
  constructor
  · intro h channel topics hentry topic htopic
    simpa using h (channel, topic) ⟨(channel, topics), hentry, topic, htopic, rfl⟩
  · rintro h _ ⟨⟨channel, topics⟩, hentry, topic, htopic, rfl⟩
    simpa using h channel topics hentry topic htopic

theorem checkDescribed_eq_ok {b : Block} :
    b.checkDescribed = .ok () ↔ ∀ i < b.transactions.length, ∃ channel, ∃ p ∈ b.positions channel, p.toNat = i := by
  have hfind : b.checkDescribed = .ok () ↔
      (List.range b.transactions.length).find? (fun i => !b.claims.any fun claim => claim.2.toNat == i) = none := by
    unfold checkDescribed
    split
    · next hsome => exact iff_of_false (by simp) fun hnone => Option.some_ne_none _ (hsome.symm.trans hnone)
    · next hnone => exact iff_of_true rfl hnone
  simp [hfind, mem_claims_iff]

theorem checkTopicChannels_eq_ok {b : Block} :
    b.checkTopicChannels = .ok () ↔ ∀ channel ∈ b.header.topics.keys, b.header.channels.contains channel = true := by
  have hfind : b.checkTopicChannels = .ok () ↔
      b.header.topics.keys.find? (fun channel => !b.header.channels.contains channel) = none := by
    unfold checkTopicChannels
    split <;> simp [*]
  simp [hfind]

/-- **What the checks ask for.** A block passes all checks exactly if it is well-formed. -/
theorem check_eq_ok {b : Block} : b.check = .ok () ↔ b.WellFormed := by
  have hchecks : b.check = .ok () ↔ b.checkVersion = .ok () ∧ b.checkChannelIds = .ok () ∧
      b.checkTopics = .ok () ∧ checkClaims b.transactions.length [] b.claims = .ok () ∧
      b.checkDescribed = .ok () ∧ b.checkTopicChannels = .ok () := by
    simp only [check, Effect.bind_eq_ok]
    exact ⟨fun ⟨_, h₁, _, h₂, _, h₃, _, h₄, _, h₅, h₆⟩ => ⟨h₁, h₂, h₃, h₄, h₅, h₆⟩,
      fun ⟨h₁, h₂, h₃, h₄, h₅, h₆⟩ => ⟨(), h₁, (), h₂, (), h₃, (), h₄, (), h₅, h₆⟩⟩
  rw [hchecks, checkVersion_eq_ok, checkChannelIds_eq_ok, checkTopics_eq_ok, checkClaims_claims_eq_ok,
    checkDescribed_eq_ok, checkTopicChannels_eq_ok]
  constructor
  · rintro ⟨hversion, hchannels, htopics, ⟨hrange, hagree⟩, hdescribed, htagged⟩
    refine ⟨hversion, hchannels, htopics, hrange, fun i hi => ?_, htagged⟩
    obtain ⟨channel, p, hp, rfl⟩ := hdescribed i hi
    refine ⟨channel, ⟨p, hp, rfl⟩, ?_⟩
    rintro channel' ⟨p', hp', hsame⟩
    obtain rfl := UInt64.toNat_inj.1 hsame
    exact hagree channel' channel p' hp' hp
  · intro h
    refine ⟨h.version, h.channels, h.topics, ⟨h.inRange, fun channel channel' p hp hp' => ?_⟩,
      fun i hi => (h.owned i hi).exists, h.tagged⟩
    exact (h.owned p.toNat (h.inRange channel p hp)).unique ⟨p, hp, rfl⟩ ⟨p, hp', rfl⟩

end Invoicing.Block
