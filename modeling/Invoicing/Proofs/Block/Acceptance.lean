import Invoicing.Proofs.Block

set_option autoImplicit false

/-! # Which texts are blocks

A text is accepted exactly if it is the JSON of a block whose header describes its transactions (`Block.accepted_iff`).
A block that is refused is refused with an error that is true of it (`Block.holds_of_check`), so no error blames a block
that is well-formed. What the header of an accepted block tags with topics is a channel with a transaction exactly if it
lists a position for the channel (`Block.owns_iff`). -/

namespace Invoicing

/-! ## Content hashes -/

/-- The mark, and after it 64 digits that are none in upper case. -/
def ContentHash.Spelled (s : String) : Prop :=
  ∃ digits : List Char, s.toList = '0' :: '1' :: digits ∧ digits.length = 64 ∧
    ∀ c ∈ digits, ('0' ≤ c ∧ c ≤ '9') ∨ ('a' ≤ c ∧ c ≤ 'f')

theorem ContentHash.isWellFormed_iff {s : String} : isWellFormed s = true ↔ Spelled s := by
  have hall (digits : List Char) : digits.all Hex.isLowerDigit = true ↔
      ∀ c ∈ digits, ('0' ≤ c ∧ c ≤ '9') ∨ ('a' ≤ c ∧ c ≤ 'f') := by
    simp [Hex.isLowerDigit, List.all_eq_true]
  unfold isWellFormed
  split
  · next digits hs => simp [Spelled, hs, hall]
  · next hs => exact ⟨nofun, fun ⟨digits, hdigits, _⟩ => absurd hdigits (hs digits)⟩

/-! ## What an error says -/

/-- What an error says of a block is so. -/
def BlockError.Holds (b : Block) : BlockError → Prop
  | invalidStructure => False
  | unsupportedVersion version => b.header.version = version ∧ version ≠ BlockHeader.currentVersion
  | invalidChannelId channel => channel ∈ b.header.channels.keys ∧ ContentHash.isWellFormed channel = false
  | invalidTopic channel topic => ∃ topics, b.header.topics.get? channel = some topics ∧ topic ∈ topics ∧
      ContentHash.isWellFormed topic = false
  | positionOutOfRange channel p count => p ∈ b.positions channel ∧ count = b.transactions.length ∧ count ≤ p.toNat
  | duplicatePosition p => ∃ channel channel', channel ≠ channel' ∧ p ∈ b.positions channel ∧ p ∈ b.positions channel'
  | undescribedTransaction i => i < b.transactions.length ∧ ∀ channel, ∀ p ∈ b.positions channel, p.toNat ≠ i
  | topicsForUnknownChannel channel => channel ∈ b.header.topics.keys ∧ channel ∉ b.header.channels.keys

namespace Block

theorem contains_iff_mem_keys {b : Block} {channel : String} :
    b.header.channels.contains channel = true ↔ channel ∈ b.header.channels.keys := Dict.mem_keys_iff.symm

/-- No error is true of a well-formed block. -/
theorem WellFormed.not_holds {b : Block} (h : b.WellFormed) (e : BlockError) : ¬ e.Holds b := by
  intro he
  cases e with
  | invalidStructure => exact he
  | unsupportedVersion version => exact he.2 (he.1 ▸ h.version)
  | invalidChannelId channel => exact Bool.false_ne_true (he.2.symm.trans (h.channels channel he.1))
  | invalidTopic channel topic =>
    obtain ⟨topics, htopics, htopic, hmalformed⟩ := he
    exact Bool.false_ne_true (hmalformed.symm.trans (h.topics channel topics htopics topic htopic))
  | positionOutOfRange channel p count =>
    obtain ⟨hp, rfl, hcount⟩ := he
    exact Nat.not_lt.2 hcount (h.inRange channel p hp)
  | duplicatePosition p =>
    obtain ⟨channel, channel', hne, hp, hp'⟩ := he
    exact hne ((h.owned p.toNat (h.inRange channel p hp)).unique ⟨p, hp, rfl⟩ ⟨p, hp', rfl⟩)
  | undescribedTransaction i =>
    obtain ⟨channel, p, hp, hi⟩ := (h.owned i he.1).exists
    exact he.2 channel p hp hi
  | topicsForUnknownChannel channel => exact he.2 (contains_iff_mem_keys.1 (h.tagged channel he.1))

/-- Claims that are refused are refused for a reason, as long as every known owner lists its position. -/
theorem holds_of_checkClaims {b : Block} {e : BlockError} {owners : List (Position × String)}
    {claims : List (String × Position)} (howners : ∀ p owner, owners.lookup p = some owner → p ∈ b.positions owner)
    (hclaims : ∀ claim ∈ claims, claim.2 ∈ b.positions claim.1)
    (h : checkClaims b.transactions.length owners claims = .error e) : e.Holds b := by
  induction claims generalizing owners with
  | nil => cases h
  | cons claim claims ih =>
    obtain ⟨channel, p⟩ := claim
    obtain ⟨hp, hrest⟩ := List.forall_mem_cons.1 hclaims
    rw [checkClaims] at h
    by_cases hlt : p.toNat < b.transactions.length
    · rw [if_pos hlt] at h
      cases howner : owners.lookup p with
      | none =>
        rw [howner] at h
        refine ih (fun p' owner hlookup => ?_) hrest h
        rw [Dict.lookup_cons] at hlookup
        split at hlookup
        · next hsame => cases hlookup; exact hsame ▸ hp
        · exact howners p' owner hlookup
      | some owner =>
        simp only [howner] at h
        split at h
        · exact ih howners hrest h
        · next hne => cases h; exact ⟨owner, channel, hne, howners p owner howner, hp⟩
    · rw [if_neg hlt] at h
      cases h
      exact ⟨hp, rfl, Nat.not_lt.1 hlt⟩

theorem holds_of_checkVersion {b : Block} {e : BlockError} (h : b.checkVersion = .error e) : e.Holds b := by
  unfold checkVersion at h
  split at h
  · cases h
  · next hversion => cases h; exact ⟨rfl, hversion⟩

theorem holds_of_checkChannelIds {b : Block} {e : BlockError} (h : b.checkChannelIds = .error e) : e.Holds b := by
  unfold checkChannelIds at h
  split at h
  · next channel hfind =>
    cases h
    exact ⟨List.mem_of_find?_eq_some hfind, by simpa using List.find?_some hfind⟩
  · cases h

theorem holds_of_checkTopics {b : Block} {e : BlockError} (h : b.checkTopics = .error e) : e.Holds b := by
  unfold checkTopics at h
  dsimp only at h
  split at h
  · next channel topic hfind =>
    cases h
    obtain ⟨⟨_, topics⟩, hentry, htopic⟩ := List.mem_flatMap.1 (List.mem_of_find?_eq_some hfind)
    obtain ⟨_, htopic, hsame⟩ := List.mem_map.1 htopic
    cases hsame
    exact ⟨topics, Dict.get?_eq_some_iff.2 hentry, htopic, by simpa using List.find?_some hfind⟩
  · cases h

theorem holds_of_checkDescribed {b : Block} {e : BlockError} (h : b.checkDescribed = .error e) : e.Holds b := by
  unfold checkDescribed at h
  split at h
  · next i hfind =>
    cases h
    refine ⟨List.mem_range.1 (List.mem_of_find?_eq_some hfind), fun channel p hp hi => ?_⟩
    have hnone : ∀ claim ∈ b.claims, claim.2.toNat ≠ i := by simpa using List.find?_some hfind
    exact hnone (channel, p) (mem_claims_iff.2 hp) hi
  · cases h

theorem holds_of_checkTopicChannels {b : Block} {e : BlockError} (h : b.checkTopicChannels = .error e) :
    e.Holds b := by
  unfold checkTopicChannels at h
  split at h
  · next channel hfind =>
    cases h
    refine ⟨List.mem_of_find?_eq_some hfind, fun hmem => ?_⟩
    have habsent : b.header.channels.contains channel = false := by simpa using List.find?_some hfind
    exact Bool.false_ne_true (habsent.symm.trans (contains_iff_mem_keys.2 hmem))
  · cases h

/-- A block is refused for something that is wrong with it. -/
theorem holds_of_check {b : Block} {e : BlockError} (h : b.check = .error e) : e.Holds b := by
  have hclaims : checkClaims b.transactions.length [] b.claims = .error e → e.Holds b :=
    holds_of_checkClaims nofun fun _ => mem_claims_iff.1
  -- The error is that of the first check that fails.
  obtain h | ⟨_, -, h⟩ := Effect.bind_eq_error.1 h
  · exact holds_of_checkVersion h
  obtain h | ⟨_, -, h⟩ := Effect.bind_eq_error.1 h
  · exact holds_of_checkChannelIds h
  obtain h | ⟨_, -, h⟩ := Effect.bind_eq_error.1 h
  · exact holds_of_checkTopics h
  obtain h | ⟨_, -, h⟩ := Effect.bind_eq_error.1 h
  · exact hclaims h
  obtain h | ⟨_, -, h⟩ := Effect.bind_eq_error.1 h
  · exact holds_of_checkDescribed h
  · exact holds_of_checkTopicChannels h

/-! ## Texts -/

theorem parse_of_json {text : String} {b : Block} (h : Wire.parse? text = some b) :
    parse text = b.check.map fun _ => b := by
  rw [parse, h]
  show (b.check >>= fun _ => .ok b) = _
  cases b.check <;> rfl

theorem parse_of_no_json {text : String} (h : (Wire.parse? text : Option Block) = none) :
    parse text = .error .invalidStructure := by rw [parse, h]

theorem parse_eq_ok_iff {text : String} {b : Block} :
    parse text = .ok b ↔ Wire.parse? text = some b ∧ b.check = .ok () := by
  cases hjson : (Wire.parse? text : Option Block) with
  | none => simp [parse_of_no_json hjson]
  | some found =>
    rw [parse_of_json hjson, Option.some.injEq]
    cases hcheck : found.check with
    | error e =>
      refine ⟨nofun, ?_⟩
      rintro ⟨rfl, hok⟩
      cases hcheck.symm.trans hok
    | ok => exact ⟨fun h => ⟨Except.ok.inj h, Except.ok.inj h ▸ hcheck⟩, fun h => congrArg Except.ok h.1⟩

/-- A text is refused because it has not the shape of a block, or for something that is wrong with the block that it
spells. -/
theorem error_of_parse {text : String} {e : BlockError} (h : parse text = .error e) :
    (Wire.parse? text : Option Block) = none ∧ e = .invalidStructure ∨
      ∃ b : Block, Wire.parse? text = some b ∧ b.check = .error e ∧ e.Holds b := by
  cases hjson : (Wire.parse? text : Option Block) with
  | none => exact .inl ⟨rfl, (Except.error.inj ((parse_of_no_json hjson).symm.trans h)).symm⟩
  | some b =>
    rw [parse_of_json hjson] at h
    cases hcheck : b.check with
    | ok => rw [hcheck] at h; cases h
    | error e' =>
      rw [hcheck] at h
      cases h
      exact .inr ⟨b, rfl, hcheck, holds_of_check hcheck⟩

/-- **Which blocks are accepted.** A block passes its checks exactly if it has the current version, its channel ids and
topics are content hashes, every position that is listed is within the block, every transaction is listed by exactly one
channel, and topics are given for channels of the block only. A text is accepted as a block exactly if it is the JSON of
that block and the block is such, and the text under which a block is stored is one of these texts. -/
theorem accepted_iff (b : Block) :
    let described :=
      b.header.version = "0.1.0" ∧
      (∀ channel ∈ b.header.channels.keys, ContentHash.Spelled channel) ∧
      (∀ channel topics, b.header.topics.get? channel = some topics → ∀ topic ∈ topics, ContentHash.Spelled topic) ∧
      (∀ channel, ∀ p ∈ b.positions channel, p.toNat < b.transactions.length) ∧
      (∀ i < b.transactions.length, ∃! channel, ∃ p ∈ b.positions channel, p.toNat = i) ∧
      ∀ channel ∈ b.header.topics.keys, channel ∈ b.header.channels.keys
    (b.check = .ok () ↔ described) ∧
      (∀ text, parse text = .ok b ↔ Wire.parse? text = some b ∧ described) ∧
      (parse b.render = .ok b ↔ described) := by
  intro described
  have hcheck : b.check = .ok () ↔ described := by
    simp only [check_eq_ok, described, ← ContentHash.isWellFormed_iff]
    constructor
    · intro h
      exact ⟨h.version, h.channels, h.topics, h.inRange, h.owned,
        fun channel hchannel => contains_iff_mem_keys.1 (h.tagged channel hchannel)⟩
    · rintro ⟨hversion, hchannels, htopics, hrange, howned, htagged⟩
      exact ⟨hversion, hchannels, htopics, hrange, howned,
        fun channel hchannel => contains_iff_mem_keys.2 (htagged channel hchannel)⟩
  have hparse (text : String) : parse text = .ok b ↔ Wire.parse? text = some b ∧ described := by
    rw [parse_eq_ok_iff, hcheck]
  have hrender : (Wire.parse? b.render : Option Block) = some b := Wire.parse?_render b
  exact ⟨hcheck, hparse, (hparse b.render).trans (and_iff_right hrender)⟩

/-! ## Channels with topics -/

/-- A channel owns a transaction of the block. -/
def Owns (b : Block) (channel : String) : Prop := ∃ p ∈ b.positions channel, ∃ t, b.transactions[p.toNat]? = some t

/-- Every channel that the block has a topic for owns a transaction of the block. -/
def TagsOwners (b : Block) : Prop :=
  ∀ channel topics, b.header.topics.get? channel = some topics → topics ≠ [] → b.Owns channel

/-- No position leads out of the block, so a channel owns a transaction as soon as it has a position. -/
theorem Sound.owns_iff {b : Block} (h : b.Sound) {channel : String} : b.Owns channel ↔ b.positions channel ≠ [] := by
  constructor
  · rintro ⟨p, hp, -⟩
    exact List.ne_nil_of_mem hp
  · intro hne
    obtain ⟨p, hp⟩ := List.exists_mem_of_ne_nil _ hne
    exact ⟨p, hp, _, List.getElem?_eq_getElem (h.inRange channel p hp)⟩

/-- A block with a single transaction tags the channel of this transaction alone. -/
theorem tagsOwners_push_empty (t : Transaction) (channel : String) (topics : List String) :
    (empty.push t channel topics).TagsOwners := by
  intro c tags htags _
  have hmem := Dict.get?_eq_some_iff.1 htags
  rw [topics_push_empty, List.mem_singleton] at hmem
  cases hmem
  have hget : (empty.push t channel topics).header.channels.get? channel = some [0] :=
    Dict.get?_eq_some_iff.2 (by rw [channels_push_empty]; exact List.mem_singleton_self _)
  refine ⟨0, ?_, t, rfl⟩
  rw [positions, hget]
  exact List.mem_singleton_self _

/-- A block without transactions, with a topic for a channel that has no position. -/
def hollow : Block where
  header := ⟨.ofList [(trialChannel, [])], .ofList [(trialChannel, [trialTopic])], BlockHeader.currentVersion⟩
  transactions := []

/-- What is tested is that the header lists the channel, so a channel with a topic need not own a transaction. -/
theorem not_tagsOwners_hollow : parse hollow.render = .ok hollow ∧ ¬ hollow.TagsOwners := by
  refine ⟨parse_render rfl, fun howns => ?_⟩
  obtain ⟨p, hp, -⟩ := howns trialChannel [trialTopic] rfl (List.cons_ne_nil _ _)
  exact List.not_mem_nil hp

end Block

end Invoicing
