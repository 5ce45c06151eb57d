import Invoicing.Proofs.Block.Building
import Invoicing.Proofs.Json.Wire

set_option autoImplicit false

/-! # Blocks as text

A block that passes its checks is read back from its text (`Block.parse_render`), and so is every block that was built
from well-formed channels and topics (`Block.describes_pushes`). What a block that was read can be relied on for is
`Block.Sound`. -/

namespace Invoicing

/-! ## Reading back -/

instance : LawfulWire Transaction := .ofRecord (fun _ => rfl) (fun _ => rfl) fun _ => rfl

instance : LawfulWire BlockHeader := .ofRecord (fun _ => rfl) (fun _ => rfl) fun _ => rfl

instance : LawfulWire Block := .ofRecord (fun _ => rfl) (fun _ => rfl) fun _ => rfl

namespace Block

/-- The text of a block is read back and put to the checks. -/
theorem parse_render_eq (b : Block) : parse b.render = b.check.map fun _ => b := by
  have hparse : (Wire.parse? b.render : Option Block) = some b := Wire.parse?_render b
  rw [parse, hparse]
  show (b.check >>= fun _ => .ok b) = _
  cases b.check <;> rfl

theorem parse_render {b : Block} (h : b.check = .ok ()) : parse b.render = .ok b := by
  rw [parse_render_eq, h]
  rfl

/-! ## What the checks ensure -/

/-- The channels of the block are content hashes, its positions are within the block, and its topics are given
for its channels. -/
structure Sound (b : Block) : Prop where
  isWellFormed : ∀ channel ∈ b.header.channels.keys, ContentHash.isWellFormed channel = true
  inRange : ∀ channel, ∀ p ∈ b.positions channel, p.toNat < b.transactions.length
  described : ∀ channel ∈ b.header.topics.keys, b.header.channels.contains channel = true

theorem sound_of_check {b : Block} (h : b.check = .ok ()) : b.Sound :=
  have hwell := check_eq_ok.1 h
  ⟨hwell.channels, hwell.inRange, hwell.tagged⟩

theorem check_of_parse {s : String} {b : Block} (h : parse s = .ok b) : b.check = .ok () := by
  unfold parse at h
  split at h
  · cases h
  · next found _ =>
    cases hcheck : found.check with
    | ok =>
      rw [hcheck] at h
      cases h
      exact hcheck
    | error e =>
      rw [hcheck] at h
      cases h

theorem sound_of_parse {s : String} {b : Block} (h : parse s = .ok b) : b.Sound :=
  sound_of_check (check_of_parse h)

/-! ## A single transaction -/

theorem mem_appendNew {old new : List String} {t : String} : t ∈ appendNew old new ↔ t ∈ old ∨ t ∈ new := by
  induction new generalizing old with
  | nil => simp [appendNew]
  | cons x new ih =>
    have hstep : appendNew old (x :: new) = appendNew (if old.contains x then old else old ++ [x]) new := rfl
    rw [hstep, ih, List.mem_cons]
    split
    · next hx =>
      have hmem : x ∈ old := by simpa using hx
      exact ⟨Or.imp_right .inr, fun h => h.elim .inl fun h => h.elim (fun h => .inl (h ▸ hmem)) .inr⟩
    · rw [List.mem_append, List.mem_singleton, or_assoc]

variable (t : Transaction) (channel : String) (topics : List String)

@[simp] theorem channels_push_empty :
    (empty.push t channel topics).header.channels.entries = [(channel, [0])] := rfl

@[simp] theorem topics_push_empty :
    (empty.push t channel topics).header.topics.entries = [(channel, appendNew [] topics)] := rfl

@[simp] theorem transactions_push_empty : (empty.push t channel topics).transactions = [t] := rfl

variable {channel topics}

/-- A block with a single transaction passes all checks. -/
theorem check_push_empty (hchannel : ContentHash.isWellFormed channel = true)
    (htopics : ∀ topic ∈ topics, ContentHash.isWellFormed topic = true) :
    (empty.push t channel topics).check = .ok () := by
  have hwell : (empty.pushAll [⟨t, channel, topics⟩]).WellFormed :=
    wellFormed_pushAll (show 1 ≤ UInt64.size by decide) (List.forall_mem_singleton.2 ⟨hchannel, htopics⟩)
  exact check_eq_ok.2 hwell

/-- A block with a single transaction is read back from its text. -/
theorem parse_render_push_empty (hchannel : ContentHash.isWellFormed channel = true)
    (htopics : ∀ topic ∈ topics, ContentHash.isWellFormed topic = true) :
    parse (empty.push t channel topics).render = .ok (empty.push t channel topics) :=
  parse_render (check_push_empty t hchannel htopics)

/-- The text of a block whose channel is no content hash is refused for that channel. -/
theorem parse_render_malformed (hchannel : ContentHash.isWellFormed channel = false) :
    parse (empty.push t channel topics).render = .error (.invalidChannelId channel) := by
  have hversion : (empty.push t channel topics).checkVersion = .ok () := rfl
  have hchannels : (empty.push t channel topics).checkChannelIds = .error (.invalidChannelId channel) := by
    simp [checkChannelIds, Dict.keys, hchannel]
  rw [parse_render_eq, check, hversion, hchannels]
  rfl

/-! ## An example -/

/-- A transaction with clear data. -/
def trialTransaction : Transaction := ⟨some "data", none, none, none⟩

def trialChannel : String := "010000000000000000000000000000000000000000000000000000000000000001"

def trialTopic : String := "010000000000000000000000000000000000000000000000000000000000000002"

/-- A block with one transaction and one topic. -/
def trial : Block := empty.push trialTransaction trialChannel [trialTopic]

example : parse trial.render = .ok trial := parse_render_push_empty _ rfl (by decide)

/-! ## Blocks that were built -/

/-- **A block tells what was put into it.** A block that was built from pushes with well-formed channels and topics is
read back from its text as it is. It has the transactions in their order; a channel lists the places at which it was
pushed, in ascending order, and the topics that were given with it, each where it came first; and every place belongs
to exactly one channel. A position is a word of 64 bits, so no block has more transactions than there are words. -/
theorem describes_pushes (ps : List Push) (hcount : ps.length ≤ UInt64.size) (hwell : ∀ p ∈ ps, p.WellFormed) :
    let b := empty.pushAll ps
    parse b.render = .ok b ∧
      b.transactions = ps.map (·.transaction) ∧
      (∀ channel, (b.positions channel).map UInt64.toNat = Push.indicesOf channel ps) ∧
      (∀ channel, b.header.topics.get? channel =
        if channel ∈ ps.map (·.channel) then some (Push.topicsOf channel ps) else none) ∧
      ∀ i < b.transactions.length, ∃! channel, ∃ p ∈ b.positions channel, p.toNat = i := by
  intro b
  have hb : b.WellFormed := wellFormed_pushAll hcount hwell
  exact ⟨parse_render (check_eq_ok.2 hb), transactions_pushAll ps, map_toNat_positions_pushAll hcount,
    topics_pushAll ps, hb.owned⟩

def otherTrialChannel : String := "010000000000000000000000000000000000000000000000000000000000000003"

/-- Three pushes to two channels; a topic comes twice in a push, and again in a later one. -/
def trialPushes : List Push :=
  [⟨trialTransaction, trialChannel, [trialTopic, trialTopic]⟩, ⟨trialTransaction, otherTrialChannel, [trialTopic]⟩,
   ⟨⟨none, some "\u0000\"é😀", none, some .empty⟩, trialChannel, [otherTrialChannel, trialTopic]⟩]

theorem describes_trialPushes :
    let b := empty.pushAll trialPushes
    parse b.render = .ok b ∧ (b.positions trialChannel).map UInt64.toNat = [0, 2] ∧
      b.header.topics.get? trialChannel = some [trialTopic, otherTrialChannel] ∧
      ∃! channel, ∃ p ∈ b.positions channel, p.toNat = 1 := by
  obtain ⟨hparse, -, hpositions, htopics, howned⟩ := describes_pushes trialPushes (by decide) (by decide)
  refine ⟨hparse, (hpositions _).trans (by decide), (htopics _).trans (by decide), howned 1 (by decide)⟩

end Block

end Invoicing
