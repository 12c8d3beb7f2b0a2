import DoubleRatchet.Proofs.Group.Broadcast

/-! Delivery to a group. A member that has been given a chain reads each message of it that can still be read when it is
delivered, whatever the order of the messages, and although it is given further chains: it keeps the latest five. -/
namespace DoubleRatchet

open DoubleRatchet.Group

/-- How far a member has come on a chain that it was given from message `start` on, after messages with the numbers
given, the latest first. -/
def heard (start : Nat) : List UInt32 → Progress
  | [] => { index := start }
  | n :: earlier => (heard start earlier).read n.toNat

theorem le_heard (start : Nat) (reads : List UInt32) : start ≤ (heard start reads).index := by
  induction reads with
  | nil => exact Nat.le_refl start
  | cons n earlier ih => exact Nat.le_trans ih Progress.index_le_read

theorem heard_sound {start : Nat} {reads : List UInt32} (begins : start < UInt32.size)
    (bounded : ∀ n ∈ reads, n.toNat + 1 < UInt32.size) : (heard start reads).Sound := by
  induction reads with
  | nil => exact .begun begins
  | cons n earlier ih =>
    exact Progress.read_sound (ih fun m member => bounded m (List.mem_cons_of_mem _ member)) (bounded n List.mem_cons_self)

theorem heard_covers (start : Nat) (reads : List UInt32) : ∀ m < (heard start reads).index,
    m ∈ (heard start reads).kept ∨ m ∈ (heard start reads).lost ∨ m < start ∨ ∃ n ∈ reads, n.toNat = m := by
  induction reads with
  | nil => exact fun m lt => .inr (.inr (.inl lt))
  | cons n earlier ih =>
    refine Progress.read_covers (fun m lt => ?_) (.inr ⟨n, List.mem_cons_self, rfl⟩)
    refine (ih m lt).imp_right (Or.imp_right (Or.imp_right ?_))
    rintro ⟨earlier_read, member, same⟩
    exact ⟨earlier_read, List.mem_cons_of_mem _ member, same⟩

namespace Broadcast

/-- The chain that an event gives to the member. -/
def Event.given? : Event → Option KeyDistribution
  | .process message => some message
  | _ => none

/-- The member keeps the sender's chain as the messages that it has read left it, and no more than `count` others have
been given to it since. -/
structure Hears (b : Broadcast) (c : SenderChain) (count : Nat) : Prop where
  record : ∃ before after, b.record.states = before ++ c.state (heard c.first b.reads) :: after ∧
    (∀ other ∈ before, other.keyId ≠ c.keyId) ∧ after.length ≤ count
  read : ∀ n ∈ b.reads, ∃ place ∈ b.delivered, place < b.sent.length ∧ n.toNat = c.first + place

namespace Hears

variable {b : Broadcast} {c : SenderChain} {count : Nat}

theorem sound (hears : b.Hears c count) (speaks : b.Speaks c) : (heard c.first b.reads).Sound := by
  have bound := speaks.bound
  refine heard_sound (by omega) fun n member => ?_
  obtain ⟨place, _, placed, number⟩ := hears.read n member
  omega

/-- What the sender does leaves the member as it is. -/
theorem of_member {b' : Broadcast} (hears : b.Hears c count) (record : b'.record = b.record) (reads : b'.reads = b.reads)
    (delivered : b'.delivered = b.delivered) (sent : b.sent.length ≤ b'.sent.length) : b'.Hears c count where
  record := by
    rw [record, reads]
    exact hears.record
  read n member := by
    obtain ⟨place, was_delivered, placed, number⟩ := hears.read n (reads ▸ member)
    exact ⟨place, delivered ▸ was_delivered, Nat.lt_of_lt_of_le placed sent, number⟩

theorem send (hears : b.Hears c count) (plaintext : Bytes) : (b.send plaintext).Hears c count :=
  hears.of_member rfl rfl rfl (b.length_sent_le_send plaintext)

theorem deliver (hears : b.Hears c count) (speaks : b.Speaks c) (place : Nat) : (b.deliver place).Hears c count := by
  unfold Broadcast.deliver
  cases found : b.sent[place]? with
  | none => exact hears
  | some post =>
    have placed : place < b.sent.length := (List.getElem?_eq_some_iff.mp found).1
    have bound := speaks.bound
    obtain ⟨wrote, sendable⟩ := speaks.wrote place post found
    obtain ⟨before, after, states, others, few⟩ := hears.record
    have sound := hears.sound speaks
    have received := receive_post wrote sendable states others
    have earlier : ∀ n ∈ b.reads, ∃ p ∈ place :: b.delivered, p < b.sent.length ∧ n.toNat = c.first + p := by
      intro n member
      obtain ⟨p, was_delivered, rest⟩ := hears.read n member
      exact ⟨p, List.mem_cons_of_mem _ was_delivered, rest⟩
    dsimp only
    rcases b.accept_cases place post with ⟨plaintext, stores, run, record, reads⟩ | ⟨record, reads⟩
    · obtain ⟨⟨text, state⟩, read, made⟩ := bind_eq_ok.mp (received.symm.trans run)
      cases made
      cases wrote.of_read sound (le_heard _ _) (by omega) read
      have number := wrote.iteration_toNat (by omega)
      refine ⟨⟨before, after, ?_, others, few⟩, fun n member => ?_⟩
      · rw [record, reads, Stores.senderKey_withSenderKey, heard, number]
      · rw [reads] at member
        rcases List.mem_cons.mp member with rfl | old
        · exact ⟨place, List.mem_cons_self, placed, number⟩
        · exact earlier n old
    · refine ⟨⟨before, after, ?_, others, few⟩, fun n member => earlier n (reads ▸ member)⟩
      rw [record, reads]
      exact states

/-- Of the chains given after it, one more than those so far. -/
theorem process (hears : b.Hears c count) (room : count + 1 < maxStates) (message : KeyDistribution) :
    (b.process message).Hears c (count + 1) := by
  obtain ⟨before, after, states, others, few⟩ := hears.record
  rcases b.process_record message with ⟨state, -, record⟩ | ⟨-, record⟩
  · obtain ⟨before', suffix, states'⟩ := SenderKeyRecord.push_keeps states (by omega) state
    refine ⟨⟨before', after ++ [state], record ▸ states', fun other member => ?_, ?_⟩, hears.read⟩
    · exact others other (suffix.mem member)
    · rw [List.length_append]
      exact Nat.succ_le_succ few
  · exact ⟨⟨before, after, record ▸ states, others, Nat.le_succ_of_le few⟩, hears.read⟩

theorem receive (hears : b.Hears c count) {bytes : Bytes} (possible : (Event.receive bytes).Possible c.keyId) :
    (b.receive bytes).Hears c count := by
  obtain ⟨before, after, states, others, few⟩ := hears.record
  rcases b.receive_record bytes with ⟨message, before', state, after', state', parsed, states', number, number', record⟩ | record
  · have foreign : state'.keyId ≠ c.keyId := fun same => possible message parsed (number'.symm.trans same)
    have differs : c.state (heard c.first b.reads) ≠ state := by
      rintro rfl
      exact possible message parsed number.symm
    -- The chain that reads is another than the sender's, and stands before or after it.
    rcases SenderKeyRecord.append_cons_eq_append_cons (states.symm.trans states') differs with
      ⟨between, rfl, rfl⟩ | ⟨between, rfl, rfl⟩
    · refine ⟨⟨before' ++ state' :: between, after, ?_, fun other member => ?_, few⟩, hears.read⟩
      · rw [record, List.append_assoc, List.cons_append]
        rfl
      · rcases SenderKeyRecord.mem_of_replaced member with rfl | old
        · exact foreign
        · exact others other old
    · refine ⟨⟨before, between ++ state' :: after', ?_, others, ?_⟩, hears.read⟩
      · rw [record, List.append_assoc, List.cons_append]
        rfl
      · rw [List.length_append, List.length_cons] at few ⊢
        exact few
  · exact hears.of_member record rfl rfl (Nat.le_refl _)

theorem step (hears : b.Hears c count) (speaks : b.Speaks c) {event : Event} (possible : event.Possible c.keyId)
    (room : count + (Event.given? event).toList.length < maxStates) :
    (b.step event).Hears c (count + (Event.given? event).toList.length) := by
  cases event with
  | send plaintext => exact hears.send plaintext
  | distribute => exact hears.of_member rfl rfl rfl (Nat.le_refl _)
  | deliver place => exact hears.deliver speaks place
  | process message => exact hears.process room message
  | receive bytes => exact hears.receive possible

theorem run (hears : b.Hears c count) (speaks : b.Speaks c) (events : List Event)
    (possible : ∀ event ∈ events, event.Possible c.keyId) (room : count + (events.filterMap Event.given?).length < maxStates) :
    (b.run events).Speaks c ∧ (b.run events).Hears c (count + (events.filterMap Event.given?).length) := by
  induction events generalizing b count with
  | nil => exact ⟨speaks, hears⟩
  | cons event rest ih =>
    have split : ((event :: rest).filterMap Event.given?).length =
        (Event.given? event).toList.length + (rest.filterMap Event.given?).length := by
      rw [List.filterMap_cons]
      cases Event.given? event with
      | none => exact (Nat.zero_add _).symm
      | some message => exact Nat.add_comm _ 1
    -- The chains given by the first event use up their part of the room, and the rest is for those that follow.
    rw [split, ← Nat.add_assoc] at room ⊢
    have first := possible event List.mem_cons_self
    have now := hears.step speaks first (Nat.lt_of_le_of_lt (Nat.le_add_right _ _) room)
    exact ih now (speaks.step first)
      (fun later member => possible later (List.mem_cons_of_mem _ member)) room

end Hears

theorem Opens.hears {b : Broadcast} {c : SenderChain} (opens : b.Opens (c.distribution c.first)) :
    (b.process (c.distribution c.first)).Hears c 0 := by
  have reads : (b.process (c.distribution c.first)).reads = [] := opens.reads
  obtain ⟨before, states, others⟩ := opens.given
  constructor
  · rw [reads]
    exact ⟨before, [], states, others, Nat.le_refl 0⟩
  · rw [reads]
    exact nofun

/-- The key of a message that has not been delivered has been kept, or lost, or is still ahead. -/
theorem Hears.reachable {b : Broadcast} {c : SenderChain} {count : Nat} (hears : b.Hears c count) {place : Nat}
    (undelivered : place ∉ b.delivered) (near : c.first + place ≤ (heard c.first b.reads).index + Group.maxSkip)
    (unlost : c.first + place < (heard c.first b.reads).index → c.first + place ∉ (heard c.first b.reads).lost) :
    c.first + place ∈ (heard c.first b.reads).kept ∨
      (heard c.first b.reads).index ≤ c.first + place ∧ c.first + place ≤ (heard c.first b.reads).index + Group.maxSkip := by
  by_cases behind : c.first + place < (heard c.first b.reads).index
  · rcases heard_covers _ _ _ behind with kept | lost | before | ⟨n, member, number⟩
    · exact .inl kept
    · exact absurd lost (unlost behind)
    · omega
    · obtain ⟨earlier, was_delivered, _, same⟩ := hears.read n member
      have : earlier = place := by omega
      exact absurd (this ▸ was_delivered) undelivered
  · exact .inr ⟨Nat.le_of_not_lt behind, near⟩

end Broadcast

/-- A member is given a sender's chain, under a number that is new to it, and then the sender sends and messages are
delivered in any order, while the member is given at most four further chains. Of a message that has not been delivered
before the member reads the text that it was made from, provided that the message is not too far ahead of where the member
stands and that its key is not among those that the member had to give up. -/
theorem delivers_to_group (b : Broadcast) (d : KeyDistribution) (opens : b.Opens d) (events : List Broadcast.Event)
    (possible : ∀ event ∈ events, event.Possible d.keyId) (few : (events.filterMap Broadcast.Event.given?).length ≤ 4)
    (place : Nat) (post : Post) (found : ((b.process d).run events).sent[place]? = some post)
    (undelivered : place ∉ ((b.process d).run events).delivered) :
    ∃ chain, ((b.process d).run events).standing? d.keyId = some chain ∧
      chain.iteration.toNat = (heard d.iteration.toNat ((b.process d).run events).reads).index ∧
      (post.message.iteration.toNat ≤ chain.iteration.toNat + 2000 →
        (post.message.iteration < chain.iteration →
          post.message.iteration.toNat ∉ (heard d.iteration.toNat ((b.process d).run events).reads).lost) →
        (((b.process d).run events).decrypt post).1 = .ok post.plaintext) := by
  obtain ⟨c, rfl, speaks⟩ := opens.speaks
  obtain ⟨speaks, hears⟩ := opens.hears.run (speaks.process _) events possible (by unfold maxStates; omega)
  rw [c.distribution_first]
  generalize (b.process (c.distribution c.first)).run events = b' at *
  obtain ⟨before, after, states, others, -⟩ := hears.record
  have sound := hears.sound speaks
  have bound := speaks.bound
  have placed : place < b'.sent.length := (List.getElem?_eq_some_iff.mp found).1
  obtain ⟨wrote, sendable⟩ := speaks.wrote place post found
  have index : (c.link (heard c.first b'.reads).index).iteration.toNat = (heard c.first b'.reads).index :=
    UInt32.toNat_ofNat_of_lt' sound.index
  have number := wrote.iteration_toNat (by omega)
  refine ⟨_, Broadcast.standing?_of_first states others, index, fun near unlost => ?_⟩
  rw [number, index] at near
  rw [number, wrote.iteration, c.behind_iff sound.toBounded (by omega)] at unlost
  have reachable := hears.reachable undelivered near unlost
  exact Broadcast.decrypt_post wrote sendable states others sound (le_heard _ _) (by omega) reachable

/-- The second message of a sender, delivered before the first. -/
theorem delivers_to_group_second_first :
    ∃ d post, Sample.broadcast.Opens d ∧
      let b := (Sample.broadcast.process d).run ([[1, 2, 3], [4]].map .send)
      b.sent[1]? = some post ∧ (b.decrypt post).1 = .ok [4] := by
  obtain ⟨d, start, opens⟩ := Sample.broadcast_opens
  generalize Sample.broadcast = b at opens ⊢
  obtain ⟨c, same, speaks⟩ := opens.speaks
  have first : c.first = 0 := by
    rw [same] at start
    exact c.distribution_first.symm.trans (congrArg UInt32.toNat start)
  have given := speaks.process d
  have silent : (b.process d).sent = [] := opens.sent
  have sendable : ∀ text ∈ [[1, 2, 3], [4]], Bytes.Sendable text := by
    simp [Bytes.Sendable]
  obtain ⟨spoken, texts, -, reads, delivered⟩ := given.run_sends [[1, 2, 3], [4]] sendable (by rw [first, silent]; decide)
  rw [silent] at texts
  obtain ⟨post, found, plaintext⟩ : ∃ post, ((b.process d).run ([[1, 2, 3], [4]].map .send)).sent[1]? = some post ∧
      post.plaintext = [4] := by
    have second := congrArg (·[1]?) texts
    rw [List.getElem?_map] at second
    exact Option.map_eq_some_iff.mp second
  have number : post.message.iteration = 1 := by
    rw [(spoken.wrote 1 post found).1.iteration, first]
    rfl
  have possible : ∀ event ∈ [[1, 2, 3], [4]].map Broadcast.Event.send, event.Possible d.keyId := by
    simp [Broadcast.Event.Possible, Bytes.Sendable]
  have undelivered : 1 ∉ ((b.process d).run ([[1, 2, 3], [4]].map .send)).delivered := by
    rw [delivered, show (b.process d).delivered = [] from opens.delivered]
    exact List.not_mem_nil
  obtain ⟨chain, _, _, outcome⟩ := delivers_to_group b d opens _ possible (by decide) 1 post found undelivered
  have near : post.message.iteration.toNat ≤ chain.iteration.toNat + 2000 := by
    rw [number]
    exact Nat.le_add_left 1 _
  have read := outcome near fun _ => by
    rw [reads, show (b.process d).reads = [] from opens.reads]
    exact List.not_mem_nil
  rw [plaintext] at read
  exact ⟨d, post, opens, found, read⟩

end DoubleRatchet
