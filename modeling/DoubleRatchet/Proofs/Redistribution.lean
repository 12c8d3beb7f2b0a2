import DoubleRatchet.Proofs.Group.Broadcast

/-! Redistribution. A sender gives its chain to a member again, from where it stands. The member keeps the chains that it
was given before, and a message is read by the first chain with its number; so what it can read next is decided by the
oldest of the chains that it keeps under that number, not by the one it has just been given. -/
namespace DoubleRatchet

open DoubleRatchet.Group

namespace Broadcast

/-- Each chain that the member keeps under the sender's number stands on the sender's chain, at a message that the sender
has reached. -/
def Traces (b : Broadcast) (c : SenderChain) : Prop :=
  ∀ state ∈ b.record.states, state.keyId = c.keyId → ∃ progress : Progress, progress.Sound ∧ c.first ≤ progress.index ∧
    progress.index ≤ c.first + b.sent.length ∧ state = c.state progress

namespace Traces

variable {b : Broadcast} {c : SenderChain}

/-- What the sender does leaves the member as it is. -/
theorem of_member {b' : Broadcast} (traces : b.Traces c) (record : b'.record = b.record)
    (sent : b.sent.length ≤ b'.sent.length) : b'.Traces c := by
  intro state member same
  obtain ⟨progress, sound, after, before, found⟩ := traces state (record ▸ member) same
  exact ⟨progress, sound, after, by omega, found⟩

theorem send (traces : b.Traces c) (plaintext : Bytes) : (b.send plaintext).Traces c :=
  traces.of_member rfl (b.length_sent_le_send plaintext)

/-- Of the chains kept under the sender's number the first is read on, and stays on the sender's chain. -/
theorem deliver (traces : b.Traces c) (speaks : b.Speaks c) (place : Nat) : (b.deliver place).Traces c := by
  unfold Broadcast.deliver
  cases found : b.sent[place]? with
  | none => exact traces
  | some post =>
    have placed : place < b.sent.length := (List.getElem?_eq_some_iff.mp found).1
    have bound := speaks.bound
    obtain ⟨wrote, sendable⟩ := speaks.wrote place post found
    dsimp only
    rcases b.accept_cases place post with ⟨plaintext, stores, received, record, -⟩ | ⟨record, -⟩
    · rw [Stores.receive, wrote.parse sendable] at received
      obtain ⟨_, parsed, received⟩ := bind_eq_ok.mp received
      cases parsed
      obtain ⟨⟨text, record'⟩, read, made⟩ := bind_eq_ok.mp received
      cases made
      rw [Stores.senderKey_withSenderKey] at record
      obtain ⟨before, state, after, state', states, number, -, served, rfl⟩ := SenderKeyRecord.read_eq_ok read
      rw [wrote.keyId] at number
      have states : b.record.states = before ++ state :: after := states
      obtain ⟨progress, sound, started, reached, rfl⟩ := traces state (states ▸ List.mem_append_right _ List.mem_cons_self) number
      cases wrote.of_read sound started (by omega) served
      intro other member same
      rw [record] at member
      -- Only the chain that has read the message moves, and it moves along the sender's.
      rcases SenderKeyRecord.mem_of_replaced member with rfl | old
      · refine ⟨progress.read (c.first + place), Progress.read_sound sound (by omega),
          Nat.le_trans started Progress.index_le_read, ?_, rfl⟩
        show _ ≤ c.first + b.sent.length
        by_cases behind : c.first + place < progress.index
        · rw [Progress.read_of_behind behind]
          exact reached
        · rw [Progress.read_index_of_ahead behind]
          omega
      · exact traces other (states ▸ old) same
    · exact traces.of_member record (Nat.le_refl _)

theorem process (traces : b.Traces c) (speaks : b.Speaks c) {message : KeyDistribution}
    (own : message.keyId ≠ c.keyId ∨ message ∈ b.distributed) : (b.process message).Traces c := by
  rcases own with other | given
  · rcases b.process_record message with ⟨begun, made, record⟩ | ⟨-, record⟩
    · intro state member same
      rw [record] at member
      rcases SenderKeyRecord.mem_push member with old | rfl
      · exact traces state old same
      · exact absurd ((distributed_keyId made).symm.trans same) other
    · exact traces.of_member record (Nat.le_refl _)
  · obtain ⟨n, started, reached, rfl⟩ := speaks.distributed message given
    have bound := speaks.bound
    intro state member same
    rw [b.process_distribution] at member
    rcases SenderKeyRecord.mem_push member with old | rfl
    · exact traces state old same
    · exact ⟨{ index := n }, .begun (by omega), started, reached, rfl⟩

theorem receive (traces : b.Traces c) {bytes : Bytes} (possible : (Event.receive bytes).Possible c.keyId) :
    (b.receive bytes).Traces c := by
  rcases b.receive_record bytes with ⟨message, before, state, after, state', parsed, states, -, number, states'⟩ | record
  · intro other member same
    rw [states'] at member
    rcases SenderKeyRecord.mem_of_replaced member with rfl | old
    · exact absurd (number.symm.trans same) (possible message parsed)
    · exact traces other (states ▸ old) same
  · exact traces.of_member record (Nat.le_refl _)

/-- Once the chain is given to the member, the first that it keeps under the number is one of the sender's chain. -/
theorem first_given (traces : b.Traces c) (speaks : b.Speaks c) {n : Nat} (own : c.distribution n ∈ b.distributed) :
    ∃ (before after : List SenderKeyState) (progress : Progress),
      (b.process (c.distribution n)).record.states = before ++ c.state progress :: after ∧
      (∀ other ∈ before, other.keyId ≠ c.keyId) ∧ progress.Sound ∧ c.first ≤ progress.index ∧
      progress.index ≤ c.first + b.sent.length := by
  have kept : c.state { index := n } ∈ (b.process (c.distribution n)).record.states := by
    rw [b.process_distribution]
    exact SenderKeyRecord.mem_push_self _ _
  obtain ⟨before, state, after, states, number, others⟩ := SenderKeyRecord.exists_first kept c.state_keyId
  have member : state ∈ (b.process (c.distribution n)).record.states := states ▸ List.mem_append_right _ List.mem_cons_self
  obtain ⟨progress, sound, started, reached, rfl⟩ := traces.process speaks (.inr own) state member number
  exact ⟨before, after, progress, states, others, sound, started, reached⟩

theorem step (traces : b.Traces c) (speaks : b.Speaks c) {event : Event} (possible : event.Possible c.keyId)
    (own : ∀ message, event = .process message → message.keyId ≠ c.keyId ∨ message ∈ b.distributed) :
    (b.step event).Traces c := by
  cases event with
  | send plaintext => exact traces.send plaintext
  | distribute => exact traces.of_member rfl (Nat.le_refl _)
  | deliver place => exact traces.deliver speaks place
  | process message => exact traces.process speaks (own message rfl)
  | receive bytes => exact traces.receive possible

theorem run (traces : b.Traces c) (speaks : b.Speaks c) (events : List Event)
    (possible : ∀ event ∈ events, event.Possible c.keyId)
    (own : ∀ before message after, events = before ++ .process message :: after →
      message.keyId ≠ c.keyId ∨ message ∈ (b.run before).distributed) :
    (b.run events).Speaks c ∧ (b.run events).Traces c := by
  induction events generalizing b with
  | nil => exact ⟨speaks, traces⟩
  | cons event rest ih =>
    have first := possible event List.mem_cons_self
    have now := traces.step speaks first fun message same => own [] message rest (same ▸ rfl)
    refine ih now (speaks.step first) (fun later member => possible later (List.mem_cons_of_mem _ member)) ?_
    intro before message after split
    exact own (event :: before) message after (split ▸ rfl)

end Traces

/-- What a member makes of the next message of the sender by the first chain that it keeps under the sender's number. -/
theorem decrypt_next {b : Broadcast} {c : SenderChain} {progress : Progress} {before after : List SenderKeyState} {n : Nat}
    (post : Post) (wrote : c.Wrote n post.plaintext post.message) (sendable : post.plaintext.Sendable)
    (states : b.record.states = before ++ c.state progress :: after) (others : ∀ other ∈ before, other.keyId ≠ c.keyId)
    (sound : progress.Sound) (started : c.first ≤ progress.index) (reached : progress.index ≤ n)
    (bound : n + 1 < UInt32.size) :
    (b.decrypt post).1 =
      if n ≤ progress.index + Group.maxSkip then .ok post.plaintext
      else .error (.tooFarAhead (.ofNat n - .ofNat progress.index)) := by
  by_cases near : n ≤ progress.index + Group.maxSkip
  · rw [if_pos near, decrypt_post wrote sendable states others sound started bound (.inr ⟨reached, near⟩)]
  · rw [if_neg near, decrypt_result, receive_post wrote sendable states others,
      wrote.read_of_far sound (Nat.lt_of_succ_lt bound) (Nat.lt_of_not_le near)]
    rfl

/-- What comes of the sender's giving its chain again, by the first chain that the member then keeps under its number. -/
theorem Speaks.renews {b : Broadcast} {c : SenderChain} (speaks : b.Speaks c) {progress : Progress}
    {before after : List SenderKeyState}
    (states : (b.distribute.process (c.distribution (c.first + b.sent.length))).record.states =
      before ++ c.state progress :: after)
    (others : ∀ other ∈ before, other.keyId ≠ c.keyId) (sound : progress.Sound) (started : c.first ≤ progress.index)
    (reached : progress.index ≤ c.first + b.sent.length) (room : c.first + b.sent.length + 1 < UInt32.size)
    {plaintext : Bytes} (sendable : plaintext.Sendable) :
    ∃ message device, (Group.encrypt b.name plaintext : OnDevice GroupMessage) b.distribute.sender = (.ok message, device) ∧
      message.iteration = .ofNat (c.first + b.sent.length) ∧
      ((b.distribute.process (c.distribution (c.first + b.sent.length))).decrypt ⟨plaintext, message⟩).1 =
        if c.first + b.sent.length ≤ progress.index + Group.maxSkip then .ok plaintext
        else .error (.tooFarAhead (.ofNat (c.first + b.sent.length) - .ofNat progress.index)) := by
  have speaks := speaks.distribute
  obtain ⟨message, device, sent, wrote⟩ := speaks.sends room plaintext
  refine ⟨message, device, sent, wrote.iteration, ?_⟩
  exact decrypt_next ⟨plaintext, message⟩ wrote sendable states others sound started reached room

end Broadcast

/-- A sender gives its chain again to a member that keeps what it was given of this chain before, and perhaps other chains.
The member reads the sender's next message if and only if the first chain that it keeps under the sender's number is not too
far behind; else the message is refused as too far ahead, although the chain just given begins with it. -/
theorem reads_after_redistribution (b : Broadcast) (d : KeyDistribution) (opens : b.Opens d) (events : List Broadcast.Event)
    (possible : ∀ event ∈ events, event.Possible d.keyId)
    (own : ∀ before message after, events = before ++ .process message :: after →
      message.keyId ≠ d.keyId ∨ message ∈ (b.run before).distributed) :
    ∃ renewed device, (Group.create (b.run events).name : OnDevice KeyDistribution) (b.run events).sender = (.ok renewed, device) ∧
      ∃ chain, ((b.run events).distribute.process renewed).standing? d.keyId = some chain ∧
        ∀ plaintext : Bytes, plaintext.Sendable → renewed.iteration ≠ 0xffffffff →
          ∃ message device', (Group.encrypt (b.run events).name plaintext : OnDevice GroupMessage) device = (.ok message, device') ∧
            message.iteration = renewed.iteration ∧
            (((b.run events).distribute.process renewed).decrypt ⟨plaintext, message⟩).1 =
              if renewed.iteration.toNat ≤ chain.iteration.toNat + 2000 then .ok plaintext
              else .error (.tooFarAhead (renewed.iteration - chain.iteration)) := by
  obtain ⟨c, rfl, speaks⟩ := opens.speaks
  have begins : b.Traces c := fun state member same => absurd same (opens.unknown state member)
  obtain ⟨speaks, traces⟩ := begins.run speaks events possible own
  generalize b.run events = reached at *
  obtain ⟨device, created, -⟩ := speaks.creates
  have distributed := Broadcast.distribute_of_ok created
  have given : c.distribution (c.first + reached.sent.length) ∈ reached.distribute.distributed := by
    rw [distributed]
    exact List.mem_append_right _ List.mem_cons_self
  have traces : reached.distribute.Traces c := traces.of_member rfl (Nat.le_refl _)
  obtain ⟨before, after, progress, states, others, sound, started, came⟩ := traces.first_given speaks.distribute given
  refine ⟨_, device, created, _, Broadcast.standing?_of_first states others, fun plaintext sendable last => ?_⟩
  have bound := speaks.bound
  have room : c.first + reached.sent.length + 1 < UInt32.size := by
    refine Nat.lt_of_le_of_ne bound fun full => last ?_
    exact congrArg UInt32.ofNat (Nat.succ.inj full)
  have renews := speaks.renews states others sound started came room sendable
  have number : (c.distribution (c.first + reached.sent.length)).iteration.toNat = c.first + reached.sent.length :=
    UInt32.toNat_ofNat_of_lt' bound
  have index : (c.link progress.index).iteration.toNat = progress.index := UInt32.toNat_ofNat_of_lt' sound.index
  rw [number, index]
  rw [show reached.distribute.sender = device from congrArg Broadcast.sender distributed] at renews
  exact renews

/-- A member that missed the first message of a chain reads the second, with which the chain was given again. -/
theorem reads_after_redistribution_missed :
    ∃ d renewed device message device', Sample.broadcast.Opens d ∧
      let b := Sample.broadcast.run [.process d, .send [1, 2, 3]]
      (Group.create b.name : OnDevice KeyDistribution) b.sender = (.ok renewed, device) ∧ renewed.iteration = 1 ∧
        (Group.encrypt b.name [4] : OnDevice GroupMessage) device = (.ok message, device') ∧
        ((b.distribute.process renewed).decrypt ⟨[4], message⟩).1 = .ok [4] := by
  obtain ⟨d, start, opens⟩ := Sample.broadcast_opens
  generalize Sample.broadcast = b at opens ⊢
  have possible : ∀ event ∈ [Broadcast.Event.process d, .send [1, 2, 3]], event.Possible d.keyId := by
    simp [Broadcast.Event.Possible, Bytes.Sendable]
  have own : ∀ before message after, [Broadcast.Event.process d, .send [1, 2, 3]] = before ++ .process message :: after →
      message.keyId ≠ d.keyId ∨ message ∈ (b.run before).distributed := by
    intro before message after split
    match before, split with
    | [], split =>
      cases split
      refine .inr ?_
      rw [show (b.run []).distributed = [d] from opens.distributed]
      exact List.mem_cons_self
    | [_], split => cases split
    | _ :: _ :: _, split => simp at split
  obtain ⟨renewed, device, created, chain, _, outcome⟩ := reads_after_redistribution b d opens _ possible own
  -- The sender has sent one message on a chain that began with number zero.
  have number : renewed.iteration = 1 := by
    obtain ⟨c, rfl, speaks⟩ := opens.speaks
    have first : c.first = 0 := c.distribution_first.symm.trans (congrArg UInt32.toNat start)
    have silent : (b.process (c.distribution c.first)).sent = [] := opens.sent
    obtain ⟨spoken, texts, -⟩ := (speaks.process _).run_sends [[1, 2, 3]] (by simp [Bytes.Sendable]) (by rw [silent, first]; decide)
    have count := congrArg List.length texts
    rw [List.length_map, silent] at count
    obtain ⟨_, given_again, -⟩ := spoken.creates
    obtain ⟨same, _⟩ := Prod.mk.inj (created.symm.trans given_again)
    cases same
    rw [SenderChain.distribution, count, first]
    rfl
  have sendable : Bytes.Sendable [4] := by
    simp [Bytes.Sendable]
  obtain ⟨message, device', sent, _, read⟩ := outcome [4] sendable (by rw [number]; decide)
  have near : renewed.iteration.toNat ≤ chain.iteration.toNat + 2000 := by
    rw [number]
    exact Nat.le_add_left 1 _
  rw [if_pos near] at read
  exact ⟨d, renewed, device, message, device', opens, created, number, sent, read⟩

/-- A member that was given a sender's chain and missed more than 2000 messages of it is not helped by being given the chain
again: the next message, with which the chain just given begins, is refused as too far ahead. -/
theorem refuses_after_gap (b : Broadcast) (d : KeyDistribution) (opens : b.Opens d) (texts : List Bytes)
    (sendable : ∀ text ∈ texts, text.Sendable) (long : 2000 < texts.length)
    (room : d.iteration.toNat + texts.length + 1 < UInt32.size) {plaintext : Bytes} (next : plaintext.Sendable) :
    let missed := (b.process d).run (texts.map .send)
    ∃ renewed message device, (Group.create missed.name : OnDevice KeyDistribution) missed.sender =
        (.ok renewed, missed.distribute.sender) ∧
      (Group.encrypt missed.name plaintext : OnDevice GroupMessage) missed.distribute.sender = (.ok message, device) ∧
      message.iteration = renewed.iteration ∧
      ((missed.distribute.process renewed).decrypt ⟨plaintext, message⟩).1 = .error (.tooFarAhead (.ofNat texts.length)) := by
  intro missed
  obtain ⟨c, rfl, speaks⟩ := opens.speaks
  rw [c.distribution_first] at room
  obtain ⟨before, states, others⟩ := opens.given
  have silent : (b.process (c.distribution c.first)).sent.length = 0 := congrArg List.length opens.sent
  obtain ⟨speaks, sent, record, -⟩ := (speaks.process (c.distribution c.first)).run_sends texts sendable (by omega)
  change missed.Speaks c at speaks
  have count : missed.sent.length = texts.length := by
    have lengths := congrArg List.length sent
    rw [List.length_append, List.length_map, List.length_map, silent, Nat.zero_add] at lengths
    exact lengths
  -- The chain given first is still kept, and comes before the one given now.
  have kept : missed.distribute.record.states = before ++ c.state { index := c.first } :: [] :=
    (congrArg SenderKeyRecord.states record).trans states
  obtain ⟨before', suffix, renewed⟩ := SenderKeyRecord.push_keeps kept (by decide)
    (c.state { index := c.first + missed.sent.length })
  rw [← missed.distribute.process_distribution] at renewed
  have others' : ∀ other ∈ before', other.keyId ≠ c.keyId := fun other member => others other (suffix.mem member)
  obtain ⟨device, created, -⟩ := speaks.creates
  have sender : missed.distribute.sender = device := congrArg Broadcast.sender (Broadcast.distribute_of_ok created)
  obtain ⟨message, device', sent, number, read⟩ := speaks.renews renewed others' (.begun (by omega)) (Nat.le_refl _)
    (Nat.le_add_right _ _) (by omega) next
  refine ⟨_, message, device', sender ▸ created, sent, number, read.trans ?_⟩
  have far : ¬ c.first + missed.sent.length ≤ c.first + Group.maxSkip := by
    unfold Group.maxSkip
    omega
  have gap : UInt32.ofNat (c.first + missed.sent.length) - UInt32.ofNat c.first = .ofNat texts.length := by
    rw [count, UInt32.ofNat_add, UInt32.add_comm, UInt32.add_sub_cancel]
  rw [if_neg far, gap]

end DoubleRatchet
