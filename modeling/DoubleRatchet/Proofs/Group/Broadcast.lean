import DoubleRatchet.Proofs.Group.Chain
import DoubleRatchet.Proofs.Group.Record

/-! A sender to a group and one of its members. The sender may send and distribute its chain at any time; each message
may be delivered to the member at any time after it was sent, in any order, more than once or never; and the member may
be given chains, the sender's or others, and receive messages of other chains. -/
namespace DoubleRatchet

open DoubleRatchet.Group

/-- A message to a group, with what it was made from. -/
structure Post where
  plaintext : Bytes
  message : GroupMessage

structure Broadcast where
  sender : Device
  member : Device
  /-- The name under which the sender keeps its chain. -/
  name : SenderKeyName
  /-- The name under which the member keeps the chains of the sender. -/
  source : SenderKeyName
  /-- All messages that have been sent, in order. -/
  sent : List Post := []
  /-- The places in that list of the messages that have been delivered. -/
  delivered : List Nat := []
  /-- The numbers of the messages that the member has read, the latest first. -/
  reads : List UInt32 := []
  /-- The messages by which the sender has given its chain. -/
  distributed : List KeyDistribution := []

namespace Broadcast

/-- What may happen next. -/
inductive Event where
  | send (plaintext : Bytes)
  | distribute
  | deliver (place : Nat)
  | process (message : KeyDistribution)
  | receive (bytes : Bytes)

/-- The message that comes of a text is in flight. -/
def send (b : Broadcast) (plaintext : Bytes) : Broadcast :=
  let (result, device) := (Group.encrypt b.name plaintext : OnDevice GroupMessage) b.sender
  { b with
    sender := device
    sent := b.sent ++ (result.toOption.map fun message => ⟨plaintext, message⟩).toList }

def distribute (b : Broadcast) : Broadcast :=
  let (result, device) := (Group.create b.name : OnDevice KeyDistribution) b.sender
  { b with
    sender := device
    distributed := b.distributed ++ result.toOption.toList }

/-- What the member makes of a message. -/
def decrypt (b : Broadcast) (post : Post) : Except Fault Bytes × Device :=
  (Group.decrypt b.source post.message.serialized : OnDevice Bytes) b.member

def accept (b : Broadcast) (place : Nat) (post : Post) : Broadcast :=
  let (result, device) := b.decrypt post
  { b with
    member := device
    delivered := place :: b.delivered
    reads := if result.isOk then post.message.iteration :: b.reads else b.reads }

def deliver (b : Broadcast) (place : Nat) : Broadcast :=
  match b.sent[place]? with
  | none => b
  | some post => b.accept place post

def process (b : Broadcast) (message : KeyDistribution) : Broadcast :=
  { b with member := ((Group.process b.source message : OnDevice Unit) b.member).2 }

/-- Something else reaches the member. -/
def receive (b : Broadcast) (bytes : Bytes) : Broadcast :=
  { b with member := ((Group.decrypt b.source bytes : OnDevice Bytes) b.member).2 }

def step (b : Broadcast) : Event → Broadcast
  | .send plaintext => b.send plaintext
  | .distribute => b.distribute
  | .deliver place => b.deliver place
  | .process message => b.process message
  | .receive bytes => b.receive bytes

def run (b : Broadcast) (events : List Event) : Broadcast := events.foldl step b

/-- The chains that the member keeps of the sender. -/
def record (b : Broadcast) : SenderKeyRecord := b.member.stores.senderKey b.source

/-- An event that can occur: the texts are such that they can be sent, and what reaches the member besides the messages of
the chain with number `keyId` does not pretend to be one. -/
def Event.Possible (keyId : UInt32) : Event → Prop
  | .send plaintext => plaintext.Sendable
  | .receive bytes => ∀ message, GroupMessage.parse bytes = .ok message → message.keyId ≠ keyId
  | _ => True

theorem send_of_ok {b : Broadcast} {plaintext : Bytes} {message : GroupMessage} {device : Device}
    (run : (Group.encrypt b.name plaintext : OnDevice GroupMessage) b.sender = (.ok message, device)) :
    b.send plaintext = { b with sender := device, sent := b.sent ++ [⟨plaintext, message⟩] } := by
  rw [send, run]
  rfl

theorem send_of_error {b : Broadcast} {plaintext : Bytes} {fault : Fault} {device : Device}
    (run : (Group.encrypt b.name plaintext : OnDevice GroupMessage) b.sender = (.error fault, device)) :
    b.send plaintext = { b with sender := device } := by
  have sent : b.sent ++ ([] : List Post) = b.sent := List.append_nil _
  rw [send, run]
  exact congrArg (fun sent => { b with sender := device, sent }) sent

theorem length_sent_le_send (b : Broadcast) (plaintext : Bytes) : b.sent.length ≤ (b.send plaintext).sent.length := by
  rw [send]
  exact List.length_append ▸ Nat.le_add_right _ _

theorem distribute_of_ok {b : Broadcast} {d : KeyDistribution} {device : Device}
    (run : (Group.create b.name : OnDevice KeyDistribution) b.sender = (.ok d, device)) :
    b.distribute = { b with sender := device, distributed := b.distributed ++ [d] } := by
  rw [distribute, run]
  rfl

/-- Where the member stands on the first of its chains with a number. -/
def standing? (b : Broadcast) (keyId : UInt32) : Option Group.ChainKey :=
  (b.record.find? keyId).bind fun found => found.2.chainKey.toOption

/-- The sender has given `d` of its own chain, the member knows no chain with its number, and nothing has been sent. -/
structure Opens (b : Broadcast) (d : KeyDistribution) : Prop where
  created : ∃ device, (Group.create b.name : OnDevice KeyDistribution) device = (.ok d, b.sender)
  own : ∃ state key, (b.sender.stores.senderKey b.name).current = .ok state ∧ state.OwnedBy key
  unknown : ∀ state ∈ b.record.states, state.keyId ≠ d.keyId
  sent : b.sent = []
  delivered : b.delivered = []
  reads : b.reads = []
  distributed : b.distributed = [d]

/-- A sender without a chain begins one when it gives it. -/
theorem create_begins {name : SenderKeyName} {device : Device} (empty : (device.stores.senderKey name).isEmpty) :
    ∃ d device' state key, (Group.create name : OnDevice KeyDistribution) device = (.ok d, device') ∧ d.iteration = 0 ∧
      (device'.stores.senderKey name).current = .ok state ∧ state.OwnedBy key := by
  obtain ⟨d, state, key, e', made, first, own⟩ := Stores.create_of_empty empty device.ambient.entropy
  rcases run : (Group.create name : OnDevice KeyDistribution) device with ⟨result, device'⟩
  rw [create_run run] at made
  obtain ⟨rfl, left⟩ := Prod.mk.inj made
  have stores : device'.stores = _ := congrArg Prod.fst left
  refine ⟨d, device', state, key, rfl, first, ?_, own⟩
  rw [stores, Stores.senderKey_withSenderKey]
  rfl

/-! ## The sender -/

/-- The sender sends on a chain, whose messages it has sent so far are numbered in order. -/
structure Speaks (b : Broadcast) (c : SenderChain) : Prop where
  heads : ∃ state, (b.sender.stores.senderKey b.name).current = .ok state ∧ c.Heads state (c.first + b.sent.length)
  bound : c.first + b.sent.length < UInt32.size
  wrote : ∀ place post, b.sent[place]? = some post →
    c.Wrote (c.first + place) post.plaintext post.message ∧ post.plaintext.Sendable
  distributed : ∀ d ∈ b.distributed, ∃ n, c.first ≤ n ∧ n ≤ c.first + b.sent.length ∧ d = c.distribution n

namespace Speaks

variable {b : Broadcast} {c : SenderChain}

/-- What the sender sends next, if its chain has not come to its end. -/
theorem sends (speaks : b.Speaks c) (room : c.first + b.sent.length + 1 < UInt32.size) (plaintext : Bytes) :
    ∃ message device, (Group.encrypt b.name plaintext : OnDevice GroupMessage) b.sender = (.ok message, device) ∧
      c.Wrote (c.first + b.sent.length) plaintext message := by
  obtain ⟨state, current, heads⟩ := speaks.heads
  obtain ⟨message, state', e', sent⟩ := heads.sends (Nat.le_add_right _ _) room plaintext b.sender.ambient.entropy
  obtain ⟨_, wrote, _⟩ := heads.of_send (Nat.le_add_right _ _) speaks.bound sent
  rcases run : (Group.encrypt b.name plaintext : OnDevice GroupMessage) b.sender with ⟨result, device⟩
  have result_eq := congrArg Prod.fst (encrypt_run run)
  rw [Stores.broadcast, current] at result_eq
  dsimp only at result_eq
  rw [sent] at result_eq
  exact ⟨message, device, Prod.ext result_eq.symm rfl, wrote⟩

theorem of_encrypt (speaks : b.Speaks c) {plaintext : Bytes} {result : Except Fault GroupMessage} {device : Device}
    (run : (Group.encrypt b.name plaintext : OnDevice GroupMessage) b.sender = (result, device)) :
    (∃ message state, result = .ok message ∧ c.first + b.sent.length + 1 < UInt32.size ∧
      c.Wrote (c.first + b.sent.length) plaintext message ∧ (device.stores.senderKey b.name).current = .ok state ∧
      c.Heads state (c.first + b.sent.length + 1)) ∨
    ∃ fault, result = .error fault ∧ device.stores = b.sender.stores := by
  obtain ⟨state, current, heads⟩ := speaks.heads
  have ran := encrypt_run run
  rw [Stores.broadcast, current] at ran
  dsimp only at ran
  rcases sent : state.send plaintext b.sender.ambient.entropy with ⟨fault | ⟨message, state'⟩, e'⟩
  · rw [sent] at ran
    obtain ⟨result_eq, left⟩ := Prod.mk.inj ran
    exact .inr ⟨fault, result_eq.symm, (congrArg Prod.fst left).symm⟩
  · rw [sent] at ran
    obtain ⟨result_eq, left⟩ := Prod.mk.inj ran
    obtain ⟨room, wrote, heads'⟩ := heads.of_send (Nat.le_add_right _ _) speaks.bound sent
    refine .inl ⟨message, state', result_eq.symm, room, wrote, ?_, heads'⟩
    have stores_eq : b.sender.stores.withSenderKey b.name _ = device.stores := congrArg Prod.fst left
    rw [← stores_eq, Stores.senderKey_withSenderKey]
    exact SenderKeyRecord.current_updateCurrent current

/-- What the sender gives a member next; it changes nothing of the sender. -/
theorem creates (speaks : b.Speaks c) : ∃ device, (Group.create b.name : OnDevice KeyDistribution) b.sender =
    (.ok (c.distribution (c.first + b.sent.length)), device) ∧ device.stores = b.sender.stores := by
  obtain ⟨state, current, heads⟩ := speaks.heads
  obtain ⟨rest, states⟩ := SenderKeyRecord.current_eq_ok current
  rcases run : (Group.create b.name : OnDevice KeyDistribution) b.sender with ⟨result, device⟩
  have ran := create_run run
  have kept : (b.sender.stores.senderKey b.name).isEmpty = false := by
    rw [SenderKeyRecord.isEmpty, states]
    rfl
  rw [Stores.create, kept, SenderChain.Heads.distribution current heads] at ran
  obtain ⟨result_eq, left⟩ := Prod.mk.inj ran
  exact ⟨device, Prod.ext result_eq.symm rfl, (congrArg Prod.fst left).symm⟩

/-- What reaches the member leaves the sender as it is. -/
theorem of_sender {b' : Broadcast} (speaks : b.Speaks c) (sender : b'.sender = b.sender) (name : b'.name = b.name)
    (sent : b'.sent = b.sent) (distributed : b'.distributed = b.distributed) : b'.Speaks c := by
  obtain ⟨heads, bound, wrote, given⟩ := speaks
  constructor
  · rw [sender, name, sent]
    exact heads
  · rw [sent]
    exact bound
  · rw [sent]
    exact wrote
  · rw [distributed, sent]
    exact given

theorem process (speaks : b.Speaks c) (message : KeyDistribution) : (b.process message).Speaks c :=
  speaks.of_sender rfl rfl rfl rfl

theorem send (speaks : b.Speaks c) {plaintext : Bytes} (sendable : plaintext.Sendable) : (b.send plaintext).Speaks c := by
  rcases run : (Group.encrypt b.name plaintext : OnDevice GroupMessage) b.sender with ⟨result, device⟩
  rcases speaks.of_encrypt run with ⟨message, state, rfl, room, wrote, current, heads⟩ | ⟨fault, rfl, same⟩
  · rw [send_of_ok run]
    have length : (b.sent ++ [(⟨plaintext, message⟩ : Post)]).length = b.sent.length + 1 := List.length_append
    constructor
    · exact ⟨state, current, length ▸ heads⟩
    · exact length ▸ room
    · intro place post found
      rcases Nat.lt_trichotomy place b.sent.length with before | rfl | after
      · exact speaks.wrote place post ((List.getElem?_append_left before).symm.trans found)
      · have last : (b.sent ++ [(⟨plaintext, message⟩ : Post)])[b.sent.length]? = some ⟨plaintext, message⟩ := by simp
        cases last.symm.trans found
        exact ⟨wrote, sendable⟩
      · have none : (b.sent ++ [(⟨plaintext, message⟩ : Post)])[place]? = none := by
          rw [List.getElem?_eq_none_iff, length]
          exact after
        cases none.symm.trans found
    · intro d member
      obtain ⟨n, after, before, same⟩ := speaks.distributed d member
      exact ⟨n, after, length ▸ Nat.le_succ_of_le before, same⟩
  · rw [send_of_error run]
    obtain ⟨state, current, heads⟩ := speaks.heads
    exact ⟨⟨state, same ▸ current, heads⟩, speaks.bound, speaks.wrote, speaks.distributed⟩

theorem distribute (speaks : b.Speaks c) : b.distribute.Speaks c := by
  obtain ⟨device, run, same⟩ := speaks.creates
  obtain ⟨state, current, heads⟩ := speaks.heads
  rw [distribute_of_ok run]
  refine ⟨⟨state, same ▸ current, heads⟩, speaks.bound, speaks.wrote, fun d member => ?_⟩
  rcases List.mem_append.mp member with old | new
  · exact speaks.distributed d old
  · exact ⟨_, Nat.le_add_right _ _, Nat.le_refl _, List.mem_singleton.mp new⟩

theorem deliver (speaks : b.Speaks c) (place : Nat) : (b.deliver place).Speaks c := by
  unfold Broadcast.deliver
  split
  · exact speaks
  · exact speaks.of_sender rfl rfl rfl rfl

theorem step (speaks : b.Speaks c) {event : Event} (possible : event.Possible c.keyId) : (b.step event).Speaks c := by
  cases event with
  | send plaintext => exact speaks.send possible
  | distribute => exact speaks.distribute
  | deliver place => exact speaks.deliver place
  | process message => exact speaks.process message
  | receive bytes => exact speaks.of_sender rfl rfl rfl rfl

/-- A sender that sends one text after the other, while nothing reaches the member. -/
theorem run_sends (speaks : b.Speaks c) (texts : List Bytes) (sendable : ∀ text ∈ texts, text.Sendable)
    (room : c.first + b.sent.length + texts.length < UInt32.size) :
    (b.run (texts.map .send)).Speaks c ∧
      (b.run (texts.map .send)).sent.map Post.plaintext = b.sent.map Post.plaintext ++ texts ∧
      (b.run (texts.map .send)).record = b.record ∧ (b.run (texts.map .send)).reads = b.reads ∧
      (b.run (texts.map .send)).delivered = b.delivered := by
  induction texts generalizing b with
  | nil => exact ⟨speaks, (List.append_nil _).symm, rfl, rfl, rfl⟩
  | cons text rest ih =>
    rw [List.length_cons] at room
    obtain ⟨message, device, run, -⟩ := speaks.sends (by omega) text
    have sent : (b.send text).sent = b.sent ++ [⟨text, message⟩] := congrArg Broadcast.sent (send_of_ok run)
    have length : (b.send text).sent.length = b.sent.length + 1 := sent ▸ List.length_append
    obtain ⟨speaks', texts_sent, unchanged⟩ := ih (speaks.send (sendable text List.mem_cons_self))
      (fun later member => sendable later (List.mem_cons_of_mem _ member)) (by omega)
    refine ⟨speaks', texts_sent.trans ?_, unchanged⟩
    rw [sent, List.map_append, List.append_assoc]
    rfl

end Speaks

/-- The sender of a broadcast speaks on a chain, which it has given from where it stands. -/
theorem Opens.speaks {b : Broadcast} {d : KeyDistribution} (opens : b.Opens d) :
    ∃ c : SenderChain, d = c.distribution c.first ∧ b.Speaks c := by
  obtain ⟨device, created⟩ := opens.created
  obtain ⟨state, key, current, own⟩ := opens.own
  have made := Stores.distribution_of_create (create_run created)
  obtain ⟨c, same, heads⟩ := SenderChain.of_distribution current own made
  have length : b.sent.length = 0 := congrArg List.length opens.sent
  refine ⟨c, same, ⟨⟨state, current, ?_⟩, ?_, ?_, ?_⟩⟩
  · rw [length]
    exact heads
  · rw [length]
    exact c.origin.iteration.toNat_lt_size
  · rw [opens.sent]
    exact nofun
  · rw [opens.distributed]
    intro d' member
    exact ⟨c.first, Nat.le_refl _, Nat.le_add_right _ _, (List.mem_singleton.mp member).trans same⟩

/-! ## Members -/

theorem standing?_of_first {b : Broadcast} {c : SenderChain} {progress : Progress} {before after : List SenderKeyState}
    (states : b.record.states = before ++ c.state progress :: after) (others : ∀ other ∈ before, other.keyId ≠ c.keyId) :
    b.standing? c.keyId = some (c.link progress.index) := by
  rw [standing?, SenderKeyRecord.find?_of_first states c.state_keyId others]
  simp [Except.toOption]

/-- What a member keeps once it has been given a chain. -/
theorem process_record (b : Broadcast) (message : KeyDistribution) :
    (∃ state, Group.distributed message = .ok state ∧ (b.process message).record = b.record.push state) ∨
      (∃ fault, Group.distributed message = .error fault) ∧ (b.process message).record = b.record := by
  rcases run : (Group.process b.source message : OnDevice Unit) b.member with ⟨result, device⟩
  have member : (b.process message).member = device := congrArg Prod.snd run
  rw [record, member]
  show _ ∨ _ ∧ device.stores.senderKey b.source = _
  rcases process_run run with ⟨stores, processed, -, same⟩ | ⟨fault, processed, -, same⟩
  · obtain ⟨state, begun, made⟩ := bind_eq_ok.mp processed
    cases made
    refine .inl ⟨state, begun, ?_⟩
    show device.stores.senderKey b.source = _
    rw [same, Stores.senderKey_withSenderKey]
    rfl
  · rw [same]
    rcases bind_eq_error.mp processed with unread | ⟨_, _, failed⟩
    · exact .inr ⟨⟨fault, unread⟩, rfl⟩
    · cases failed

/-- The member begins the sender's chain where it was given. -/
theorem process_distribution (b : Broadcast) (c : SenderChain) (n : Nat) :
    (b.process (c.distribution n)).record = b.record.push (c.state { index := n }) := by
  have begun := c.distributed_distribution n
  rcases b.process_record (c.distribution n) with ⟨state, made, record⟩ | ⟨⟨fault, failed⟩, -⟩
  · cases begun.symm.trans made
    exact record
  · cases begun.symm.trans failed

/-- A member that has just been given a chain, under a number that is new to it. -/
theorem Opens.given {b : Broadcast} {c : SenderChain} (opens : b.Opens (c.distribution c.first)) :
    ∃ before, (b.process (c.distribution c.first)).record.states = before ++ [c.state { index := c.first }] ∧
      ∀ other ∈ before, other.keyId ≠ c.keyId := by
  have states := SenderKeyRecord.push_states b.record (c.state { index := c.first })
  rw [← b.process_distribution] at states
  exact ⟨_, states, fun other member => opens.unknown other (List.mem_of_mem_drop member)⟩

/-- What reaches the member is read by one chain, which keeps its place and number, or changes nothing. -/
theorem receive_record (b : Broadcast) (bytes : Bytes) :
    (∃ message before state after state', GroupMessage.parse bytes = .ok message ∧
      b.record.states = before ++ state :: after ∧ state.keyId = message.keyId ∧ state'.keyId = message.keyId ∧
      (b.receive bytes).record.states = before ++ state' :: after) ∨ (b.receive bytes).record = b.record := by
  rcases run : (Group.decrypt b.source bytes : OnDevice Bytes) b.member with ⟨result, device⟩
  have member : (b.receive bytes).member = device := congrArg Prod.snd run
  rcases decrypt_run run with ⟨plaintext, stores, received, -, same⟩ | ⟨fault, -, -, same⟩
  · obtain ⟨message, parsed, received⟩ := bind_eq_ok.mp received
    obtain ⟨⟨text, record'⟩, read, made⟩ := bind_eq_ok.mp received
    cases made
    obtain ⟨before, state, after, state', states, number, -, served, rfl⟩ := SenderKeyRecord.read_eq_ok read
    have number' := (SenderKeyState.read_keyId served).trans number
    refine .inl ⟨message, before, state, after, state', parsed, states, number, number', ?_⟩
    rw [record, member, same]
    show ((b.member.stores.withSenderKey b.source _).senderKey b.source).states = _
    rw [Stores.senderKey_withSenderKey]
  · refine .inr ?_
    rw [record, member, same]
    rfl

theorem decrypt_result (b : Broadcast) (post : Post) :
    (b.decrypt post).1 = (b.member.stores.receive b.source post.message.serialized).map (·.1) := by
  rcases run : b.decrypt post with ⟨result, device⟩
  rcases decrypt_run run with ⟨plaintext, stores, received, rfl, -⟩ | ⟨fault, received, rfl, -⟩
  · rw [received]
    rfl
  · rw [received]
    rfl

/-- What a delivery leaves at the member: it has read the message, or nothing has changed. -/
theorem accept_cases (b : Broadcast) (place : Nat) (post : Post) :
    (∃ plaintext stores, b.member.stores.receive b.source post.message.serialized = .ok (plaintext, stores) ∧
      (b.accept place post).record = stores.senderKey b.source ∧
      (b.accept place post).reads = post.message.iteration :: b.reads) ∨
    (b.accept place post).record = b.record ∧ (b.accept place post).reads = b.reads := by
  unfold accept
  rcases run : b.decrypt post with ⟨result, device⟩
  rcases decrypt_run run with ⟨plaintext, stores, received, rfl, same⟩ | ⟨fault, -, rfl, same⟩
  · refine .inl ⟨plaintext, stores, received, ?_, rfl⟩
    rw [← same]
    rfl
  · refine .inr ⟨?_, rfl⟩
    show device.stores.senderKey b.source = _
    rw [same]
    rfl

/-- What a member makes of a message of the sender, if the first of its chains with that number has come to `progress`
on the sender's. -/
theorem receive_post {stores : Stores} {source : SenderKeyName} {c : SenderChain} {progress : Progress} {n : Nat} {post : Post}
    {before after : List SenderKeyState} (wrote : c.Wrote n post.plaintext post.message) (sendable : post.plaintext.Sendable)
    (states : (stores.senderKey source).states = before ++ c.state progress :: after)
    (others : ∀ other ∈ before, other.keyId ≠ c.keyId) :
    stores.receive source post.message.serialized = (do
      let (plaintext, state) ← (c.state progress).read post.message
      return (plaintext, stores.withSenderKey source ⟨before ++ state :: after⟩)) := by
  rw [← wrote.keyId] at others
  rw [Stores.receive, wrote.parse sendable]
  simp only [bind, Except.bind]
  rw [SenderKeyRecord.read_first states wrote.keyId.symm others]
  cases (c.state progress).read post.message <;> rfl

theorem decrypt_post {b : Broadcast} {c : SenderChain} {progress : Progress} {n : Nat} {post : Post}
    {before after : List SenderKeyState} (wrote : c.Wrote n post.plaintext post.message) (sendable : post.plaintext.Sendable)
    (states : b.record.states = before ++ c.state progress :: after) (others : ∀ other ∈ before, other.keyId ≠ c.keyId)
    (sound : progress.Sound) (started : c.first ≤ progress.index) (bound : n + 1 < UInt32.size)
    (reachable : n ∈ progress.kept ∨ progress.index ≤ n ∧ n ≤ progress.index + Group.maxSkip) :
    (b.decrypt post).1 = .ok post.plaintext := by
  rw [decrypt_result, receive_post wrote sendable states others, wrote.read sound started bound reachable]
  rfl

end Broadcast

/-! ## A sample -/

namespace Sample

def group : SenderKeyName := ⟨"group", ⟨"speaker", 1⟩⟩

def speaker : Device where
  stores := { identity := (Entropy.ofSeed 2).pair 0, registrationId := 1 }
  ambient := { entropy := Entropy.ofSeed 1 }

def listener : Device where
  stores := { identity := (Entropy.ofSeed 2).pair 1, registrationId := 2 }
  ambient := { entropy := Entropy.ofSeed 3 }

theorem listener_empty : listener.stores.senderKey group = .empty := by
  simp [Stores.senderKey, listener]

/-- A sender that has just begun a chain, and a member that knows none. -/
def broadcast : Broadcast where
  sender := ((Group.create group : OnDevice KeyDistribution) speaker).2
  member := listener
  name := group
  source := group
  distributed := ((Group.create group : OnDevice KeyDistribution) speaker).1.toOption.toList

theorem broadcast_opens : ∃ d, d.iteration = 0 ∧ broadcast.Opens d := by
  have unknown : (speaker.stores.senderKey group).isEmpty := by
    simp [Stores.senderKey, speaker, SenderKeyRecord.isEmpty, SenderKeyRecord.empty]
  obtain ⟨d, device, state, key, created, first, current, own⟩ := Broadcast.create_begins unknown
  have sender : broadcast.sender = device := congrArg Prod.snd created
  have distributed : broadcast.distributed = [d] := congrArg (fun run => run.1.toOption.toList) created
  have empty : broadcast.record = .empty := listener_empty
  refine ⟨d, first, ⟨speaker, sender ▸ created⟩, ⟨state, key, sender ▸ current, own⟩, ?_, rfl, rfl, rfl, distributed⟩
  rw [empty]
  exact fun state member => absurd member List.not_mem_nil

/-- The first message of the sender, on the chain that it has given. -/
theorem broadcast_sends (plaintext : Bytes) : ∃ (c : SenderChain) (message : GroupMessage) (device : Device), c.first = 0 ∧
    broadcast.Opens (c.distribution c.first) ∧
    (Group.encrypt group plaintext : OnDevice GroupMessage) broadcast.sender = (.ok message, device) ∧
    c.Wrote c.first plaintext message := by
  obtain ⟨d, start, opens⟩ := broadcast_opens
  obtain ⟨c, rfl, speaks⟩ := opens.speaks
  have first : c.first = 0 := c.distribution_first.symm.trans (congrArg UInt32.toNat start)
  have silent : broadcast.sent.length = 0 := congrArg List.length opens.sent
  obtain ⟨message, device, sent, wrote⟩ := speaks.sends (by rw [silent, first]; decide) plaintext
  rw [silent] at wrote
  exact ⟨c, message, device, first, opens, sent, wrote⟩

end Sample

end DoubleRatchet
