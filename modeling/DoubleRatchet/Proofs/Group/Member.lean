import DoubleRatchet.Proofs.Group.Chain
import DoubleRatchet.Proofs.Group.Record

/-! A member of a group. Under the name of a sender it is given chains and receives messages, any of them, in any order and
as often as may be. What it keeps of the sender is its record alone, and each of the chains in it stands at some place of a
sender's chain. -/
namespace DoubleRatchet

open DoubleRatchet.Group

/-- What can reach a device under the name of a sender. -/
inductive Receipt where
  | chain (distribution : KeyDistribution)
  | message (bytes : Bytes)

/-- Whether a chain is begun with what has come. -/
def Receipt.begins : Receipt → Bool
  | .chain distribution => distribution.chainKey.length == 32
  | .message _ => false

/-- The device after something has reached it. -/
def Device.take (name : SenderKeyName) (device : Device) : Receipt → Device
  | .chain message => ((Group.process name message : OnDevice Unit) device).2
  | .message bytes => ((Group.decrypt name bytes : OnDevice Bytes) device).2

def Device.takeAll (name : SenderKeyName) (device : Device) (receipts : List Receipt) : Device :=
  receipts.foldl (take name) device

/-! ## Records -/

namespace Group

/-- A member's progress in a chain is one that reading brings about. -/
structure SenderChain.Follows (c : SenderChain) (progress : Progress) : Prop where
  sound : progress.Sound
  rising : progress.Rising
  started : c.first ≤ progress.index

namespace SenderChain.Follows

variable {c : SenderChain} {progress : Progress}

theorem begun (c : SenderChain) : c.Follows { index := c.first } where
  sound := .begun c.origin.iteration.toNat_lt_size
  rising := .nil
  started := Nat.le_refl _

theorem read (follows : c.Follows progress) {n : Nat} (bound : n + 1 < UInt32.size) : c.Follows (progress.read n) where
  sound := Progress.read_sound follows.sound bound
  rising := follows.rising.read follows.sound n
  started := Nat.le_trans follows.started Progress.index_le_read

end SenderChain.Follows

theorem distributed_cases (message : KeyDistribution) :
    ((Receipt.chain message).begins ∧ ∃ c : SenderChain, distributed message = .ok (c.state { index := c.first })) ∨
      ¬ (Receipt.chain message).begins ∧ ∃ fault, distributed message = .error fault := by
  unfold distributed
  cases found : FixedBytes.ofBytes? 32 message.chainKey with
  | none =>
    have length := FixedBytes.ofBytes?_eq_none_iff.mp found
    exact .inr ⟨by simpa [Receipt.begins] using length, _, rfl⟩
  | some seed =>
    have bytes := FixedBytes.ofBytes?_eq_some_iff.mp found
    refine .inl ⟨by simp [Receipt.begins, bytes, seed.length_bytes], ⟨message.keyId, ⟨message.iteration, seed⟩, message.signingKey⟩, ?_⟩
    rw [SenderChain.state, SenderChain.link_first]
    rfl

namespace SenderKeyRecord

/-- What a message says, in the form in which it travels, and the record after it. -/
def receive (record : SenderKeyRecord) (bytes : Bytes) : Except Fault (Bytes × SenderKeyRecord) := do
  record.read (← GroupMessage.parse bytes)

/-- The record after something has reached the device. -/
def take (record : SenderKeyRecord) : Receipt → SenderKeyRecord
  | .chain message => (distributed message).toOption.elim record record.push
  | .message bytes => (record.receive bytes).toOption.elim record (·.2)

def takeAll (record : SenderKeyRecord) (receipts : List Receipt) : SenderKeyRecord := receipts.foldl take record

section

variable (record : SenderKeyRecord) {distribution : KeyDistribution} {state : SenderKeyState} {fault : Fault} {bytes : Bytes}
  {message : GroupMessage}

@[simp] theorem takeAll_nil : record.takeAll [] = record := rfl

@[simp] theorem takeAll_cons (receipt : Receipt) (rest : List Receipt) :
    record.takeAll (receipt :: rest) = (record.take receipt).takeAll rest := rfl

theorem takeAll_append (before after : List Receipt) :
    record.takeAll (before ++ after) = (record.takeAll before).takeAll after := List.foldl_append

theorem take_begun (begun : distributed distribution = .ok state) : record.take (.chain distribution) = record.push state := by
  simp [take, begun, Except.toOption]

theorem take_refused (refused : distributed distribution = .error fault) : record.take (.chain distribution) = record := by
  simp [take, refused, Except.toOption]

theorem take_garbled (garbled : GroupMessage.parse bytes = .error fault) : record.take (.message bytes) = record := by
  simp [take, receive, garbled, bind, Except.bind, Except.toOption]

theorem take_parsed (parsed : GroupMessage.parse bytes = .ok message) :
    record.take (.message bytes) = (record.read message).toOption.elim record (·.2) := by
  simp [take, receive, parsed, bind, Except.bind]

end

/-- What a member keeps that has begun without chains. -/
structure Given (record : SenderKeyRecord) : Prop where
  few : record.states.length ≤ maxStates
  follows : ∀ state ∈ record.states, ∃ (c : SenderChain) (progress : Progress), c.Follows progress ∧ state = c.state progress

theorem Given.none {record : SenderKeyRecord} (isEmpty : record.isEmpty) : record.Given := by
  have none : record.states = [] := List.isEmpty_iff.mp isEmpty
  constructor <;> simp [none]

theorem Given.take {record : SenderKeyRecord} (given : record.Given) (receipt : Receipt) : (record.take receipt).Given := by
  cases receipt with
  | chain distribution =>
    rcases distributed_cases distribution with ⟨-, c, begun⟩ | ⟨-, fault, refused⟩
    · rw [record.take_begun begun]
      constructor
      · rw [push_states, List.length_append, List.length_drop, List.length_singleton]
        have := given.few
        unfold maxStates at this ⊢
        omega
      · intro state member
        rcases mem_push member with old | rfl
        · exact given.follows state old
        · exact ⟨c, _, .begun c, rfl⟩
    · rw [record.take_refused refused]
      exact given
  | message bytes =>
    cases parsed : GroupMessage.parse bytes with
    | error fault =>
      rw [record.take_garbled parsed]
      exact given
    | ok message =>
      rw [record.take_parsed parsed]
      cases read : record.read message with
      | error fault => exact given
      | ok done =>
        obtain ⟨before, state, after, state', states, -, -, served, record'⟩ := read_eq_ok read
        obtain ⟨c, progress, follows, rfl⟩ := given.follows state (states ▸ List.mem_append_right _ List.mem_cons_self)
        obtain ⟨-, bound, rfl⟩ := SenderChain.read_eq_ok follows.sound follows.started served
        show done.2.Given
        rw [record']
        constructor
        · have few := given.few
          simpa [states] using few
        · intro other member
          rcases mem_of_replaced member with rfl | old
          · exact ⟨c, _, follows.read bound, rfl⟩
          · exact given.follows other (states ▸ old)

theorem Given.takeAll {record : SenderKeyRecord} (given : record.Given) (receipts : List Receipt) :
    (record.takeAll receipts).Given := by
  induction receipts generalizing record with
  | nil => exact given
  | cons receipt rest ih => exact ih (given.take receipt)

end SenderKeyRecord

/-- A record whose first chain is one that has just been given reads the message with which that chain begins. -/
theorem SenderChain.Wrote.receive_first {c : SenderChain} {plaintext : Bytes} {message : GroupMessage}
    (wrote : c.Wrote c.first plaintext message) (sendable : plaintext.Sendable) (bound : c.first + 1 < UInt32.size)
    (rest : List SenderKeyState) :
    (SenderKeyRecord.receive ⟨c.state { index := c.first } :: rest⟩ message.serialized).map (·.1) = .ok plaintext := by
  have begun := SenderChain.Follows.begun c
  have read := wrote.read begun.sound begun.started bound (.inr ⟨Nat.le_refl _, Nat.le_add_right _ _⟩)
  have first := SenderKeyRecord.read_first (rfl : (⟨[] ++ c.state { index := c.first } :: rest⟩ : SenderKeyRecord).states = _)
    (c.state_keyId.trans wrote.keyId.symm) (by simp)
  rw [SenderKeyRecord.receive, wrote.parse sendable]
  rw [read] at first
  exact congrArg (Except.map _) first

end Group

namespace Stores

theorem receive_eq (stores : Stores) (name : SenderKeyName) (bytes : Bytes) :
    stores.receive name bytes = (do
      let (plaintext, record) ← (stores.senderKey name).receive bytes
      return (plaintext, stores.withSenderKey name record)) := by
  unfold receive SenderKeyRecord.receive
  cases GroupMessage.parse bytes with
  | error fault => rfl
  | ok message =>
    simp only [bind, Except.bind]

end Stores

namespace Device

variable (name : SenderKeyName) (device : Device)

/-- What the device makes of a message depends on its record alone. -/
theorem decrypt_result (bytes : Bytes) :
    ((Group.decrypt name bytes : OnDevice Bytes) device).1 = ((device.stores.senderKey name).receive bytes).map (·.1) := by
  rcases run : (Group.decrypt name bytes : OnDevice Bytes) device with ⟨result, device'⟩
  rcases decrypt_run run with ⟨plaintext, stores, received, rfl, -⟩ | ⟨fault, received, rfl, -⟩
  · obtain ⟨done, read, made⟩ := bind_eq_ok.mp (Stores.receive_eq _ _ _ ▸ received)
    cases made
    rw [read]
    rfl
  · rcases bind_eq_error.mp (Stores.receive_eq _ _ _ ▸ received) with unread | ⟨_, _, failed⟩
    · rw [unread]
      rfl
    · cases failed

theorem take_record (receipt : Receipt) :
    (device.take name receipt).stores.senderKey name = (device.stores.senderKey name).take receipt := by
  cases receipt with
  | chain message =>
    rcases run : (Group.process name message : OnDevice Unit) device with ⟨result, device'⟩
    rw [take, run, SenderKeyRecord.take]
    rcases process_run run with ⟨stores, processed, -, same⟩ | ⟨fault, processed, -, same⟩
    · obtain ⟨state, begun, made⟩ := bind_eq_ok.mp processed
      cases made
      simp [same, begun, Except.toOption]
    · rcases bind_eq_error.mp processed with unread | ⟨_, _, failed⟩
      · simp [same, unread, Except.toOption]
      · cases failed
  | message bytes =>
    rcases run : (Group.decrypt name bytes : OnDevice Bytes) device with ⟨result, device'⟩
    rw [take, run, SenderKeyRecord.take]
    rcases decrypt_run run with ⟨plaintext, stores, received, -, same⟩ | ⟨fault, received, -, same⟩
    · obtain ⟨done, read, made⟩ := bind_eq_ok.mp (Stores.receive_eq _ _ _ ▸ received)
      cases made
      simp [same, read, Except.toOption]
    · rcases bind_eq_error.mp (Stores.receive_eq _ _ _ ▸ received) with unread | ⟨_, _, failed⟩
      · simp [same, unread, Except.toOption]
      · cases failed

theorem takeAll_record (receipts : List Receipt) :
    (device.takeAll name receipts).stores.senderKey name = (device.stores.senderKey name).takeAll receipts := by
  induction receipts generalizing device with
  | nil => rfl
  | cons receipt rest ih =>
    have later := ih (device.take name receipt)
    rw [take_record] at later
    exact later

/-- What a member keeps that knew no chain and has been given one. -/
theorem takeAll_first (unknown : device.stores.senderKey name = .empty) (c : SenderChain) :
    (device.takeAll name [.chain (c.distribution c.first)]).stores.senderKey name = ⟨[c.state { index := c.first }]⟩ := by
  rw [takeAll_record, unknown]
  exact SenderKeyRecord.take_begun _ (c.distributed_distribution c.first)

end Device

end DoubleRatchet
