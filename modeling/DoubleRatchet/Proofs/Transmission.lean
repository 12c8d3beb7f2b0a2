import DoubleRatchet.Message
import DoubleRatchet.Proofs.Computation
import DoubleRatchet.Proofs.Wire

/-! The four kinds of messages as they travel: the bytes of a message that has been made are read as that message, whatever
it says, and the message that is read answers for itself as the one that was made. -/
namespace DoubleRatchet

theorem Bytes.Sendable.fits {text : Bytes} (sendable : text.Sendable) : text.length < UInt64.size :=
  Nat.lt_of_le_of_lt sendable (by decide)

/-- What a trailer covers and the trailer are all that was read. -/
theorem Frame.content_append_trailer {M : Type} {schema : Protobuf.Schema M} {n : Nat} {bytes : Bytes} {parts : Parts M n}
    (read : Frame.read schema n bytes = .ok parts) : parts.content ++ parts.trailer.bytes = bytes := by
  unfold Frame.read at read
  split at read
  · cases read
  · obtain ⟨version, -, read⟩ := bind_eq_ok.mp read
    split at read
    · cases read
    · cases read
      exact List.take_append_drop _ _

namespace RatchetMessage

theorem serialized_of_parse {bytes : Bytes} {message : RatchetMessage} (read : parse bytes = .ok message) :
    message.serialized = bytes := by
  simp only [parse, bind_eq_ok] at read
  obtain ⟨parts, taken, _, _, _, _, _, _, made⟩ := read
  cases made
  exact Frame.content_append_trailer taken

/-- The messages of sessions that a device can hold: those that it has made, and those that it has read. -/
inductive Held : RatchetMessage → Prop
  | made {version : UInt8} (supported : version = 2 ∨ version = 3) (macKey : Key) (ratchetKey : PublicKey)
    (counter previousCounter : UInt32) {ciphertext : Bytes} (sendable : ciphertext.Sendable) (sender receiver : PublicKey) :
    Held (create version macKey ratchetKey counter previousCounter ciphertext sender receiver)
  | read {bytes : Bytes} {message : RatchetMessage} (sendable : bytes.Sendable) (parsed : parse bytes = .ok message) :
    Held message

namespace Held

variable {message : RatchetMessage}

theorem parse_serialized (held : message.Held) : parse message.serialized = .ok message := by
  cases held with
  | made supported macKey ratchetKey counter previousCounter sendable sender receiver =>
    exact parse_create supported macKey ratchetKey counter previousCounter sendable.fits sender receiver
  | read _ parsed =>
    rw [serialized_of_parse parsed]
    exact parsed

theorem fits (held : message.Held) : message.serialized.length < UInt64.size := by
  cases held with
  | @made version _ macKey ratchetKey counter previousCounter ciphertext sendable sender receiver =>
    have length := create_length version macKey ratchetKey counter previousCounter ciphertext sender receiver
    have room : 0x7fffffffffffffff + 122 < UInt64.size := by decide
    unfold Bytes.Sendable at sendable
    omega
  | read sendable parsed =>
    rw [serialized_of_parse parsed]
    exact sendable.fits

end Held

/-- What a message answers to a byte string that is offered as the key of its MAC. -/
def answer (message : RatchetMessage) (macKey : Bytes) (sender receiver : PublicKey) : Except Fault Bool :=
  return message.verifyMac (← RatchetMessage.macKey macKey) sender receiver

/-- The key that a message is made with is the key of its MAC. -/
theorem answer_create (version : UInt8) (key : Key) (ratchetKey : PublicKey) (counter previousCounter : UInt32)
    (ciphertext : Bytes) (sender receiver : PublicKey) :
    (create version key ratchetKey counter previousCounter ciphertext sender receiver).answer key.bytes sender receiver =
      .ok true := by
  simp [answer, macKey, create, verifyMac, expectedMac, bind, Except.bind, pure, Except.pure]

end RatchetMessage

namespace GroupMessage

theorem parse_create {version : UInt8} (supported : version = 2 ∨ version = 3) (keyId iteration : UInt32)
    {ciphertext : Bytes} (sendable : ciphertext.Sendable) (signingKey : PrivateKey) (e : Entropy) :
    let message := (create version keyId iteration ciphertext signingKey e).1
    parse message.serialized = .ok message :=
  parse_serialized supported rfl sendable.fits

end GroupMessage

namespace KeyDistribution

open Protobuf

theorem schema_restores (keyId iteration : UInt32) {chainKey : Bytes} (fits : chainKey.length < UInt64.size)
    (signingKey : PublicKey) :
    let body : Body := { keyId := some keyId, iteration := some iteration, chainKey := some chainKey,
                         signingKey := some signingKey.serialize }
    schema.decode? (schema.encode body) = some body := by
  intro body
  rw [schema.decode?_encode (by decide) (by simpa [schema, body] using ⟨fits, signingKey.serialize_fits⟩)]
  simp [schema, body]

theorem parse_create {version : UInt8} (supported : version = 2 ∨ version = 3) (keyId iteration : UInt32)
    (chainKey : FixedBytes 32) (signingKey : PublicKey) :
    let message := create version keyId iteration chainKey.bytes signingKey
    parse message.serialized = .ok message := by
  intro message
  have fits : chainKey.bytes.length < UInt64.size := by
    rw [chainKey.length_bytes]
    decide
  have read := Frame.read_write supported (schema_restores keyId iteration fits signingKey) (⟨[], rfl⟩ : FixedBytes 0)
  rw [List.append_nil] at read
  rw [parse, show message.serialized = Frame.write version schema _ from rfl, read]
  simp [Frame.required, bind, Except.bind, pure, Except.pure, chainKey.length_bytes]
  rfl

end KeyDistribution

/-- Whatever a message of one of the four kinds says, its bytes are read as it: with all that it says, as the same bytes,
with the same message inside, and with the same answers to all keys that its MAC or its signature is verified with. -/
theorem messages_parse_back (version : UInt8) (supported : version = 2 ∨ version = 3) :
    (∀ (macKey : Key) (ratchetKey : PublicKey) (counter previousCounter : UInt32) (ciphertext : Bytes)
        (sender receiver : PublicKey), ciphertext.Sendable →
      let made := RatchetMessage.create version macKey ratchetKey counter previousCounter ciphertext sender receiver
      ∃ read, RatchetMessage.parse made.serialized = .ok read ∧
        Message.parse .ratchet made.serialized = .ok (.ratchet read) ∧
        (read.version, read.ratchetKey, read.counter, read.previousCounter, read.body) =
          (version, ratchetKey, counter, previousCounter, ciphertext) ∧
        read.serialized = made.serialized ∧
        read.answer macKey.bytes sender receiver = .ok true ∧
        ∀ key a b, read.answer key a b = made.answer key a b) ∧
    (∀ (registrationId : UInt32) (preKeyId : Option UInt32) (signedPreKeyId : UInt32) (baseKey identityKey : PublicKey)
        (inner : RatchetMessage), inner.Held →
      let made := PreKeyMessage.create version registrationId preKeyId signedPreKeyId baseKey identityKey inner
      ∃ read, PreKeyMessage.parse made.serialized = .ok read ∧
        Message.parse .preKey made.serialized = .ok (.preKey read) ∧
        (read.version, read.registrationId, read.preKeyId, read.signedPreKeyId, read.baseKey, read.identityKey) =
          (version, registrationId, preKeyId, signedPreKeyId, baseKey, identityKey) ∧
        read.serialized = made.serialized ∧
        read.message.serialized = inner.serialized ∧
        ∀ key a b, read.message.answer key a b = inner.answer key a b) ∧
    (∀ (keyId iteration : UInt32) (ciphertext : Bytes) (signingKey : PrivateKey) (e : Entropy), ciphertext.Sendable →
      let made := (GroupMessage.create version keyId iteration ciphertext signingKey e).1
      ∃ read, GroupMessage.parse made.serialized = .ok read ∧
        Message.parse .group made.serialized = .ok (.group read) ∧
        (read.version, read.keyId, read.iteration, read.ciphertext) = (version, keyId, iteration, ciphertext) ∧
        read.serialized = made.serialized ∧
        ∀ key, read.verify key = made.verify key) ∧
    ∀ (keyId iteration : UInt32) (chainKey : FixedBytes 32) (signingKey : PublicKey),
      let made := KeyDistribution.create version keyId iteration chainKey.bytes signingKey
      ∃ read, KeyDistribution.parse made.serialized = .ok read ∧
        Message.parse .distribution made.serialized = .ok (.distribution read) ∧
        (read.version, read.keyId, read.iteration, read.chainKey, read.signingKey) =
          (version, keyId, iteration, chainKey.bytes, signingKey) ∧
        read.serialized = made.serialized := by
  refine ⟨?_, ?_, ?_, ?_⟩
  · intro macKey ratchetKey counter previousCounter ciphertext sender receiver sendable made
    have held : made.Held := .made supported macKey ratchetKey counter previousCounter sendable sender receiver
    have parsed := held.parse_serialized
    have verified :=
      RatchetMessage.answer_create version macKey ratchetKey counter previousCounter ciphertext sender receiver
    exact ⟨made, parsed, by rw [Message.parse, parsed]; rfl, rfl, rfl, verified, fun _ _ _ => rfl⟩
  · intro registrationId preKeyId signedPreKeyId baseKey identityKey inner held made
    have parsed := PreKeyMessage.parse_create supported registrationId preKeyId signedPreKeyId baseKey identityKey
      held.parse_serialized held.fits
    exact ⟨made, parsed, by rw [Message.parse, parsed]; rfl, rfl, rfl, rfl, fun _ _ _ => rfl⟩
  · intro keyId iteration ciphertext signingKey e sendable made
    have parsed := GroupMessage.parse_create supported keyId iteration sendable signingKey e
    exact ⟨made, parsed, by rw [Message.parse, parsed]; rfl, rfl, rfl, fun _ => rfl⟩
  · intro keyId iteration chainKey signingKey made
    have parsed := KeyDistribution.parse_create supported keyId iteration chainKey signingKey
    exact ⟨made, parsed, by rw [Message.parse, parsed]; rfl, rfl, rfl⟩

/-- A message of version 2 without a text, the last of its chain, travels inside one of version 3 that names no one-time
key. -/
theorem messages_parse_back_nested :
    let macKey : Key := ⟨List.replicate 32 0, rfl⟩
    let key : PublicKey := ⟨⟨List.replicate 32 9, rfl⟩⟩
    let inner := RatchetMessage.create 2 macKey key 0xffffffff 0xffffffff [] key key
    let opening := PreKeyMessage.create 3 0 none 0xffffffff key key inner
    ∃ read, PreKeyMessage.parse opening.serialized = .ok read ∧ read.preKeyId = none ∧
      read.signedPreKeyId = 0xffffffff ∧ read.message.serialized = inner.serialized ∧
      read.message.answer macKey.bytes key key = .ok true := by
  intro macKey key inner opening
  have held : inner.Held := .made (.inl rfl) macKey key 0xffffffff 0xffffffff (Nat.zero_le _) key key
  obtain ⟨read, parsed, -, fields, -, same, answers⟩ :=
    (messages_parse_back 3 (.inr rfl)).2.1 0 none 0xffffffff key key inner held
  simp only [Prod.mk.injEq] at fields
  refine ⟨read, parsed, fields.2.2.1, fields.2.2.2.1, same, ?_⟩
  rw [answers]
  exact RatchetMessage.answer_create 2 macKey key 0xffffffff 0xffffffff [] key key

end DoubleRatchet
