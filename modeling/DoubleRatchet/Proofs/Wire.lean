import DoubleRatchet.Message.Group
import DoubleRatchet.Message.PreKey
import DoubleRatchet.Proofs.Cipher.Cbc
import DoubleRatchet.Proofs.Protobuf.Schemas
import DoubleRatchet.Proofs.StoredKeys

/-! Messages on their way: the bytes that a message travels as are read as the message. -/
namespace DoubleRatchet

open Protobuf

/-- A text that can be sent. No device holds a longer one. -/
def Bytes.Sendable (text : Bytes) : Prop := text.length ≤ 0x7fffffffffffffff

theorem Cipher.encrypt_fits {text : Bytes} (sendable : text.Sendable) (key : FixedBytes 32) (iv : FixedBytes 16) :
    (Cipher.encrypt key iv text).length < 0x8000000000000100 := by
  have length := Cipher.length_encrypt key iv text
  unfold Bytes.Sendable at sendable
  omega

namespace GroupMessage

theorem schema_restores (keyId iteration : UInt32) {ciphertext : Bytes} (fits : ciphertext.length < UInt64.size) :
    let body : Body := { keyId := some keyId, iteration := some iteration, ciphertext := some ciphertext }
    schema.decode? (schema.encode body) = some body := by
  intro body
  rw [schema.decode?_encode (by decide) (by simpa [schema, body] using fits)]
  simp [schema, body]

theorem parse_serialized {message : GroupMessage} (supported : message.version = 2 ∨ message.version = 3)
    (content : message.content = Frame.write message.version schema
      { keyId := some message.keyId, iteration := some message.iteration, ciphertext := some message.ciphertext })
    (fits : message.ciphertext.length < UInt64.size) : parse message.serialized = .ok message := by
  have read := Frame.read_write supported (schema_restores message.keyId message.iteration fits) message.signature
  rw [parse, serialized, content, read]
  simp [Frame.required, bind, Except.bind, pure, Except.pure, ← content]

end GroupMessage

namespace RatchetMessage

theorem schema_restores (ratchetKey : PublicKey) (counter previousCounter : UInt32) {ciphertext : Bytes}
    (fits : ciphertext.length < UInt64.size) :
    let body : Body := { ratchetKey := some ratchetKey.serialize, counter := some counter,
                         previousCounter := some previousCounter, ciphertext := some ciphertext }
    schema.decode? (schema.encode body) = some body := by
  intro body
  rw [schema.decode?_encode (by decide) (by simpa [schema, body] using ⟨ratchetKey.serialize_fits, fits⟩)]
  simp [schema, body]

theorem parse_create {version : UInt8} (supported : version = 2 ∨ version = 3) (macKey : Key) (ratchetKey : PublicKey)
    (counter previousCounter : UInt32) {ciphertext : Bytes} (fits : ciphertext.length < UInt64.size)
    (sender receiver : PublicKey) :
    let message := create version macKey ratchetKey counter previousCounter ciphertext sender receiver
    parse message.serialized = .ok message := by
  intro message
  have read := Frame.read_write supported (schema_restores ratchetKey counter previousCounter fits) message.mac
  rw [parse, serialized, show message.content = Frame.write version schema _ from rfl, read]
  simp [Frame.required, bind, Except.bind, pure, Except.pure]
  rfl

theorem serialized_length (message : RatchetMessage) : message.serialized.length = message.content.length + 8 := by
  rw [serialized, List.length_append, message.mac.length_bytes]

theorem create_length (version : UInt8) (macKey : Key) (ratchetKey : PublicKey) (counter previousCounter : UInt32)
    (ciphertext : Bytes) (sender receiver : PublicKey) :
    (create version macKey ratchetKey counter previousCounter ciphertext sender receiver).serialized.length ≤
      ciphertext.length + 122 := by
  have key := Field.write_length ⟨1, .delimited ratchetKey.serialize⟩
  have number := Field.write_length ⟨2, .varint counter.toNat⟩
  have previous := Field.write_length ⟨3, .varint previousCounter.toNat⟩
  have text := Field.write_length ⟨4, .delimited ciphertext⟩
  simp only [Value.size, PublicKey.length_serialize] at key number previous text
  rw [serialized_length]
  simp [create, Frame.write, Schema.encode, Schema.fields, schema, writeFields, Slot.optionalBytes, Slot.optionalUint32]
  omega

end RatchetMessage

namespace PreKeyMessage

theorem schema_restores (preKeyId : Option UInt32) (baseKey identityKey : PublicKey) {message : Bytes}
    (fits : message.length < UInt64.size) (registrationId signedPreKeyId : UInt32) :
    let body : Body := { preKeyId, baseKey := some baseKey.serialize, identityKey := some identityKey.serialize,
                         message := some message, registrationId := some registrationId,
                         signedPreKeyId := some signedPreKeyId }
    schema.decode? (schema.encode body) = some body := by
  intro body
  rw [schema.decode?_encode (by decide) (by
    simpa [schema, body] using ⟨baseKey.serialize_fits, identityKey.serialize_fits, fits⟩)]
  cases preKeyId <;> simp [schema, body]

/-- A message that opens a session is read as it was made, if what it carries is. -/
theorem parse_create {version : UInt8} (supported : version = 2 ∨ version = 3) (registrationId : UInt32)
    (preKeyId : Option UInt32) (signedPreKeyId : UInt32) (baseKey identityKey : PublicKey) {message : RatchetMessage}
    (carried : RatchetMessage.parse message.serialized = .ok message) (fits : message.serialized.length < UInt64.size) :
    let opening := create version registrationId preKeyId signedPreKeyId baseKey identityKey message
    parse opening.serialized = .ok opening := by
  intro opening
  have read := Frame.read_write supported (schema_restores preKeyId baseKey identityKey fits registrationId signedPreKeyId)
    (⟨[], rfl⟩ : FixedBytes 0)
  rw [List.append_nil] at read
  rw [parse, show opening.serialized = Frame.write version schema _ from rfl, read]
  simp [Frame.required, bind, Except.bind, pure, Except.pure, carried]
  rfl

end PreKeyMessage

end DoubleRatchet
