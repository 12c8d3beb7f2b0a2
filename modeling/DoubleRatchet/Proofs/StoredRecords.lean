import DoubleRatchet.Group.Record
import DoubleRatchet.Identity
import DoubleRatchet.PreKey
import DoubleRatchet.Proofs.Protobuf.Nesting
import DoubleRatchet.Proofs.StoredKeys
import DoubleRatchet.Session.Record

/-! Records in storage: the bytes that a record is stored as are read as the record, whatever is in it. -/
namespace DoubleRatchet

open Protobuf

/-! ## Sessions -/

theorem StoredChainKey.schema_faithful : StoredChainKey.schema.Faithful 0 := by
  apply Schema.faithful_of_slots
  · decide
  · simp [StoredChainKey.schema]
  · intro depth message _ _
    simp [StoredChainKey.schema]

theorem StoredMessageKeys.schema_faithful : StoredMessageKeys.schema.Faithful 0 := by
  apply Schema.faithful_of_slots
  · decide
  · simp [StoredMessageKeys.schema]
  · intro depth message _ _
    simp [StoredMessageKeys.schema]

theorem Chain.schema_faithful : Chain.schema.Faithful 1 := by
  apply Schema.faithful_of_slots
  · decide
  · simp [Chain.schema]
  · intro depth message deep short
    obtain ⟨depth, rfl⟩ := Nat.exists_eq_add_of_le' deep
    simp only [Chain.schema, List.forall_mem_cons] at short ⊢
    obtain ⟨-, -, key, cache, -⟩ := short
    simp [StoredChainKey.schema_faithful.message_restore (Nat.zero_le _) key,
      StoredMessageKeys.schema_faithful.messages_restore (Nat.zero_le _) cache]

theorem StoredKeyExchange.schema_faithful : StoredKeyExchange.schema.Faithful 0 := by
  apply Schema.faithful_of_slots
  · decide
  · simp [StoredKeyExchange.schema]
  · intro depth message _ _
    simp [StoredKeyExchange.schema]

theorem StoredPendingPreKey.schema_faithful : StoredPendingPreKey.schema.Faithful 0 := by
  apply Schema.faithful_of_slots
  · decide
  · simp [StoredPendingPreKey.schema]
  · rintro depth ⟨preKeyId, baseKey, signedPreKeyId⟩ _ _
    cases preKeyId with
    | none => simp [StoredPendingPreKey.schema]
    | some id => simp [StoredPendingPreKey.schema]

namespace SessionState

theorem schema_faithful : SessionState.schema.Faithful 2 := by
  apply Schema.faithful_of_slots
  · decide
  · simp [SessionState.schema]
  · intro depth message deep short
    obtain ⟨depth, rfl⟩ := Nat.exists_eq_add_of_le' deep
    simp only [SessionState.schema, List.forall_mem_cons] at short ⊢
    obtain ⟨-, -, -, -, -, sender, receivers, exchange, pending, -⟩ := short
    have chain : 1 ≤ depth + 1 := Nat.le_add_left _ _
    simp [Chain.schema_faithful.message_restore chain sender, Chain.schema_faithful.messages_restore chain receivers,
      StoredKeyExchange.schema_faithful.message_restore (Nat.zero_le _) exchange,
      StoredPendingPreKey.schema_faithful.message_restore (Nat.zero_le _) pending]

theorem decode_encode (state : SessionState) (short : state.encode.length < UInt64.size) :
    decode state.encode = .ok state := by
  rw [decode, encode, schema_faithful.decode?_encode (by decide) short]

end SessionState

namespace SessionRecord

theorem schema_faithful : SessionRecord.schema.Faithful 3 := by
  apply Schema.faithful_of_slots
  · decide
  · simp [SessionRecord.schema]
  · intro depth message deep short
    obtain ⟨depth, rfl⟩ := Nat.exists_eq_add_of_le' deep
    simp only [SessionRecord.schema, List.forall_mem_cons] at short ⊢
    obtain ⟨current, archived, -⟩ := short
    have state : 2 ≤ depth + 2 := Nat.le_add_left _ _
    simp [SessionState.schema_faithful.message_restore state current,
      SessionState.schema_faithful.messages_restore state archived]

theorem decode_encode (record : SessionRecord) (short : record.encode.length < UInt64.size) :
    decode record.encode = .ok record := by
  rw [decode, encode, schema_faithful.decode?_encode (by decide) short]

end SessionRecord

/-! ## Groups -/

namespace Group

theorem StoredSeed.schema_faithful : StoredSeed.schema.Faithful 0 := by
  apply Schema.faithful_of_slots
  · decide
  · simp [StoredSeed.schema]
  · intro depth message _ _
    simp [StoredSeed.schema]

theorem StoredSigningKey.schema_faithful : StoredSigningKey.schema.Faithful 0 := by
  apply Schema.faithful_of_slots
  · decide
  · simp [StoredSigningKey.schema]
  · intro depth message _ _
    simp [StoredSigningKey.schema]

theorem SenderKeyState.schema_faithful : SenderKeyState.schema.Faithful 1 := by
  apply Schema.faithful_of_slots
  · decide
  · simp [SenderKeyState.schema]
  · intro depth message deep short
    obtain ⟨depth, rfl⟩ := Nat.exists_eq_add_of_le' deep
    simp only [SenderKeyState.schema, List.forall_mem_cons] at short ⊢
    obtain ⟨-, chain, signing, cache, -⟩ := short
    simp [StoredSeed.schema_faithful.message_restore (Nat.zero_le _) chain,
      StoredSigningKey.schema_faithful.message_restore (Nat.zero_le _) signing,
      StoredSeed.schema_faithful.messages_restore (Nat.zero_le _) cache]

namespace SenderKeyRecord

theorem schema_faithful : SenderKeyRecord.schema.Faithful 2 := by
  apply Schema.faithful_of_slots
  · decide
  · simp [SenderKeyRecord.schema]
  · intro depth message deep short
    obtain ⟨depth, rfl⟩ := Nat.exists_eq_add_of_le' deep
    simp only [SenderKeyRecord.schema, List.forall_mem_cons] at short ⊢
    simp [SenderKeyState.schema_faithful.messages_restore (Nat.le_add_left 1 depth) short.1]

theorem decode_encode (record : SenderKeyRecord) (short : record.encode.length < UInt64.size) :
    decode record.encode = .ok record := by
  rw [decode, encode, schema_faithful.decode?_encode (by decide) short]

end SenderKeyRecord

end Group

/-! ## Keys -/

namespace PreKeyRecord

theorem decode_encode (record : PreKeyRecord) : decode record.encode = .ok record := by
  have fits : ∀ slot ∈ schema.slots, slot.Fits
      ⟨record.id, record.keyPair.publicKey.serialize, record.keyPair.privateKey.serialize⟩ := by
    simp [schema, PublicKey.serialize_fits, PrivateKey.serialize_fits]
  rw [decode, encode, schema.decode?_encode (by decide) fits]
  simp [schema, KeyPair.deserialize_serialize, Functor.map, Except.map]

end PreKeyRecord

namespace SignedPreKeyRecord

theorem schema_faithful : SignedPreKeyRecord.schema.Faithful 0 := by
  apply Schema.faithful_of_slots
  · decide
  · simp [SignedPreKeyRecord.schema]
  · intro depth message _ _
    simp [SignedPreKeyRecord.schema]

theorem decode_encode (record : SignedPreKeyRecord) (short : record.encode.length < UInt64.size) :
    decode record.encode = .ok record := by
  rw [decode, encode, schema_faithful.decode?_encode (by decide) short]
  simp [KeyPair.deserialize_serialize, Functor.map, Except.map]

end SignedPreKeyRecord

theorem KeyPair.decode_encode (pair : KeyPair) : decode pair.encode = .ok pair := by
  have fits : ∀ slot ∈ StoredKeyPair.schema.slots, slot.Fits (.ofKeyPair pair) := by
    simp [StoredKeyPair.schema, StoredKeyPair.ofKeyPair, PublicKey.serialize_fits, PrivateKey.serialize_fits]
  rw [decode, encode, StoredKeyPair.schema.decode?_encode (by decide) fits]
  simp [StoredKeyPair.schema, StoredKeyPair.load, StoredKeyPair.ofKeyPair, KeyPair.deserialize_serialize]

end DoubleRatchet
