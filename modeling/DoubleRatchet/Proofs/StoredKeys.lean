import DoubleRatchet.Proofs.Computation
import DoubleRatchet.Session.State

/-! Keys and their stored forms: what has been stored is read back, and nothing else is read as it. -/
namespace DoubleRatchet

namespace PublicKey

theorem deserialize_eq_ok {bytes : Bytes} {key : PublicKey} : deserialize bytes = .ok key ↔ bytes = key.serialize := by
  constructor
  · intro run
    unfold deserialize at run
    split at run
    · cases run
    · rename_i tag body
      split at run
      · cases run
      · rename_i typed
        split at run
        · rename_i raw found
          cases run
          rw [FixedBytes.ofBytes?_eq_some_iff.mp found, Decidable.not_not.mp typed]
          rfl
        · cases run
  · rintro rfl
    simp [deserialize, serialize]

@[simp] theorem deserialize_serialize (key : PublicKey) : deserialize key.serialize = .ok key :=
  deserialize_eq_ok.mpr rfl

theorem serialize_injective : Function.Injective serialize := by
  intro a b same
  have := deserialize_serialize a
  rw [same, deserialize_serialize] at this
  cases this
  rfl

theorem length_serialize (key : PublicKey) : key.serialize.length = 33 :=
  congrArg Nat.succ key.raw.length_bytes

theorem serialize_fits (key : PublicKey) : key.serialize.length < UInt64.size := by
  rw [length_serialize]
  decide

@[simp] theorem serialize_isEmpty (key : PublicKey) : key.serialize.isEmpty = false := rfl

end PublicKey

@[simp] theorem PrivateKey.serialize_isEmpty (key : PrivateKey) : key.serialize.isEmpty = false := by
  rw [List.isEmpty_eq_false_iff_exists_mem]
  exact List.exists_mem_of_length_pos (by rw [serialize, key.raw.length_bytes]; decide)

theorem PrivateKey.serialize_fits (key : PrivateKey) : key.serialize.length < UInt64.size := by
  rw [serialize, key.raw.length_bytes]
  decide

theorem PrivateKey.deserialize_serialize (key : PrivateKey) : deserialize key.serialize = .ok key := by
  obtain ⟨raw, clamped⟩ := key
  simp only [deserialize, serialize, FixedBytes.ofBytes?_bytes, ofBytes]
  congr

theorem KeyPair.deserialize_serialize (pair : KeyPair) :
    KeyPair.deserialize pair.publicKey.serialize pair.privateKey.serialize = .ok pair := by
  rw [KeyPair.deserialize, PublicKey.deserialize_serialize, PrivateKey.deserialize_serialize]
  rfl

theorem exactBytes_eq_ok {n : Nat} {bytes : Bytes} {complaint : String} {block : FixedBytes n} :
    exactBytes n bytes complaint = .ok block ↔ bytes = block.bytes := by
  constructor
  · intro run
    unfold exactBytes at run
    split at run
    · rename_i found
      cases run
      exact FixedBytes.ofBytes?_eq_some_iff.mp found
    · cases run
  · rintro rfl
    simp [exactBytes]

@[simp] theorem exactBytes_bytes {n : Nat} (block : FixedBytes n) (complaint : String) :
    exactBytes n block.bytes complaint = .ok block :=
  exactBytes_eq_ok.mpr rfl

theorem StoredMessageKeys.load_eq_ok {stored : StoredMessageKeys} {keys : MessageKeys} :
    stored.load = .ok keys ↔ stored = .ofKeys keys := by
  constructor
  · intro run
    unfold load at run
    simp only [bind_eq_ok, exactBytes_eq_ok] at run
    obtain ⟨cipherKey, cipher, macKey, mac, iv, vector, made⟩ := run
    cases made
    rw [ofKeys, ← cipher, ← mac, ← vector]
  · rintro rfl
    simp [load, ofKeys, bind, Except.bind, pure, Except.pure]

@[simp] theorem StoredMessageKeys.load_ofKeys (keys : MessageKeys) : (ofKeys keys).load = .ok keys := load_eq_ok.mpr rfl

/-- The reserved number is not read back. -/
theorem StoredPendingPreKey.load_ofPending (pending : PendingPreKey) : (ofPending pending).load =
    .ok { pending with preKeyId := pending.preKeyId.filter (· != noPreKey) } := by
  simp only [load, ofPending, PublicKey.deserialize_serialize]
  rfl

end DoubleRatchet
