import DoubleRatchet.Key
import DoubleRatchet.Protobuf.Schema

/-!
The keys that a device keeps ready for handshakes, in their stored form, and the bundle in which it publishes
them.
-/
namespace DoubleRatchet

open Protobuf

/-- A key pair for one handshake. -/
structure PreKeyRecord where
  id : UInt32
  keyPair : KeyPair
  deriving DecidableEq

namespace PreKeyRecord

structure Stored where
  id : UInt32 := 0
  publicKey : Bytes := []
  privateKey : Bytes := []

def schema : Schema Stored where
  empty := {}
  slots := [
    .uint32 1 Stored.id fun m v => { m with id := v },
    .bytes 2 Stored.publicKey fun m v => { m with publicKey := v },
    .bytes 3 Stored.privateKey fun m v => { m with privateKey := v }]

def encode (record : PreKeyRecord) : Bytes :=
  schema.encode ⟨record.id, record.keyPair.publicKey.serialize, record.keyPair.privateKey.serialize⟩

def decode (bytes : Bytes) : Except Fault PreKeyRecord :=
  match schema.decode? bytes with
  | some stored => return ⟨stored.id, ← KeyPair.deserialize stored.publicKey stored.privateKey⟩
  | none => .error .undecodableBody

end PreKeyRecord

/-- A key pair for any number of handshakes, with a signature by the device's identity. -/
structure SignedPreKeyRecord where
  id : UInt32
  timestamp : UInt64
  keyPair : KeyPair
  signature : Bytes
  deriving DecidableEq

namespace SignedPreKeyRecord

structure Stored where
  id : UInt32 := 0
  publicKey : Bytes := []
  privateKey : Bytes := []
  signature : Bytes := []
  timestamp : UInt64 := 0

def schema : Schema Stored where
  empty := {}
  slots := [
    .uint32 1 Stored.id fun m v => { m with id := v },
    .bytes 2 Stored.publicKey fun m v => { m with publicKey := v },
    .bytes 3 Stored.privateKey fun m v => { m with privateKey := v },
    .bytes 4 Stored.signature fun m v => { m with signature := v },
    .fixed64 5 Stored.timestamp fun m v => { m with timestamp := v }]

def encode (record : SignedPreKeyRecord) : Bytes :=
  schema.encode {
    id := record.id, publicKey := record.keyPair.publicKey.serialize,
    privateKey := record.keyPair.privateKey.serialize, signature := record.signature,
    timestamp := record.timestamp }

def decode (bytes : Bytes) : Except Fault SignedPreKeyRecord :=
  match schema.decode? bytes with
  | some stored => return {
      id := stored.id, timestamp := stored.timestamp,
      keyPair := ← KeyPair.deserialize stored.publicKey stored.privateKey, signature := stored.signature }
  | none => .error .undecodableBody

end SignedPreKeyRecord

/-- The number that stands for no one-time key where a number is expected. -/
def noPreKey : UInt32 := 0xffffff

/-- What another device needs to begin a session. -/
structure PreKeyBundle where
  registrationId : UInt32
  deviceId : UInt32
  preKey : Option (UInt32 × PublicKey)
  signedPreKeyId : UInt32
  signedPreKey : Option PublicKey
  signature : Bytes
  identityKey : PublicKey
  deriving DecidableEq

/-- The signed key of a bundle, if the bundle's identity has signed it. -/
def PreKeyBundle.verified (bundle : PreKeyBundle) : Except Fault PublicKey :=
  match bundle.signedPreKey with
  | none => .error .noSignedPreKey
  | some key =>
    if bundle.identityKey.verify key.serialize bundle.signature then .ok key else .error .badBundleSignature

end DoubleRatchet
