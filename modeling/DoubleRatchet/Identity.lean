import DoubleRatchet.Key
import DoubleRatchet.Protobuf.Schema

/-!
The stored form of a device's identity.
-/
namespace DoubleRatchet

open Protobuf

/-- A key pair as two byte strings. -/
structure StoredKeyPair where
  publicKey : Bytes := []
  privateKey : Bytes := []

namespace StoredKeyPair

def schema : Schema StoredKeyPair where
  empty := {}
  slots := [
    .bytes 1 publicKey fun m v => { m with publicKey := v },
    .bytes 2 privateKey fun m v => { m with privateKey := v }]

def ofKeyPair (pair : KeyPair) : StoredKeyPair := ⟨pair.publicKey.serialize, pair.privateKey.serialize⟩

/-- The key pair; the public key is read first. -/
def load (stored : StoredKeyPair) : Except Fault KeyPair :=
  KeyPair.deserialize stored.publicKey stored.privateKey

end StoredKeyPair

namespace KeyPair

/-- The stored form of a pair of identity keys. -/
def encode (pair : KeyPair) : Bytes := StoredKeyPair.schema.encode (.ofKeyPair pair)

/-- Reads the stored form of a pair of identity keys. -/
def decode (bytes : Bytes) : Except Fault KeyPair :=
  match StoredKeyPair.schema.decode? bytes with
  | some stored => stored.load
  | none => .error .undecodableBody

end KeyPair

end DoubleRatchet
