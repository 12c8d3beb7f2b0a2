import DoubleRatchet.Key
import DoubleRatchet.Message.Frame

/-!
The message of a sender to a group: a ciphertext, where its key is to be found, and a signature.
-/
namespace DoubleRatchet

open Protobuf

structure GroupMessage where
  version : UInt8
  keyId : UInt32
  iteration : UInt32
  ciphertext : Bytes
  /-- What the signature covers of the message, byte for byte. -/
  content : Bytes
  signature : FixedBytes 64
  deriving DecidableEq

namespace GroupMessage

structure Body where
  keyId : Option UInt32 := none
  iteration : Option UInt32 := none
  ciphertext : Option Bytes := none

def schema : Schema Body where
  empty := {}
  slots := [
    .optionalUint32 1 Body.keyId fun m v => { m with keyId := v },
    .optionalUint32 2 Body.iteration fun m v => { m with iteration := v },
    .optionalBytes 3 Body.ciphertext fun m v => { m with ciphertext := v }]

def serialized (message : GroupMessage) : Bytes := message.content ++ message.signature.bytes

def create (version : UInt8) (keyId iteration : UInt32) (ciphertext : Bytes) (signingKey : PrivateKey) :
    StateM Entropy GroupMessage := do
  let content := Frame.write version schema
    { keyId := some keyId, iteration := some iteration, ciphertext := some ciphertext }
  return { version, keyId, iteration, ciphertext, content, signature := ← signingKey.sign content }

/-- Reads a message; the signature remains to be verified. -/
def parse (bytes : Bytes) : Except Fault GroupMessage := do
  let parts ← Frame.read schema 64 bytes
  let keyId ← Frame.required "key id" parts.body.keyId
  let ciphertext ← Frame.required "ciphertext" parts.body.ciphertext
  return {
    version := parts.version, keyId, iteration := parts.body.iteration.getD 0, ciphertext,
    content := parts.content, signature := parts.trailer }

/-- Whether the message was signed by the owner of a key. -/
def verify (message : GroupMessage) (signingKey : PublicKey) : Bool :=
  signingKey.verify message.content message.signature.bytes

end GroupMessage

end DoubleRatchet
