import DoubleRatchet.Message.Ratchet

/-!
The message that opens a session: a message of the session to be, and what the receiver needs for its side of
the handshake.
-/
namespace DoubleRatchet

open Protobuf

structure PreKeyMessage where
  version : UInt8
  registrationId : UInt32
  preKeyId : Option UInt32
  signedPreKeyId : UInt32
  baseKey : PublicKey
  identityKey : PublicKey
  message : RatchetMessage
  /-- The message as it travels. -/
  serialized : Bytes
  deriving DecidableEq

namespace PreKeyMessage

structure Body where
  preKeyId : Option UInt32 := none
  baseKey : Option Bytes := none
  identityKey : Option Bytes := none
  message : Option Bytes := none
  registrationId : Option UInt32 := none
  signedPreKeyId : Option UInt32 := none

def schema : Schema Body where
  empty := {}
  slots := [
    .optionalUint32 1 Body.preKeyId fun m v => { m with preKeyId := v },
    .optionalBytes 2 Body.baseKey fun m v => { m with baseKey := v },
    .optionalBytes 3 Body.identityKey fun m v => { m with identityKey := v },
    .optionalBytes 4 Body.message fun m v => { m with message := v },
    .optionalUint32 5 Body.registrationId fun m v => { m with registrationId := v },
    .optionalUint32 6 Body.signedPreKeyId fun m v => { m with signedPreKeyId := v }]

def create (version : UInt8) (registrationId : UInt32) (preKeyId : Option UInt32) (signedPreKeyId : UInt32)
    (baseKey identityKey : PublicKey) (message : RatchetMessage) : PreKeyMessage where
  version
  registrationId
  preKeyId
  signedPreKeyId
  baseKey
  identityKey
  message
  serialized := Frame.write version schema
    { preKeyId, baseKey := some baseKey.serialize, identityKey := some identityKey.serialize,
      message := some message.serialized, registrationId := some registrationId,
      signedPreKeyId := some signedPreKeyId }

/-- Reads a message and the one inside it. -/
def parse (bytes : Bytes) : Except Fault PreKeyMessage := do
  let parts ← Frame.read schema 0 bytes
  let baseKey ← Frame.required "base key" parts.body.baseKey
  let identityKey ← Frame.required "identity key" parts.body.identityKey
  let message ← Frame.required "message" parts.body.message
  return {
    version := parts.version, registrationId := parts.body.registrationId.getD 0, preKeyId := parts.body.preKeyId,
    signedPreKeyId := parts.body.signedPreKeyId.getD 0, baseKey := ← PublicKey.deserialize baseKey,
    identityKey := ← PublicKey.deserialize identityKey, message := ← RatchetMessage.parse message,
    serialized := bytes }

end PreKeyMessage

end DoubleRatchet
