import DoubleRatchet.Key
import DoubleRatchet.Message.Frame

/-!
The message by which a sender gives the members of a group its chain, from its present iteration on.
-/
namespace DoubleRatchet

open Protobuf

structure KeyDistribution where
  version : UInt8
  keyId : UInt32
  iteration : UInt32
  chainKey : Bytes
  signingKey : PublicKey
  /-- The message as it travels. -/
  serialized : Bytes
  deriving DecidableEq

namespace KeyDistribution

structure Body where
  keyId : Option UInt32 := none
  iteration : Option UInt32 := none
  chainKey : Option Bytes := none
  signingKey : Option Bytes := none

def schema : Schema Body where
  empty := {}
  slots := [
    .optionalUint32 1 Body.keyId fun m v => { m with keyId := v },
    .optionalUint32 2 Body.iteration fun m v => { m with iteration := v },
    .optionalBytes 3 Body.chainKey fun m v => { m with chainKey := v },
    .optionalBytes 4 Body.signingKey fun m v => { m with signingKey := v }]

def create (version : UInt8) (keyId iteration : UInt32) (chainKey : Bytes) (signingKey : PublicKey) :
    KeyDistribution where
  version
  keyId
  iteration
  chainKey
  signingKey
  serialized := Frame.write version schema
    { keyId := some keyId, iteration := some iteration, chainKey := some chainKey,
      signingKey := some signingKey.serialize }

/-- Reads a message, whose chain key must have 32 bytes. -/
def parse (bytes : Bytes) : Except Fault KeyDistribution := do
  let parts ← Frame.read schema 0 bytes
  let keyId ← Frame.required "key id" parts.body.keyId
  let chainKey ← Frame.required "chain key" parts.body.chainKey
  let signingKey ← Frame.required "signing key" parts.body.signingKey
  if chainKey.length ≠ 32 then throw .malformedBody
  return {
    version := parts.version, keyId, iteration := parts.body.iteration.getD 0, chainKey,
    signingKey := ← PublicKey.deserialize signingKey, serialized := bytes }

end KeyDistribution

end DoubleRatchet
