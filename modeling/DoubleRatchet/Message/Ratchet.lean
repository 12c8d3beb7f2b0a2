import DoubleRatchet.KeySchedule
import DoubleRatchet.Message.Frame

/-!
The message of an established session: a ciphertext, where its key is to be found, and a MAC that binds it to
both identities.
-/
namespace DoubleRatchet

open Protobuf

structure RatchetMessage where
  version : UInt8
  ratchetKey : PublicKey
  counter : UInt32
  previousCounter : UInt32
  body : Bytes
  /-- What the MAC covers of the message, byte for byte. -/
  content : Bytes
  mac : FixedBytes 8
  deriving DecidableEq

namespace RatchetMessage

structure Body where
  ratchetKey : Option Bytes := none
  counter : Option UInt32 := none
  previousCounter : Option UInt32 := none
  ciphertext : Option Bytes := none

def schema : Schema Body where
  empty := {}
  slots := [
    .optionalBytes 1 Body.ratchetKey fun m v => { m with ratchetKey := v },
    .optionalUint32 2 Body.counter fun m v => { m with counter := v },
    .optionalUint32 3 Body.previousCounter fun m v => { m with previousCounter := v },
    .optionalBytes 4 Body.ciphertext fun m v => { m with ciphertext := v }]

def serialized (message : RatchetMessage) : Bytes := message.content ++ message.mac.bytes

/-- What the MAC is computed over: since version 3 the identities too, that of the sender first. -/
def macInput (version : UInt8) (sender receiver : PublicKey) (content : Bytes) : Bytes :=
  (if 3 ≤ version then sender.serialize ++ receiver.serialize else []) ++ content

def authenticate (version : UInt8) (macKey : Key) (sender receiver : PublicKey) (content : Bytes) : FixedBytes 8 :=
  (Hash.hmac macKey.bytes (macInput version sender receiver content)).slice 0 8

/-- A byte string as a key for the MAC. -/
def macKey (bytes : Bytes) : Except Fault Key :=
  match FixedBytes.ofBytes? 32 bytes with
  | some key => .ok key
  | none => .error (.badArgument s!"MAC key must be 32 bytes, got {bytes.length}")

def create (version : UInt8) (macKey : Key) (ratchetKey : PublicKey) (counter previousCounter : UInt32)
    (ciphertext : Bytes) (sender receiver : PublicKey) : RatchetMessage :=
  let content := Frame.write version schema
    { ratchetKey := some ratchetKey.serialize, counter := some counter,
      previousCounter := some previousCounter, ciphertext := some ciphertext }
  { version, ratchetKey, counter, previousCounter, body := ciphertext, content,
    mac := authenticate version macKey sender receiver content }

/-- Reads a message; the MAC remains to be verified. -/
def parse (bytes : Bytes) : Except Fault RatchetMessage := do
  let parts ← Frame.read schema 8 bytes
  let ratchetKey ← PublicKey.deserialize (← Frame.required "ratchet key" parts.body.ratchetKey)
  let ciphertext ← Frame.required "ciphertext" parts.body.ciphertext
  return {
    version := parts.version, ratchetKey, counter := parts.body.counter.getD 0,
    previousCounter := parts.body.previousCounter.getD 0, body := ciphertext, content := parts.content,
    mac := parts.trailer }

def expectedMac (message : RatchetMessage) (macKey : Key) (sender receiver : PublicKey) : FixedBytes 8 :=
  authenticate message.version macKey sender receiver message.content

/-- Whether the message has the MAC it should have. -/
def verifyMac (message : RatchetMessage) (macKey : Key) (sender receiver : PublicKey) : Bool :=
  message.expectedMac macKey sender receiver == message.mac

end RatchetMessage

end DoubleRatchet
