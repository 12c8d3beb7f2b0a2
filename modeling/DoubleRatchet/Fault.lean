import DoubleRatchet.Address
import DoubleRatchet.Bytes

/-!
The causes for which an operation of the library fails, and the text of each.
-/
namespace DoubleRatchet

inductive Fault where
  /-- A caller's argument cannot be used. -/
  | badArgument (text : String)
  /-- An operation does not apply to the present state. -/
  | badState (operation detail : String)
  /-- The body of a message or record is no protobuf encoding of its schema. -/
  | undecodableBody
  /-- The contents of a message break its form. -/
  | malformedBody
  | messageTooShort (length : Nat)
  | legacyVersion (version : UInt8)
  | futureVersion (version : UInt8)
  /-- A message of another version than the session's. -/
  | versionMismatch (version : UInt32)
  | missingField (name : String)
  | emptyKey
  | badKeyType (tag : UInt8)
  | badKeyLength (length : Nat)
  | untrustedIdentity (peer : Address)
  | noSignedPreKey
  | badBundleSignature
  | badGroupSignature
  | unknownPreKey
  | unknownSignedPreKey
  | badMac
  | badCipherParameters (keyLength ivLength : Nat)
  | badCiphertext
  /-- A message behind its chain whose key is no longer kept. -/
  | duplicate (index counter : UInt32)
  /-- A message too many steps ahead of its chain. -/
  | tooFarAhead (steps : UInt32)
  | noSession (peer : Address)
  | corruptSession (what : String)
  | noSenderKey
  | noSigningKey
  /-- A store of the application failed in the named call. -/
  | store (callback text : String)
  deriving DecidableEq

namespace Fault

def message : Fault → String
  | badArgument text => s!"bad argument: {text}"
  | badState operation detail => s!"{operation} cannot proceed: {detail}"
  | undecodableBody => "could not decode protobuf body"
  | malformedBody => "malformed protobuf contents"
  | messageTooShort length => s!"serialized message of {length} bytes is too short"
  | legacyVersion version => s!"ciphertext version {version} is no longer supported"
  | futureVersion version => s!"ciphertext version {version} is newer than this library"
  | versionMismatch version => s!"message version {version} does not match the session"
  | missingField name => s!"message lacks its {name}"
  | emptyKey => "serialized key is empty"
  | badKeyType tag => s!"unknown key type byte 0x{Bytes.hex [tag]}"
  | badKeyLength length => s!"<curve25519 key type> key cannot be {length} bytes long"
  | untrustedIdentity peer => s!"identity key of {peer.display} is not trusted"
  | noSignedPreKey => "bundle carries no signed prekey"
  | badBundleSignature => "signed prekey signature does not verify"
  | badGroupSignature => "sender key message signature does not verify"
  | unknownPreKey => "unknown prekey id"
  | unknownSignedPreKey => "unknown signed prekey id"
  | badMac => "message authentication failed"
  | badCipherParameters keyLength ivLength =>
    s!"cipher key of {keyLength} bytes or IV of {ivLength} bytes is unusable"
  | badCiphertext => "ciphertext could not be decrypted"
  | duplicate index counter => s!"counter {counter} is behind chain index {index} and has no cached key"
  | tooFarAhead steps => s!"message is {steps} steps ahead of its chain"
  | noSession peer => s!"no session with {peer.display}"
  | corruptSession what => s!"stored session is corrupt: {what}"
  | noSenderKey => "no sender key state for this message"
  | noSigningKey => "sender key state has no private signing key"
  | store callback text => s!"store callback {callback} failed: {text}"

end Fault

end DoubleRatchet
