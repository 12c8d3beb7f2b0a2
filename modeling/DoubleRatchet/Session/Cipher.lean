import DoubleRatchet.Message
import DoubleRatchet.Session.Establish
import DoubleRatchet.Session.Trial

/-!
Encryption and decryption over the stores. A message is decrypted on a copy of the record, which is stored when
all has gone well.
-/
namespace DoubleRatchet.Session

variable {m : Type → Type} [Monad m] [Host m]

/-- The current state of a record that must have one. -/
def currentState (peer : Address) (record : SessionRecord) : Except Fault SessionState :=
  match record.current with
  | some state => .ok state
  | none => .error (.noSession peer)

/-- The next message of a state, and the identity it is meant for. -/
def nextMessage (peer : Address) (state : SessionState) (plaintext : Bytes) : Act (Message × PublicKey) := do
  let chain ← state.sendingChainKey
  let keys := chain.messageKeys
  let version := state.version.toUInt8
  let localIdentity ← state.localIdentityKey
  match ← state.remoteIdentityKey? with
  | none => throw (.badState "encrypt" s!"no identity stored for {peer.display}")
  | some remoteIdentity =>
    let body := Cipher.encrypt keys.cipherKey keys.iv plaintext
    let message := RatchetMessage.create version keys.macKey (← state.ratchetKey) chain.index
      state.previousCounter body localIdentity remoteIdentity
    match ← state.pendingPreKey? with
    | none => return (.ratchet message, remoteIdentity)
    | some pending =>
      note .info s!"message {chain.index} to {peer.display} carries prekey {showOptional pending.preKeyId}"
      return (.preKey (.create version state.localRegistrationId pending.preKeyId pending.signedPreKeyId
        pending.baseKey localIdentity message), remoteIdentity)

def encrypt (peer : Address) (plaintext : Bytes) : m Message := do
  let record ← existing peer
  let state ← (currentState peer record : Act SessionState)
  let (message, remoteIdentity) ← nextMessage peer state plaintext
  let chain ← (state.sendingChainKey : Act ChainKey)
  let record := { record with current := some (state.withSendingChainKey chain.next) }
  requireTrusted peer remoteIdentity .sending
  let _ ← Host.call (.saveIdentity peer remoteIdentity)
  Host.call (.storeSession peer record)
  return message

/-- Decrypts a message that opens a session, and gives its keys. The one-time key that it used is removed. -/
def decryptPreKey [MonadExceptOf Fault m] (peer : Address) (message : PreKeyMessage) :
    m (Bytes × MessageKeys) := do
  let record ← existingOrFresh peer
  let (record, accepted) ← acceptMessage peer record message
  match accepted with
  | .error fault =>
    note .error <|
      s!"could not set up session from prekey message of {peer.display}: {fault.message}\n" ++ record.describe
    throw (m := Act) fault
  | .ok used =>
    let (record, opened) ← record.decrypt peer message.message
    Host.call (.storeSession peer record)
    match used with
    | some id => Host.call (.removePreKey id)
    | none => pure ()
    return (opened.plaintext, opened.keys)

/-- Decrypts a message of an established session, and gives its keys. -/
def decryptRatchet (peer : Address) (message : RatchetMessage) : m (Bytes × MessageKeys) := do
  let record ← existing peer
  let (record, opened) ← record.decrypt peer message
  let state ← (currentState peer record : Act SessionState)
  let remoteIdentity ← (state.remoteIdentityKey : Act PublicKey)
  requireTrusted peer remoteIdentity .receiving
  let _ ← Host.call (.saveIdentity peer remoteIdentity)
  Host.call (.storeSession peer record)
  return (opened.plaintext, opened.keys)

def decrypt [MonadExceptOf Fault m] (peer : Address) : Message → m Bytes
  | .ratchet message => return (← decryptRatchet peer message).1
  | .preKey message => return (← decryptPreKey peer message).1
  | message => throw (m := Act) (.badArgument s!"{message.kind.name} messages belong to a group cipher")

/-- Decrypts a message again with the keys that it was decrypted with before. -/
def decryptWithKeys (peer : Address) (message : RatchetMessage) (keys : MessageKeys) : m Bytes := do
  let record ← existing peer
  let state ← (currentState peer record : Act SessionState)
  let remoteIdentity ← (state.remoteIdentityKey : Act PublicKey)
  let localIdentity ← (state.localIdentityKey : Act PublicKey)
  message.open keys remoteIdentity localIdentity

def remoteRegistrationId (peer : Address) : m UInt32 := do
  let record ← existing peer
  return (← (currentState peer record : Act SessionState)).remoteRegistrationId

/-- The version of the session with a peer. -/
def version (peer : Address) : m UInt32 := do
  let record ← existing peer
  return (← (currentState peer record : Act SessionState)).version

end DoubleRatchet.Session
