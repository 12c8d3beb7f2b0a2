import DoubleRatchet.Message.PreKey
import DoubleRatchet.Session.Handshake
import DoubleRatchet.Store.Call

/-!
How sessions begin: a device publishes a bundle of keys, another one starts a session from it and announces the
keys it used in its first messages, and these let the first device set up its side.
-/
namespace DoubleRatchet.Session

variable {m : Type → Type} [Monad m] [Host m]

def requireTrusted (peer : Address) (identity : PublicKey) (direction : Direction) : m Unit := do
  if ← Host.call (.isTrusted peer identity direction) then return
  else
    note .warn s!"{direction.name} refused: identity {identity.hex} is not trusted for {peer.display}"
    throw (m := Act) (.untrustedIdentity peer)

/-- The record of a peer that must have one. -/
def existing (peer : Address) : m SessionRecord := do
  match ← Host.call (.loadSession peer) with
  | some record => return record
  | none => throw (m := Act) (.noSession peer)

/-- The record of a peer, or a fresh one. -/
def existingOrFresh (peer : Address) : m SessionRecord := do
  return (← Host.call (.loadSession peer)).getD .fresh

/-- Publishes a new signed key, and a new one-time key if it is given a number. -/
def publish (signedPreKeyId : UInt32) (timestamp : UInt64) (preKeyId : Option UInt32) : m PreKeyBundle := do
  let identity ← Host.call .ownIdentity
  let signedPreKey ← (KeyPair.generate : Act KeyPair)
  let signature ← (identity.privateKey.sign signedPreKey.publicKey.serialize : Act (FixedBytes 64))
  Host.call (.saveSignedPreKey signedPreKeyId ⟨signedPreKeyId, timestamp, signedPreKey, signature.bytes⟩)
  let preKey ← match preKeyId with
    | none => pure none
    | some id => do
      let pair ← (KeyPair.generate : Act KeyPair)
      Host.call (.savePreKey id ⟨id, pair⟩)
      pure (some (id, pair.publicKey))
  return {
    registrationId := ← Host.call .registrationId, deviceId := 1, preKey, signedPreKeyId,
    signedPreKey := some signedPreKey.publicKey, signature := signature.bytes,
    identityKey := identity.publicKey }

/-- Starts a session with the owner of a bundle. Its messages announce the keys of the bundle until the first
answer. -/
def acceptBundle (peer : Address) (bundle : PreKeyBundle) : m Unit := do
  requireTrusted peer bundle.identityKey .sending
  let signedPreKey ← (bundle.verified : Act PublicKey)
  let record ← existingOrFresh peer
  let base ← (KeyPair.generate : Act KeyPair)
  let keys : Handshake.Initiator := {
    identity := ← Host.call .ownIdentity, base, peerIdentity := bundle.identityKey,
    peerSignedPreKey := signedPreKey, peerOneTimePreKey := bundle.preKey.map (·.2),
    peerRatchetKey := signedPreKey }
  let state ← keys.run
  let preKeyId := bundle.preKey.map (·.1)
  note .info <|
    s!"session with {peer.display} will announce signed prekey {bundle.signedPreKeyId} and one-time prekey " ++
    showOptional preKeyId
  let state := state.withPendingPreKey ⟨preKeyId, bundle.signedPreKeyId, base.publicKey⟩
  let state := state.withRegistrationIds (← Host.call .registrationId) bundle.registrationId
  record.noteArchiving
  Host.call (.storeSession peer (record.install state))
  let _ ← Host.call (.saveIdentity peer bundle.identityKey)

/-- The key pair of a one-time key that a message names, and a note if it names none. -/
def oneTimeKey (peer : Address) : Option UInt32 → m (Option KeyPair)
  | some id => return some (← Host.call (.preKey id)).keyPair
  | none => do
    note .warn s!"{peer.display} started a session without a one-time prekey"
    return none

/-- The record with the responder's state for a message, and the number of the one-time key that the state was
built from. A message whose handshake has been answered leaves the record as it is. -/
def respond (peer : Address) (record : SessionRecord) (message : PreKeyMessage) :
    m (SessionRecord × Option UInt32) := do
  if record.hasStateFor message.version.toUInt32 message.baseKey then
    note .info s!"{peer.display} repeated base key {message.baseKey.hex}, session already set up"
    return (record, none)
  else
    let signedPreKey := (← Host.call (.signedPreKey message.signedPreKeyId)).keyPair
    let oneTimePreKey ← oneTimeKey peer message.preKeyId
    let keys : Handshake.Responder := {
      identity := ← Host.call .ownIdentity, signedPreKey, oneTimePreKey, ratchet := signedPreKey,
      peerIdentity := message.identityKey, peerBaseKey := message.baseKey }
    let state ← keys.run
    let state := state.withRegistrationIds (← Host.call .registrationId) message.registrationId
    record.noteArchiving
    return (record.install state, message.preKeyId.filter (· != noPreKey))

/-- Accepts the handshake of a message from a trusted identity: the record that comes of it, also if the identity
cannot be saved, and the number of the one-time key that was used. -/
def acceptMessage [MonadExceptOf Fault m] (peer : Address) (record : SessionRecord) (message : PreKeyMessage) :
    m (SessionRecord × Except Fault (Option UInt32)) := do
  match ← observe do
      requireTrusted peer message.identityKey .receiving
      respond peer record message with
  | .error fault => return (record, .error fault)
  | .ok (record, used) =>
    match ← observe (Host.call (.saveIdentity peer message.identityKey)) with
    | .error fault => return (record, .error fault)
    | .ok _ => return (record, .ok used)

/-- Makes a state current in the record of a peer. -/
def installState (peer : Address) (state : SessionState) : m Unit := do
  let record ← existingOrFresh peer
  record.noteArchiving
  Host.call (.storeSession peer (record.install state))

/-- Archives the current state of a peer, so that the next message to it needs a new session. -/
def archive (peer : Address) : m Unit := do
  let record ← existingOrFresh peer
  record.noteArchiving
  Host.call (.storeSession peer record.archive)

end DoubleRatchet.Session
