import DoubleRatchet.Act
import DoubleRatchet.Message.Frame
import DoubleRatchet.Session.State

/-!
The handshake: both sides reach the same root key from agreements between the same pairs of keys, each with the
private half of its own.
-/
namespace DoubleRatchet.Handshake

/-- What the initiator knows. -/
structure Initiator where
  identity : KeyPair
  base : KeyPair
  peerIdentity : PublicKey
  peerSignedPreKey : PublicKey
  peerOneTimePreKey : Option PublicKey
  peerRatchetKey : PublicKey

/-- What the responder knows. -/
structure Responder where
  identity : KeyPair
  signedPreKey : KeyPair
  oneTimePreKey : Option KeyPair
  ratchet : KeyPair
  peerIdentity : PublicKey
  peerBaseKey : PublicKey

/-- The agreements of the handshake, as the initiator computes them. -/
def Initiator.agreements (keys : Initiator) : List Bytes :=
  [keys.identity.privateKey.agree keys.peerSignedPreKey,
    keys.base.privateKey.agree keys.peerIdentity,
    keys.base.privateKey.agree keys.peerSignedPreKey] ++
  (keys.peerOneTimePreKey.map keys.base.privateKey.agree).toList

/-- The agreements of the handshake, as the responder computes them. -/
def Responder.agreements (keys : Responder) : List Bytes :=
  [keys.signedPreKey.privateKey.agree keys.peerIdentity,
    keys.identity.privateKey.agree keys.peerBaseKey,
    keys.signedPreKey.privateKey.agree keys.peerBaseKey] ++
  (keys.oneTimePreKey.map (·.privateKey.agree keys.peerBaseKey)).toList

/-- The initiator's state: it can receive on the chain of the responder's ratchet key, and has taken a step of the
ratchet with a new pair to send. -/
def Initiator.state (keys : Initiator) (ratchet : KeyPair) : SessionState :=
  let (root, receiving) := RootKey.ofAgreements keys.agreements
  let (root, sending) := root.derive keys.peerRatchetKey ratchet.privateKey
  ((SessionState.start Frame.currentVersion keys.identity.publicKey keys.peerIdentity root
    keys.base.publicKey).withReceivingChain keys.peerRatchetKey receiving).withSendingChain ratchet sending

/-- The responder's state: it sends on the chain of its ratchet key until the initiator's first message. -/
def Responder.state (keys : Responder) : SessionState :=
  let (root, sending) := RootKey.ofAgreements keys.agreements
  (SessionState.start Frame.currentVersion keys.identity.publicKey keys.peerIdentity root
    keys.peerBaseKey).withSendingChain keys.ratchet sending

def Initiator.run (keys : Initiator) : Act SessionState := do
  let ratchet ← KeyPair.generate
  note .info s!"new outgoing session, ratchet key {ratchet.publicKey.hex}"
  return keys.state ratchet

def Responder.run (keys : Responder) : Act SessionState := do
  note .info s!"new incoming session for base key {keys.peerBaseKey.hex}"
  return keys.state

end DoubleRatchet.Handshake
