import DoubleRatchet.Proofs.Session.Formed
import DoubleRatchet.Proofs.Session.Outcomes

/-! The states that a handshake leaves on both sides. They are formed between the same identities, and with the same
root key and chain if the key pairs of one side agree with those of the other. -/
namespace DoubleRatchet

/-- Whether the holders of two key pairs share a secret. -/
def KeyPair.Agrees (a b : KeyPair) : Prop := a.privateKey.agree b.publicKey = b.privateKey.agree a.publicKey

theorem Handshake.Initiator.state_formed (keys : Initiator) (ratchet : KeyPair) :
    let sending := (RootKey.ofAgreements keys.agreements).1.derive keys.peerRatchetKey ratchet.privateKey
    (keys.state ratchet).Formed keys.identity.publicKey keys.peerIdentity ratchet sending.1 sending.2 where
  version := rfl
  own := rfl
  remote := rfl
  root := rfl
  sender := rfl

theorem Handshake.Responder.state_formed (keys : Responder) :
    let start := RootKey.ofAgreements keys.agreements
    keys.state.Formed keys.identity.publicKey keys.peerIdentity keys.ratchet start.1 start.2 where
  version := rfl
  own := rfl
  remote := rfl
  root := rfl
  sender := rfl

def Stores.responder (stores : Stores) (message : PreKeyMessage) (signedPreKey : KeyPair)
    (oneTimePreKey : Option KeyPair) : Handshake.Responder where
  identity := stores.identity
  signedPreKey
  oneTimePreKey
  ratchet := signedPreKey
  peerIdentity := message.identityKey
  peerBaseKey := message.baseKey

theorem SessionState.responderState_formed (stores : Stores) (message : PreKeyMessage) (signedPreKey : KeyPair)
    (oneTimePreKey : Option KeyPair) :
    let start := RootKey.ofAgreements (stores.responder message signedPreKey oneTimePreKey).agreements
    (stores.responderState message signedPreKey oneTimePreKey).Formed stores.identity.publicKey message.identityKey
      signedPreKey start.1 start.2 :=
  have formed := (stores.responder message signedPreKey oneTimePreKey).state_formed
  ⟨formed.version, formed.own, formed.remote, formed.root, formed.sender⟩

theorem Stores.read_built_iff (stores : Stores) (record : SessionRecord) (handshake : PreKeyMessage)
    (signedPreKey : KeyPair) (oneTimePreKey : Option KeyPair) (peer : Address) (message : RatchetMessage) (e : Entropy) :
    (∃ found, ((record.install (stores.responderState handshake signedPreKey oneTimePreKey)).read peer message e).1 =
      .ok found) ↔
    ((stores.responderState handshake signedPreKey oneTimePreKey).Reads message ∨
      ∃ state ∈ record.archive.archived, state.Reads message) := by
  refine record.read_installed_iff ?_ peer message e
  intro message fresh index counter
  exact (SessionState.responderState_formed stores handshake signedPreKey oneTimePreKey).read_ne_duplicate rfl fresh index counter

def Stores.initiator (stores : Stores) (bundle : PreKeyBundle) (signedPreKey : PublicKey) (base : KeyPair) :
    Handshake.Initiator where
  identity := stores.identity
  base
  peerIdentity := bundle.identityKey
  peerSignedPreKey := signedPreKey
  peerOneTimePreKey := bundle.preKey.map (·.2)
  peerRatchetKey := signedPreKey

theorem SessionState.initiatorState_formed (stores : Stores) (bundle : PreKeyBundle) (signedPreKey : PublicKey)
    (base ratchet : KeyPair) :
    let sending := (RootKey.ofAgreements (stores.initiator bundle signedPreKey base).agreements).1.derive signedPreKey
      ratchet.privateKey
    (stores.initiatorState bundle signedPreKey base ratchet).Formed stores.identity.publicKey bundle.identityKey ratchet
      sending.1 sending.2 :=
  have formed := (stores.initiator bundle signedPreKey base).state_formed ratchet
  ⟨formed.version, formed.own, formed.remote, formed.root, formed.sender⟩

theorem SessionState.initiatorState_receivers (stores : Stores) (bundle : PreKeyBundle) (signedPreKey : PublicKey)
    (base ratchet : KeyPair) : (stores.initiatorState bundle signedPreKey base ratchet).receivers =
      [.receiving signedPreKey (RootKey.ofAgreements (stores.initiator bundle signedPreKey base).agreements).2] := rfl

/-- Both sides compute the same agreements. The responder may know the initiator's base key by other bytes, as long as
no key tells them apart. -/
theorem Handshake.agreements_eq (ours : Initiator) (theirs : Responder)
    (signedPreKey : ours.peerSignedPreKey = theirs.signedPreKey.publicKey)
    (identity : ours.peerIdentity = theirs.identity.publicKey)
    (oneTime : ours.peerOneTimePreKey = theirs.oneTimePreKey.map KeyPair.publicKey)
    (peerIdentity : theirs.peerIdentity = ours.identity.publicKey)
    (peerBaseKey : ∀ key : PrivateKey, key.agree theirs.peerBaseKey = key.agree ours.base.publicKey)
    (identity_signed : ours.identity.Agrees theirs.signedPreKey) (base_identity : ours.base.Agrees theirs.identity)
    (base_signed : ours.base.Agrees theirs.signedPreKey)
    (base_oneTime : ∀ pair ∈ theirs.oneTimePreKey, ours.base.Agrees pair) : theirs.agreements = ours.agreements := by
  have oneTimes : theirs.oneTimePreKey.map (·.privateKey.agree ours.base.publicKey) =
      (theirs.oneTimePreKey.map KeyPair.publicKey).map ours.base.privateKey.agree := by
    rw [Option.map_map]
    exact Option.map_congr fun pair member => (base_oneTime pair member).symm
  simp only [Responder.agreements, peerBaseKey]
  rw [Initiator.agreements, signedPreKey, identity, oneTime, peerIdentity, oneTimes, identity_signed, base_identity,
    base_signed]

end DoubleRatchet
