import DoubleRatchet.Proofs.Session.Reading
import DoubleRatchet.Session.Cipher

/-! The operations on sessions as functions of a device's stores and randomness. Each yields what its function says;
a fault before the handshake of a message is accepted leaves the stores as they are. -/
namespace DoubleRatchet

open Session

namespace Stores

/-- Whether an identity is trusted, as a check that fails. -/
def trusts (stores : Stores) (peer : Address) (identity : PublicKey) (direction : Direction) : Except Fault Unit :=
  if stores.isTrusted peer identity direction then .ok () else .error (.untrustedIdentity peer)

def record (stores : Stores) (peer : Address) : Except Fault SessionRecord :=
  stores.sessions[peer]?.elim (.error (.noSession peer)) .ok

def recordOrFresh (stores : Stores) (peer : Address) : SessionRecord := stores.sessions[peer]?.getD .fresh

def withSession (stores : Stores) (peer : Address) (identity : PublicKey) (record : SessionRecord) : Stores :=
  { stores with
    identities := stores.identities.insert peer identity
    sessions := stores.sessions.insert peer record }

def oneTimeKey (stores : Stores) : Option UInt32 → Except Fault (Option KeyPair)
  | some id => return some (← stores.preKeys[id]?.elim (.error .unknownPreKey) .ok).keyPair
  | none => .ok none

def responderState (stores : Stores) (message : PreKeyMessage) (signedPreKey : KeyPair)
    (oneTimePreKey : Option KeyPair) : SessionState :=
  let keys : Handshake.Responder := {
    identity := stores.identity, signedPreKey, oneTimePreKey, ratchet := signedPreKey,
    peerIdentity := message.identityKey, peerBaseKey := message.baseKey }
  keys.state.withRegistrationIds stores.registrationId message.registrationId

/-- The record with the responder's state for a message, and the number of the one-time key that was used. -/
def respond (stores : Stores) (record : SessionRecord) (message : PreKeyMessage) :
    Except Fault (SessionRecord × Option UInt32) :=
  if record.hasStateFor message.version.toUInt32 message.baseKey then .ok (record, none)
  else do
    let signedPreKey ← stores.signedPreKeys[message.signedPreKeyId]?.elim (.error .unknownSignedPreKey) .ok
    let oneTimePreKey ← stores.oneTimeKey message.preKeyId
    return (record.install (stores.responderState message signedPreKey.keyPair oneTimePreKey),
      message.preKeyId.filter (· != noPreKey))

/-- The initiator's state for a bundle whose signed key is `signedPreKey`. -/
def initiatorState (stores : Stores) (bundle : PreKeyBundle) (signedPreKey : PublicKey) (base ratchet : KeyPair) :
    SessionState :=
  let keys : Handshake.Initiator := {
    identity := stores.identity, base, peerIdentity := bundle.identityKey, peerSignedPreKey := signedPreKey,
    peerOneTimePreKey := bundle.preKey.map (·.2), peerRatchetKey := signedPreKey }
  ((keys.state ratchet).withPendingPreKey ⟨bundle.preKey.map (·.1), bundle.signedPreKeyId, base.publicKey⟩).withRegistrationIds
    stores.registrationId bundle.registrationId

end Stores

/-- The next message of a state, and the identity it is meant for. -/
def SessionState.message (state : SessionState) (peer : Address) (plaintext : Bytes) :
    Except Fault (Message × PublicKey) := do
  let chain ← state.sendingChainKey
  let localIdentity ← state.localIdentityKey
  match ← state.remoteIdentityKey? with
  | none => .error (.badState "encrypt" s!"no identity stored for {peer.display}")
  | some remoteIdentity =>
    let version := state.version.toUInt8
    let body := Cipher.encrypt chain.messageKeys.cipherKey chain.messageKeys.iv plaintext
    let message := RatchetMessage.create version chain.messageKeys.macKey (← state.ratchetKey) chain.index
      state.previousCounter body localIdentity remoteIdentity
    match ← state.pendingPreKey? with
    | none => return (.ratchet message, remoteIdentity)
    | some pending =>
      return (.preKey (.create version state.localRegistrationId pending.preKeyId pending.signedPreKeyId
        pending.baseKey localIdentity message), remoteIdentity)

namespace Stores

def acceptBundle (stores : Stores) (peer : Address) (bundle : PreKeyBundle) (base ratchet : KeyPair) :
    Except Fault Stores := do
  stores.trusts peer bundle.identityKey .sending
  let signedPreKey ← bundle.verified
  return stores.withSession peer bundle.identityKey
    ((stores.recordOrFresh peer).install (stores.initiatorState bundle signedPreKey base ratchet))

def encrypt (stores : Stores) (peer : Address) (plaintext : Bytes) : Except Fault (Message × Stores) := do
  let record ← stores.record peer
  let state ← currentState peer record
  let (message, remoteIdentity) ← state.message peer plaintext
  let chain ← state.sendingChainKey
  stores.trusts peer remoteIdentity .sending
  return (message, stores.withSession peer remoteIdentity
    { record with current := some (state.withSendingChainKey chain.next) })

/-- What a message from a peer says, and the stores after it, given what its record reads. -/
def acceptRead (stores : Stores) (peer : Address) (read : Except Fault (SessionRecord × Opened)) :
    Except Fault ((Bytes × MessageKeys) × Stores) := do
  let (record, opened) ← read
  let state ← currentState peer record
  let remoteIdentity ← state.remoteIdentityKey
  stores.trusts peer remoteIdentity .receiving
  return ((opened.plaintext, opened.keys), stores.withSession peer remoteIdentity record)

/-- What a message of an established session says, the stores after it and the randomness that is left. -/
def decryptRatchet (stores : Stores) (peer : Address) (message : RatchetMessage) (e : Entropy) :
    Except Fault (Bytes × MessageKeys) × Stores × Entropy :=
  match stores.record peer with
  | .error fault => (.error fault, stores, e)
  | .ok record =>
    match stores.acceptRead peer (record.read peer message e).1 with
    | .error fault => (.error fault, stores, (record.read peer message e).2)
    | .ok (result, stores) => (.ok result, stores, (record.read peer message e).2)

/-- The record that reads a message which opens a session, and the number of the one-time key that was used. -/
def acceptMessage (stores : Stores) (peer : Address) (message : PreKeyMessage) :
    Except Fault (SessionRecord × Option UInt32) := do
  stores.trusts peer message.identityKey .receiving
  stores.respond (stores.recordOrFresh peer) message

/-- The stores once the handshake of a message has been accepted. -/
def afterHandshake (stores : Stores) (peer : Address) (message : PreKeyMessage) : Stores :=
  { stores with identities := stores.identities.insert peer message.identityKey }

def afterPreKey (stores : Stores) (peer : Address) (message : PreKeyMessage) (record : SessionRecord)
    (used : Option UInt32) : Stores :=
  { stores.withSession peer message.identityKey record with
    preKeys := used.elim stores.preKeys stores.preKeys.erase }

/-- What a message that opens a session says, the stores after it and the randomness that is left. -/
def decryptPreKey (stores : Stores) (peer : Address) (message : PreKeyMessage) (e : Entropy) :
    Except Fault (Bytes × MessageKeys) × Stores × Entropy :=
  match stores.acceptMessage peer message with
  | .error fault => (.error fault, stores, e)
  | .ok (record, used) =>
    match record.read peer message.message e with
    | (.error fault, e) => (.error fault, stores.afterHandshake peer message, e)
    | (.ok (record, opened), e) =>
      (.ok (opened.plaintext, opened.keys), stores.afterPreKey peer message record used, e)

/-- What a message from a peer says, the stores after it and the randomness that is left. -/
def decrypt (stores : Stores) (peer : Address) (e : Entropy) : Message → Except Fault Bytes × Stores × Entropy
  | .ratchet message =>
    let (result, after) := stores.decryptRatchet peer message e
    (result.map (·.1), after)
  | .preKey message =>
    let (result, after) := stores.decryptPreKey peer message e
    (result.map (·.1), after)
  | message => (.error (.badArgument s!"{message.kind.name} messages belong to a group cipher"), stores, e)

/-- What a message says that was decrypted before, by the keys it was decrypted with. -/
def decryptWithKeys (stores : Stores) (peer : Address) (message : RatchetMessage) (keys : MessageKeys) :
    Except Fault Bytes := do
  let record ← stores.record peer
  let state ← currentState peer record
  let remoteIdentity ← state.remoteIdentityKey
  let localIdentity ← state.localIdentityKey
  message.decipher keys remoteIdentity localIdentity

end Stores

namespace Session

variable (stores : Stores) (peer : Address) (e : Entropy)

theorem requireTrusted_yields (identity : PublicKey) (direction : Direction) :
    OnDevice.Yields (requireTrusted peer identity direction) (stores, e) (stores.trusts peer identity direction)
      (stores, e) := by
  unfold requireTrusted Stores.trusts
  refine .bind (OnDevice.call_yields _ _ _) ?_
  dsimp only [Stores.answer]
  split
  · exact .pure _ _
  · exact .bind (OnDevice.act_yields _ (Act.note_yields _ _ _)) (OnDevice.act_yields _ (.throw _ _))

theorem existing_yields :
    OnDevice.Yields (existing peer) (stores, e) (stores.record peer) (stores, e) := by
  unfold existing Stores.record
  refine .bind (OnDevice.call_yields _ _ _) ?_
  dsimp only [Stores.answer]
  cases stores.sessions[peer]? with
  | some record => exact .pure _ _
  | none => exact OnDevice.act_yields _ (.throw _ _)

theorem existingOrFresh_yields :
    OnDevice.Yields (existingOrFresh peer) (stores, e) (.ok (stores.recordOrFresh peer)) (stores, e) :=
  .bind (OnDevice.call_yields _ _ _) (.pure _ _)

theorem lift_yields {A : Type} (result : Except Fault A) :
    OnDevice.Yields (liftM (liftM result : Act A) : OnDevice A) (stores, e) result (stores, e) :=
  OnDevice.act_yields _ (.lift _ _)

theorem initiator_run_yields (keys : Handshake.Initiator) :
    Act.Yields keys.run e (.ok (keys.state (e.pair 0))) (e.skip 1) :=
  .bind (Act.generate_yields e) (.bind (Act.note_yields _ _ _) (.pure _ _))

theorem responder_run_yields (keys : Handshake.Responder) : Act.Yields keys.run e (.ok keys.state) e :=
  .bind (Act.note_yields _ _ _) (.pure _ _)

theorem acceptBundle_commits (bundle : PreKeyBundle) :
    Commits Device.contents (acceptBundle peer bundle) (stores, e) (stores, e)
      (stores.acceptBundle peer bundle (e.pair 0) (e.pair 1)) (fun _ => ()) fun stores => (stores, e.skip 2) := by
  unfold acceptBundle Stores.acceptBundle
  refine .bind (requireTrusted_yields stores peer e _ _) fun _ => .bind (lift_yields stores e _) fun signedPreKey => ?_
  refine Yields.bind (existingOrFresh_yields stores peer e) ?_
  refine Yields.bind (OnDevice.act_yields _ (Act.generate_yields e)) (Yields.bind (OnDevice.call_yields _ _ _) ?_)
  refine Yields.bind (OnDevice.act_yields _ (initiator_run_yields _ _)) ?_
  refine Yields.bind (OnDevice.act_yields _ (Act.note_yields _ _ _)) (Yields.bind (OnDevice.call_yields _ _ _) ?_)
  refine Yields.bind (OnDevice.act_yields _ (SessionRecord.noteArchiving_yields _ _)) ?_
  exact Yields.bind (OnDevice.call_yields _ _ _) (Yields.bind (OnDevice.call_yields _ _ _) (Yields.pure _ _))

theorem nextMessage_yields (state : SessionState) (plaintext : Bytes) :
    Act.Yields (nextMessage peer state plaintext) e (state.message peer plaintext) e := by
  unfold nextMessage SessionState.message
  refine .bind_same (.lift _ _) fun chain => .bind_same (.lift _ _) fun localIdentity =>
    .bind_same (.lift _ _) fun remoteIdentity => ?_
  cases remoteIdentity with
  | none => exact .throw _ _
  | some remoteIdentity =>
    refine .bind_same (.lift _ _) fun ratchetKey => .bind_same (.lift _ _) fun pending => ?_
    cases pending with
    | none => exact .pure _ _
    | some pending => exact .bind (Act.note_yields _ _ _) (.pure _ _)

theorem encrypt_commits (plaintext : Bytes) :
    Commits Device.contents (encrypt peer plaintext) (stores, e) (stores, e) (stores.encrypt peer plaintext) (·.1)
      fun sent => (sent.2, e) := by
  unfold encrypt Stores.encrypt
  refine .bind (existing_yields stores peer e) fun record => .bind (lift_yields stores e _) fun state =>
    .bind (OnDevice.act_yields _ (nextMessage_yields peer e state plaintext)) fun made => ?_
  refine .bind (lift_yields stores e _) fun chain =>
    .bind (requireTrusted_yields stores peer e _ _) fun _ => ?_
  exact Yields.bind (OnDevice.call_yields _ _ _) (Yields.bind (OnDevice.call_yields _ _ _) (Yields.pure _ _))

/-- What is left of decrypting a message of an established session once its record has been loaded. -/
theorem acceptRead_commits (record : SessionRecord) (message : RatchetMessage) :
    Commits Device.contents
      (do
        let (record, opened) ← (OnDevice.act (record.decrypt peer message) : OnDevice (SessionRecord × Opened))
        let state ← (currentState peer record : Act SessionState)
        let remoteIdentity ← (state.remoteIdentityKey : Act PublicKey)
        requireTrusted peer remoteIdentity .receiving
        let _ ← Host.call (.saveIdentity peer remoteIdentity)
        Host.call (.storeSession peer record)
        return (opened.plaintext, opened.keys) : OnDevice (Bytes × MessageKeys))
      (stores, e) (stores, (record.read peer message e).2) (stores.acceptRead peer (record.read peer message e).1) (·.1)
      fun done => (done.2, (record.read peer message e).2) := by
  unfold Stores.acceptRead
  refine .bind (OnDevice.act_yields stores (record.decrypt_yields peer message e)) fun found => ?_
  refine .bind (lift_yields stores _ _) fun state => .bind (lift_yields stores _ _) fun identity =>
    .bind (requireTrusted_yields stores peer _ identity .receiving) fun _ => ?_
  exact Yields.bind (OnDevice.call_yields _ _ _) (Yields.bind (OnDevice.call_yields _ _ _) (Yields.pure _ _))

theorem decryptRatchet_yields (message : RatchetMessage) :
    OnDevice.Yields (decryptRatchet peer message) (stores, e) (stores.decryptRatchet peer message e).1
      (stores.decryptRatchet peer message e).2 := by
  have loaded := existing_yields stores peer e
  unfold decryptRatchet Stores.decryptRatchet
  cases load : stores.record peer with
  | error fault =>
    rw [load] at loaded
    exact .bind_error loaded
  | ok record =>
    rw [load] at loaded
    refine .bind loaded ?_
    have commits := acceptRead_commits stores peer e record message
    unfold Commits at commits
    dsimp only
    cases done : stores.acceptRead peer (record.read peer message e).1 with
    | error fault =>
      rw [done] at commits
      exact commits
    | ok result =>
      rw [done] at commits
      exact commits

theorem oneTimeKey_yields (id : Option UInt32) :
    OnDevice.Yields (oneTimeKey peer id) (stores, e) (stores.oneTimeKey id) (stores, e) := by
  unfold oneTimeKey Stores.oneTimeKey
  cases id with
  | none => exact .bind (OnDevice.act_yields _ (Act.note_yields _ _ _)) (.pure _ _)
  | some id => exact .bind_same (OnDevice.call_yields stores e (.preKey id)) fun preKey => .pure _ _

theorem respond_yields (record : SessionRecord) (message : PreKeyMessage) :
    OnDevice.Yields (respond peer record message) (stores, e) (stores.respond record message) (stores, e) := by
  unfold respond Stores.respond
  split
  · exact .bind (OnDevice.act_yields _ (Act.note_yields _ _ _)) (.pure _ _)
  · refine .bind_same (OnDevice.call_yields stores e (.signedPreKey message.signedPreKeyId)) fun signedPreKey => ?_
    refine .bind_same (oneTimeKey_yields stores peer e message.preKeyId) fun oneTimePreKey => ?_
    refine .bind (OnDevice.call_yields _ _ _) (.bind (OnDevice.act_yields _ (responder_run_yields _ _)) ?_)
    refine .bind (OnDevice.call_yields _ _ _) ?_
    exact .bind (OnDevice.act_yields _ (SessionRecord.noteArchiving_yields _ _)) (.pure _ _)

theorem acceptMessage_yields (message : PreKeyMessage) :
    OnDevice.Yields (do requireTrusted peer message.identityKey .receiving; respond peer (stores.recordOrFresh peer) message)
      (stores, e) (stores.acceptMessage peer message) (stores, e) :=
  .bind_same (requireTrusted_yields stores peer e _ _) fun _ => respond_yields stores peer e _ message

theorem decryptPreKey_yields (message : PreKeyMessage) :
    OnDevice.Yields (decryptPreKey peer message) (stores, e) (stores.decryptPreKey peer message e).1
      (stores.decryptPreKey peer message e).2 := by
  unfold decryptPreKey acceptMessage Stores.decryptPreKey
  refine .bind (existingOrFresh_yields stores peer e) ?_
  have accepted := acceptMessage_yields stores peer e message
  cases accept : stores.acceptMessage peer message with
  | error fault =>
    rw [accept] at accepted
    refine .bind (.bind (.observe accepted) (.pure _ _)) ?_
    exact .bind (OnDevice.act_yields _ (Act.note_yields _ _ _)) (OnDevice.act_yields _ (.throw _ _))
  | ok found =>
    obtain ⟨record, used⟩ := found
    rw [accept] at accepted
    refine .bind (.bind (.observe accepted) (.bind (.observe (OnDevice.call_yields _ _ _)) (.pure _ _))) ?_
    have decrypted := OnDevice.act_yields (stores.afterHandshake peer message) (record.decrypt_yields peer message.message e)
    dsimp only
    rcases read : record.read peer message.message e with ⟨_ | ⟨record', opened⟩, e'⟩
    · rw [read] at decrypted
      exact .bind_error decrypted
    · rw [read] at decrypted
      refine .bind decrypted (.bind (OnDevice.call_yields _ _ _) ?_)
      cases used with
      | none => exact .bind (.pure _ _) (.pure _ _)
      | some id => exact .bind (OnDevice.call_yields _ _ _) (.pure _ _)

theorem decrypt_yields (message : Message) :
    OnDevice.Yields (decrypt peer message) (stores, e) (stores.decrypt peer e message).1
      (stores.decrypt peer e message).2 := by
  cases message with
  | ratchet message =>
    have yields := decryptRatchet_yields stores peer e message
    simp only [Stores.decrypt]
    rcases run : stores.decryptRatchet peer message e with ⟨_ | _, after⟩
    · rw [run] at yields
      exact .bind_error yields
    · rw [run] at yields
      exact .bind yields (.pure _ _)
  | preKey message =>
    have yields := decryptPreKey_yields stores peer e message
    simp only [Stores.decrypt]
    rcases run : stores.decryptPreKey peer message e with ⟨_ | _, after⟩
    · rw [run] at yields
      exact .bind_error yields
    · rw [run] at yields
      exact .bind yields (.pure _ _)
  | _ => exact OnDevice.act_yields _ (.throw _ _)

theorem decryptWithKeys_yields (message : RatchetMessage) (keys : MessageKeys) :
    OnDevice.Yields (decryptWithKeys peer message keys) (stores, e) (stores.decryptWithKeys peer message keys)
      (stores, e) := by
  unfold decryptWithKeys Stores.decryptWithKeys
  refine .bind_same (existing_yields stores peer e) fun record => .bind_same (lift_yields stores e _) fun state => ?_
  refine .bind_same (lift_yields stores e _) fun remoteIdentity => .bind_same (lift_yields stores e _) fun localIdentity => ?_
  exact OnDevice.act_yields _ (message.open_yields keys remoteIdentity localIdentity e)

end Session

end DoubleRatchet
