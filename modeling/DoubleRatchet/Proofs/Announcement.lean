import DoubleRatchet.Proofs.OneTimeKeys
import DoubleRatchet.Proofs.Pinning
import DoubleRatchet.Proofs.Session.Handshake
import DoubleRatchet.Proofs.Session.Sound
import DoubleRatchet.Proofs.Wire

/-! What the messages of a new session announce. Until the peer answers, every one of them names the keys of the
handshake; but a one-time key whose number is reserved for none is used and not named. So the owner of a bundle can
follow the handshake exactly if the bundle does not offer such a key. -/
namespace DoubleRatchet

open Session

/-- A device waits for the first answer to a handshake: the state that the handshake has left still sends, has read
nothing and announces what it began with. -/
structure Stores.Awaits (stores : Stores) (peer : Address) (own remote : PublicKey) (pair : KeyPair) (root : RootKey)
    (pending : PendingPreKey) : Prop where
  session : ∃ record state place, stores.sessions[peer]? = some record ∧ record.current = some state ∧
    state.Formed own remote pair root place ∧ state.pendingPreKey = some (.ofPending pending)
  saved : stores.identities[peer]? = some remote
  allowed : stores.denied.contains .sending = false

/-- Nothing has come of a peer in a run: no bundle of it has been accepted and no message from it has been read. -/
def Unanswered (peer : Address) (history : List (Request × Except Fault Reply)) : Prop :=
  ∀ served ∈ history, served.1.peer = peer → served.2.isOk → ∃ plaintext, served.1 = .encrypt peer plaintext

/-- What a message says of the handshake that it belongs to: all public keys that the responder needs, and the numbers
of its own keys; that of a one-time key unless it is reserved, also if the key is used. -/
structure PreKeyMessage.Announces (message : PreKeyMessage) (keys : Handshake.Initiator) (bundle : PreKeyBundle) :
    Prop where
  baseKey : message.baseKey = keys.base.publicKey
  identityKey : message.identityKey = keys.identity.publicKey
  signedPreKeyId : message.signedPreKeyId = bundle.signedPreKeyId
  preKeyId (id : UInt32) : message.preKeyId = some id ↔ id ≠ noPreKey ∧ ∃ key, bundle.preKey = some (id, key)
  used (id : UInt32) (key : PublicKey) (offered : bundle.preKey = some (id, key)) :
    keys.agreements[3]? = some (keys.base.privateKey.agree key)

/-- The owner of a bundle holds the private keys of all that it offers. -/
structure Stores.Owns (owner : Stores) (bundle : PreKeyBundle) (signed : SignedPreKeyRecord)
    (offer : Option (UInt32 × PreKeyRecord)) : Prop where
  identityKey : bundle.identityKey = owner.identity.publicKey
  signedPreKey : bundle.signedPreKey = some signed.keyPair.publicKey
  signedPreKey_held : owner.signedPreKeys[bundle.signedPreKeyId]? = some signed
  oneTimePreKey : bundle.preKey = offer.map fun (id, record) => (id, record.keyPair.publicKey)
  oneTimePreKey_held : ∀ key ∈ offer, owner.preKeys[key.1]? = some key.2

/-- The initiator's keys agree with those that the owner of a bundle holds. -/
structure Handshake.Initiator.AgreesWith (keys : Handshake.Initiator) (owner : Stores) (signed : SignedPreKeyRecord)
    (offer : Option (UInt32 × PreKeyRecord)) : Prop where
  identity_signed : keys.identity.Agrees signed.keyPair
  base_identity : keys.base.Agrees owner.identity
  base_signed : keys.base.Agrees signed.keyPair
  base_oneTime : ∀ key ∈ offer, keys.base.Agrees key.2.keyPair

namespace Stores

variable {stores : Stores} {peer : Address} {own remote : PublicKey} {pair : KeyPair} {root : RootKey}
  {pending : PendingPreKey}

theorem awaits_accepted {stores' : Stores} {bundle : PreKeyBundle} {base ratchet : KeyPair}
    (accepted : stores.acceptBundle peer bundle base ratchet = .ok stores') :
    ∃ signedPreKey root, bundle.verified = .ok signedPreKey ∧
      stores'.Awaits peer stores.identity.publicKey bundle.identityKey ratchet root
        ⟨bundle.preKey.map (·.1), bundle.signedPreKeyId, base.publicKey⟩ := by
  obtain ⟨trusted, signedPreKey, verified, rfl⟩ := acceptBundle_eq_ok.mp accepted
  have formed := SessionState.initiatorState_formed stores bundle signedPreKey base ratchet
  refine ⟨signedPreKey, _, verified, ⟨(stores.recordOrFresh peer).install _, _, _, ?_, rfl, formed, rfl⟩, ?_, ?_⟩
  · exact (withSession_sessions ..).trans (if_pos rfl)
  · exact (withSession_identities ..).trans (if_pos rfl)
  · exact Bool.not_eq_true' _ ▸ (Bool.and_eq_true_iff.mp trusted).2

theorem Awaits.sends (awaits : stores.Awaits peer own remote pair root pending) : ∃ record state place,
    stores.Sends peer record state place pair.publicKey own remote
        (some { pending with preKeyId := pending.preKeyId.filter (· != noPreKey) }) ∧
      state.Formed own remote pair root place ∧ state.pendingPreKey = some (.ofPending pending) := by
  obtain ⟨record, state, place, loaded, current, formed, announced⟩ := awaits.session
  refine ⟨record, state, place, ⟨loaded, current, ?_, ?_⟩, formed, announced⟩
  · refine ⟨formed.sendingChainKey, formed.ratchetKey, formed.localIdentityKey, formed.remoteIdentityKey?, ?_⟩
    simp only [SessionState.pendingPreKey?, announced, StoredPendingPreKey.load_ofPending]
    rfl
  · rw [isTrusted, awaits.saved, awaits.allowed]
    simp

/-- Requests keep a device waiting as long as nothing comes of the peer. -/
theorem Awaits.serve (awaits : stores.Awaits peer own remote pair root pending) (e : Entropy) (request : Request)
    (quiet : request.peer = peer → (stores.serve e request).1.isOk → ∃ plaintext, request = .encrypt peer plaintext) :
    (stores.serve e request).2.1.Awaits peer own remote pair root pending := by
  have leaves := stores.serve_leaves e request
  refine ⟨?_, leaves.saved awaits.saved, leaves.denied ▸ awaits.allowed⟩
  obtain ⟨record, state, place, sends, formed, announced⟩ := awaits.sends
  have kept : ∃ record state place, stores.sessions[peer]? = some record ∧ record.current = some state ∧
      state.Formed own remote pair root place ∧ state.pendingPreKey = some (.ofPending pending) :=
    ⟨record, state, place, sends.loaded, sends.current, formed, announced⟩
  cases run : (stores.serve e request).1 with
  | error fault =>
    rw [serve_error run]
    exact kept
  | ok reply =>
    by_cases own_peer : request.peer = peer
    · obtain ⟨plaintext, rfl⟩ := quiet own_peer (by rw [run]; rfl)
      have made := encrypt_eq_ok.mpr ⟨_, _, _, _, _, _, _, sends, Eq.refl (state.wrapped own (state.sealed place
        pair.publicKey own remote plaintext) _), rfl⟩
      simp only [Stores.serve, made]
      exact ⟨_, _, _, (withSession_sessions ..).trans (if_pos rfl), rfl, formed.withSendingChainKey _, announced⟩
    · rw [stores.serve_sessions_other e own_peer]
      exact kept

end Stores

theorem Device.serveAll_awaits {device : Device} {peer : Address} {own remote : PublicKey} {pair : KeyPair} {root : RootKey}
    {pending : PendingPreKey} (awaits : device.stores.Awaits peer own remote pair root pending) {requests : List Request}
    (unanswered : Unanswered peer (device.serveAll requests).1) :
    (device.serveAll requests).2.stores.Awaits peer own remote pair root pending := by
  induction requests generalizing device with
  | nil => exact awaits
  | cons request rest ih =>
    obtain ⟨answer, contents⟩ := device.serve_eq request
    have next : (device.serve request).2.stores.Awaits peer own remote pair root pending := by
      rw [show (device.serve request).2.stores = _ from congrArg Prod.fst contents]
      refine awaits.serve device.ambient.entropy request fun same ok => ?_
      exact unanswered (request, (device.serve request).1) List.mem_cons_self same (answer ▸ ok)
    exact ih next fun served member => unanswered served (List.mem_cons_of_mem _ member)

/-- The message with which a waiting device sends a text. -/
theorem Stores.Awaits.encrypts {stores : Stores} {peer : Address} {own remote : PublicKey} {pair : KeyPair} {root : RootKey}
    {pending : PendingPreKey} (awaits : stores.Awaits peer own remote pair root pending) (plaintext : Bytes) :
    ∃ (registrationId : UInt32) (inner : RatchetMessage) (stores' : Stores),
      stores.encrypt peer plaintext = .ok (.preKey (.create 3 registrationId (pending.preKeyId.filter (· != noPreKey))
        pending.signedPreKeyId pending.baseKey own inner), stores') ∧
      (plaintext.Sendable → RatchetMessage.parse inner.serialized = .ok inner ∧ inner.serialized.length < UInt64.size) := by
  obtain ⟨record, state, place, sends, formed, _⟩ := awaits.sends
  have version : state.version.toUInt8 = 3 := by
    rw [SessionState.version, formed.version]
    rfl
  have made := encrypt_eq_ok.mpr ⟨_, _, _, _, _, _, _, sends, Eq.refl (state.wrapped own (state.sealed place
    pair.publicKey own remote plaintext) _), rfl⟩
  rw [SessionState.wrapped, version] at made
  refine ⟨_, _, _, made, fun sendable => ?_⟩
  have fits := Cipher.encrypt_fits sendable place.messageKeys.cipherKey place.messageKeys.iv
  have text : (Cipher.encrypt place.messageKeys.cipherKey place.messageKeys.iv plaintext).length < UInt64.size :=
    Nat.lt_trans fits (by decide)
  have supported : state.version.toUInt8 = 2 ∨ state.version.toUInt8 = 3 := .inr version
  refine ⟨RatchetMessage.parse_create supported _ _ _ _ text _ _, ?_⟩
  refine Nat.lt_of_le_of_lt (RatchetMessage.create_length ..) (Nat.lt_trans (Nat.add_lt_add_right fits 122) ?_)
  decide

/-! ## The responder -/

theorem PreKeyBundle.signedPreKey_of_verified {bundle : PreKeyBundle} {key : PublicKey} (verified : bundle.verified = .ok key) :
    bundle.signedPreKey = some key :=
  (PreKeyBundle.verified_eq_ok.mp verified).1

/-- The one-time key that the responder is told of. -/
def announced : Option (UInt32 × PreKeyRecord) → Option KeyPair
  | none => none
  | some (id, record) => if id = noPreKey then none else some record.keyPair

theorem announced_of_numbered {offer : Option (UInt32 × PreKeyRecord)} (numbered : ∀ key ∈ offer, key.1 ≠ noPreKey) :
    announced offer = offer.map (·.2.keyPair) := by
  cases offer with
  | none => rfl
  | some key =>
    exact if_neg (numbered key rfl)

/-- What the owner of a bundle makes of a message: a state from the keys that it names. The state has the secrets of the
initiator if no key was used that is not named, and else it cannot. -/
structure Handshake.Initiator.FollowedBy (keys : Handshake.Initiator) (message : PreKeyMessage) (owner : Stores)
    (signed : SignedPreKeyRecord) (offer : Option (UInt32 × PreKeyRecord)) (record : SessionRecord) : Prop where
  answers : ∃ used, owner.respond record message =
    .ok (record.install (owner.responderState message signed.keyPair (announced offer)), used)
  agreements : (owner.responder message signed.keyPair (announced offer)).agreements = keys.agreements ↔
    ∀ key ∈ offer, key.1 ≠ noPreKey
  shares : (∀ key ∈ offer, key.1 ≠ noPreKey) →
    (owner.responderState message signed.keyPair (announced offer)).Formed owner.identity.publicKey keys.identity.publicKey
      signed.keyPair (RootKey.ofAgreements keys.agreements).1 (RootKey.ofAgreements keys.agreements).2

namespace PreKeyMessage.Announces

variable {message : PreKeyMessage} {keys : Handshake.Initiator} {bundle : PreKeyBundle} {owner : Stores}
  {signed : SignedPreKeyRecord} {offer : Option (UInt32 × PreKeyRecord)} {record : SessionRecord}

theorem oneTimeKey (announces : message.Announces keys bundle) (owns : owner.Owns bundle signed offer) :
    owner.oneTimeKey message.preKeyId = .ok (announced offer) := by
  have offered := owns.oneTimePreKey
  cases offer with
  | none =>
    have none_named : message.preKeyId = none := by
      cases named : message.preKeyId with
      | none => rfl
      | some id =>
        obtain ⟨_, key, found⟩ := (announces.preKeyId id).mp named
        rw [offered] at found
        cases found
    rw [none_named]
    rfl
  | some key =>
    obtain ⟨id, preKey⟩ := key
    by_cases reserved : id = noPreKey
    · have none_named : message.preKeyId = none := by
        cases named : message.preKeyId with
        | none => rfl
        | some other =>
          obtain ⟨number, key, found⟩ := (announces.preKeyId other).mp named
          rw [offered] at found
          cases found
          exact absurd reserved number
      rw [none_named, announced, if_pos reserved]
      rfl
    · have named := (announces.preKeyId id).mpr ⟨reserved, _, offered⟩
      have held : owner.preKeys[id]? = some preKey := owns.oneTimePreKey_held (id, preKey) rfl
      rw [named, Stores.oneTimeKey, held, announced, if_neg reserved]
      rfl

theorem agreements_iff (announces : message.Announces keys bundle) (owns : owner.Owns bundle signed offer)
    (agrees : keys.AgreesWith owner signed offer) (peerIdentity : keys.peerIdentity = bundle.identityKey)
    (peerSignedPreKey : bundle.signedPreKey = some keys.peerSignedPreKey)
    (peerOneTimePreKey : keys.peerOneTimePreKey = bundle.preKey.map (·.2)) :
    (owner.responder message signed.keyPair (announced offer)).agreements = keys.agreements ↔
      ∀ key ∈ offer, key.1 ≠ noPreKey := by
  have oneTime : keys.peerOneTimePreKey = (offer.map (·.2.keyPair)).map KeyPair.publicKey := by
    rw [peerOneTimePreKey, owns.oneTimePreKey, Option.map_map, Option.map_map]
    rfl
  constructor
  · intro same key offered reserved
    -- The responder computes three agreements, and the initiator four.
    have count := congrArg List.length same
    rw [Option.mem_def.mp offered] at oneTime count
    simp [Handshake.Responder.agreements, Handshake.Initiator.agreements, Stores.responder, announced, oneTime, reserved]
      at count
  · intro numbered
    have signed_eq : keys.peerSignedPreKey = signed.keyPair.publicKey :=
      Option.some.inj (peerSignedPreKey.symm.trans owns.signedPreKey)
    rw [announced_of_numbered numbered]
    refine Handshake.agreements_eq keys _ signed_eq (peerIdentity.trans owns.identityKey) oneTime announces.identityKey
      (fun _ => congrArg _ announces.baseKey) agrees.identity_signed agrees.base_identity agrees.base_signed ?_
    intro pair held
    obtain ⟨key, offered, rfl⟩ := Option.map_eq_some_iff.mp held
    exact agrees.base_oneTime key offered

theorem followed (announces : message.Announces keys bundle) (owns : owner.Owns bundle signed offer)
    (agrees : keys.AgreesWith owner signed offer) (peerIdentity : keys.peerIdentity = bundle.identityKey)
    (peerSignedPreKey : bundle.signedPreKey = some keys.peerSignedPreKey)
    (peerOneTimePreKey : keys.peerOneTimePreKey = bundle.preKey.map (·.2))
    (unknown : record.hasStateFor message.version.toUInt32 message.baseKey = false) :
    keys.FollowedBy message owner signed offer record := by
  have agreements := announces.agreements_iff owns agrees peerIdentity peerSignedPreKey peerOneTimePreKey
  refine ⟨⟨_, Stores.respond_eq_ok.mpr (.built unknown signed _ ?_ (announces.oneTimeKey owns))⟩, agreements, ?_⟩
  · rw [announces.signedPreKeyId]
    exact owns.signedPreKey_held
  · intro numbered
    have formed := SessionState.responderState_formed owner message signed.keyPair (announced offer)
    dsimp only at formed
    rw [agreements.mpr numbered, announces.identityKey] at formed
    exact formed

end PreKeyMessage.Announces

/-- Whatever else is asked of a device that has accepted a bundle, as long as nothing comes of the bundle's owner all that
it sends there are messages that announce the handshake. Their receiver follows the handshake if and only if no one-time
key was offered under the reserved number. -/
theorem announces_handshake (device device' : Device) (peer : Address) (bundle : PreKeyBundle) (requests : List Request)
    (plaintext : Bytes)
    (accepted : (Session.acceptBundle peer bundle : OnDevice Unit) device = (.ok (), device'))
    (unanswered : Unanswered peer (device'.serveAll requests).1) :
    ∃ signedPreKey message, bundle.verified = .ok signedPreKey ∧
      let keys := device.stores.initiator bundle signedPreKey (device.ambient.entropy.pair 0)
      ((device'.serveAll requests).2.serve (.encrypt peer plaintext)).1 = .ok (.sent (.preKey message)) ∧
      (plaintext.Sendable → PreKeyMessage.parse message.serialized = .ok message) ∧
      message.Announces keys bundle ∧
      ∀ owner signed offer record, owner.Owns bundle signed offer → keys.AgreesWith owner signed offer →
        record.hasStateFor message.version.toUInt32 message.baseKey = false →
        keys.FollowedBy message owner signed offer record := by
  obtain ⟨begun, _⟩ := Session.acceptBundle_run accepted
  obtain ⟨signedPreKey, root, verified, awaits⟩ := Stores.awaits_accepted begun
  obtain ⟨registrationId, inner, after, sent, carried⟩ := (Device.serveAll_awaits awaits unanswered).encrypts plaintext
  let keys := device.stores.initiator bundle signedPreKey (device.ambient.entropy.pair 0)
  let message := PreKeyMessage.create 3 registrationId ((bundle.preKey.map (·.1)).filter (· != noPreKey))
    bundle.signedPreKeyId keys.base.publicKey keys.identity.publicKey inner
  have served : ((device'.serveAll requests).2.serve (.encrypt peer plaintext)).1 = .ok (.sent (.preKey message)) := by
    rw [((device'.serveAll requests).2.serve_eq _).1, Stores.serve, sent]
    rfl
  have announces : message.Announces keys bundle := by
    refine ⟨rfl, rfl, rfl, fun id => ?_, fun id key offered => ?_⟩
    · simp [message, PreKeyMessage.create, Option.filter_eq_some_iff, and_comm]
    · simp [keys, Handshake.Initiator.agreements, Stores.initiator, offered]
  refine ⟨signedPreKey, message, verified, served, ?_, announces, ?_⟩
  · intro sendable
    obtain ⟨carried, fits⟩ := carried sendable
    exact PreKeyMessage.parse_create (.inr rfl) _ _ _ _ _ carried fits
  · intro owner signed offer record owns agrees unknown
    exact announces.followed owns agrees rfl (PreKeyBundle.signedPreKey_of_verified verified) rfl unknown

namespace Sample

/-- A bundle that offers a one-time key under the number that is reserved for none. -/
def reservedBundle : PreKeyBundle := { bundle with preKey := some (noPreKey, oneTimePreKey.keyPair.publicKey) }

/-- The owner of the bundle. -/
def reserving : Stores := { responding.stores with preKeys := .insert ∅ noPreKey oneTimePreKey }

def reservedKeys : Handshake.Initiator :=
  initiating.stores.initiator reservedBundle signedPreKey.publicKey (initiating.ambient.entropy.pair 0)

theorem reserving_owns :
    reserving.Owns reservedBundle ⟨1, 0, signedPreKey, signature⟩ (some (noPreKey, oneTimePreKey)) where
  identityKey := rfl
  signedPreKey := rfl
  signedPreKey_held := Std.ExtTreeMap.getElem?_insert_self
  oneTimePreKey := rfl
  oneTimePreKey_held key held := by
    cases held
    exact Std.ExtTreeMap.getElem?_insert_self

theorem reservedKeys_agree :
    reservedKeys.AgreesWith reserving ⟨1, 0, signedPreKey, signature⟩ (some (noPreKey, oneTimePreKey)) := by
  have agree : reservedKeys.identity.Agrees signedPreKey ∧ reservedKeys.base.Agrees identity ∧
      reservedKeys.base.Agrees signedPreKey ∧ reservedKeys.base.Agrees oneTimePreKey.keyPair := by
    unfold KeyPair.Agrees
    decide +kernel
  refine ⟨agree.1, agree.2.1, agree.2.2.1, fun key offered => ?_⟩
  cases offered
  exact agree.2.2.2

theorem reservedBundle_accepted : ∃ device',
    (Session.acceptBundle responder reservedBundle : OnDevice Unit) initiating = (.ok (), device') := by
  have ok : ((Session.acceptBundle responder reservedBundle : OnDevice Unit) initiating).1.isOk := by decide +kernel
  rcases run : (Session.acceptBundle responder reservedBundle : OnDevice Unit) initiating with ⟨fault | _, device'⟩
  · rw [run] at ok
    cases ok
  · exact ⟨device', rfl⟩

end Sample

/-- A one-time key is offered under the reserved number. The initiator uses it and does not name it, and the owner of the
bundle computes other agreements. -/
theorem announces_handshake_reserved : ∃ device' message,
    (Session.acceptBundle Sample.responder Sample.reservedBundle : OnDevice Unit) Sample.initiating = (.ok (), device') ∧
      Unanswered Sample.responder (device'.serveAll []).1 ∧
      (device'.serve (.encrypt Sample.responder [1, 2, 3])).1 = .ok (.sent (.preKey message)) ∧ message.preKeyId = none ∧
      Sample.reservedKeys.agreements[3]? =
        some (Sample.reservedKeys.base.privateKey.agree Sample.oneTimePreKey.keyPair.publicKey) ∧
      (Sample.reserving.responder message Sample.signedPreKey none).agreements ≠ Sample.reservedKeys.agreements := by
  obtain ⟨device', accepted⟩ := Sample.reservedBundle_accepted
  have unanswered : Unanswered Sample.responder (device'.serveAll []).1 := fun _ member => (nomatch member)
  obtain ⟨signedPreKey, message, verified, served, _, announces, followed⟩ :=
    announces_handshake Sample.initiating device' Sample.responder Sample.reservedBundle [] [1, 2, 3] accepted unanswered
  cases PreKeyBundle.signedPreKey_of_verified verified
  have unnamed : message.preKeyId = none := by
    cases named : message.preKeyId with
    | none => rfl
    | some id =>
      obtain ⟨number, key, offered⟩ := (announces.preKeyId id).mp named
      cases offered
      exact absurd rfl number
  have follows := followed Sample.reserving _ _ .fresh Sample.reserving_owns Sample.reservedKeys_agree rfl
  refine ⟨device', message, accepted, unanswered, served, unnamed, announces.used noPreKey _ rfl, fun same => ?_⟩
  exact follows.agreements.mp same (noPreKey, Sample.oneTimePreKey) rfl rfl

end DoubleRatchet
