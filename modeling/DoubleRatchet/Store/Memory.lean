import DoubleRatchet.Store.Call

/-!
Stores that are kept in memory. An identity is trusted if it is the one saved for the peer or if none is, unless
the direction is denied.
-/
namespace DoubleRatchet

/-- What one device keeps. -/
structure Stores where
  identity : KeyPair
  registrationId : UInt32
  identities : Std.ExtTreeMap Address PublicKey := ∅
  preKeys : Std.ExtTreeMap UInt32 PreKeyRecord := ∅
  signedPreKeys : Std.ExtTreeMap UInt32 SignedPreKeyRecord := ∅
  sessions : Std.ExtTreeMap Address SessionRecord := ∅
  senderKeys : Std.ExtTreeMap SenderKeyName Group.SenderKeyRecord := ∅
  /-- The directions in which no identity is trusted. -/
  denied : List Direction := []

namespace Stores

/-- The numbers of a user's devices with a session, in order, the first device left out. -/
def subDevices (stores : Stores) (name : String) : List UInt32 :=
  (stores.sessions.keys.filter fun peer => peer.name == name && peer.device != 1).map Address.device

def isTrusted (stores : Stores) (peer : Address) (identity : PublicKey) (direction : Direction) : Bool :=
  (stores.identities[peer]?.all (· == identity)) && !stores.denied.contains direction

/-- The answer to a call and the stores after it. -/
def answer {A : Type} (stores : Stores) : StoreCall A → Except Fault A × Stores
  | .loadSession peer => (.ok stores.sessions[peer]?, stores)
  | .storeSession peer record => (.ok (), { stores with sessions := stores.sessions.insert peer record })
  | .containsSession peer => (.ok (stores.sessions.contains peer), stores)
  | .deleteSession peer => (.ok (), { stores with sessions := stores.sessions.erase peer })
  | .subDevices name => (.ok (stores.subDevices name), stores)
  | .deleteAllSessions => (.ok (), { stores with sessions := ∅ })
  | .ownIdentity => (.ok stores.identity, stores)
  | .registrationId => (.ok stores.registrationId, stores)
  | .saveIdentity peer identity =>
    (.ok (stores.identities[peer]?.any (· != identity)),
      { stores with identities := stores.identities.insert peer identity })
  | .isTrusted peer identity direction => (.ok (stores.isTrusted peer identity direction), stores)
  | .identity peer => (.ok stores.identities[peer]?, stores)
  | .preKey id => (stores.preKeys[id]?.elim (.error .unknownPreKey) .ok, stores)
  | .savePreKey id record => (.ok (), { stores with preKeys := stores.preKeys.insert id record })
  | .containsPreKey id => (.ok (stores.preKeys.contains id), stores)
  | .removePreKey id => (.ok (), { stores with preKeys := stores.preKeys.erase id })
  | .signedPreKey id => (stores.signedPreKeys[id]?.elim (.error .unknownSignedPreKey) .ok, stores)
  | .allSignedPreKeys => (.ok stores.signedPreKeys.values, stores)
  | .saveSignedPreKey id record =>
    (.ok (), { stores with signedPreKeys := stores.signedPreKeys.insert id record })
  | .containsSignedPreKey id => (.ok (stores.signedPreKeys.contains id), stores)
  | .removeSignedPreKey id => (.ok (), { stores with signedPreKeys := stores.signedPreKeys.erase id })
  | .loadSenderKey name => (.ok stores.senderKeys[name]?, stores)
  | .storeSenderKey name record => (.ok (), { stores with senderKeys := stores.senderKeys.insert name record })

end Stores

end DoubleRatchet
