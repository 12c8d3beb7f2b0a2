import DoubleRatchet.Group.Record
import DoubleRatchet.PreKey
import DoubleRatchet.Session.Record

/-!
What the library asks of an application: the calls on its stores, each with the type of its answer.
-/
namespace DoubleRatchet

/-- Whether an identity is to be trusted for messages to a peer or from it. -/
inductive Direction where
  | sending
  | receiving
  deriving DecidableEq

def Direction.name : Direction → String
  | sending => "Sending"
  | receiving => "Receiving"

/-- A call on the stores of an application. -/
inductive StoreCall : Type → Type where
  | loadSession (peer : Address) : StoreCall (Option SessionRecord)
  | storeSession (peer : Address) (record : SessionRecord) : StoreCall Unit
  | containsSession (peer : Address) : StoreCall Bool
  | deleteSession (peer : Address) : StoreCall Unit
  /-- The numbers of a user's devices with a session, the first device left out. -/
  | subDevices (name : String) : StoreCall (List UInt32)
  | deleteAllSessions : StoreCall Unit
  | ownIdentity : StoreCall KeyPair
  | registrationId : StoreCall UInt32
  /-- Saves the identity of a peer; answers whether it replaces another one. -/
  | saveIdentity (peer : Address) (identity : PublicKey) : StoreCall Bool
  | isTrusted (peer : Address) (identity : PublicKey) (direction : Direction) : StoreCall Bool
  | identity (peer : Address) : StoreCall (Option PublicKey)
  | preKey (id : UInt32) : StoreCall PreKeyRecord
  | savePreKey (id : UInt32) (record : PreKeyRecord) : StoreCall Unit
  | containsPreKey (id : UInt32) : StoreCall Bool
  | removePreKey (id : UInt32) : StoreCall Unit
  | signedPreKey (id : UInt32) : StoreCall SignedPreKeyRecord
  | allSignedPreKeys : StoreCall (List SignedPreKeyRecord)
  | saveSignedPreKey (id : UInt32) (record : SignedPreKeyRecord) : StoreCall Unit
  | containsSignedPreKey (id : UInt32) : StoreCall Bool
  | removeSignedPreKey (id : UInt32) : StoreCall Unit
  | loadSenderKey (name : SenderKeyName) : StoreCall (Option Group.SenderKeyRecord)
  | storeSenderKey (name : SenderKeyName) (record : Group.SenderKeyRecord) : StoreCall Unit

namespace StoreCall

/-- The name of a call, and the arguments that tell it from others of the name. -/
def parts {A : Type} : StoreCall A → String × List String
  | loadSession peer => ("load_session", [peer.display])
  | storeSession peer _ => ("store_session", [peer.display])
  | containsSession peer => ("contains_session", [peer.display])
  | deleteSession peer => ("delete_session", [peer.display])
  | subDevices name => ("get_sub_device_sessions", [name])
  | deleteAllSessions => ("delete_all_sessions", [])
  | ownIdentity => ("get_identity_key_pair", [])
  | registrationId => ("get_local_registration_id", [])
  | saveIdentity peer _ => ("save_identity", [peer.display])
  | isTrusted peer _ direction => ("is_trusted_identity", [peer.display, direction.name])
  | identity peer => ("get_identity", [peer.display])
  | preKey id => ("get_pre_key", [toString id])
  | savePreKey id _ => ("save_pre_key", [toString id])
  | containsPreKey id => ("contains_pre_key", [toString id])
  | removePreKey id => ("remove_pre_key", [toString id])
  | signedPreKey id => ("get_signed_pre_key", [toString id])
  | allSignedPreKeys => ("get_all_signed_pre_keys", [])
  | saveSignedPreKey id _ => ("save_signed_pre_key", [toString id])
  | containsSignedPreKey id => ("contains_signed_pre_key", [toString id])
  | removeSignedPreKey id => ("remove_signed_pre_key", [toString id])
  | loadSenderKey name => ("load_sender_key", [name.display])
  | storeSenderKey name _ => ("store_sender_key", [name.display])

def name {A : Type} (call : StoreCall A) : String := call.parts.1

/-- The call as a list of calls shows it. -/
def display {A : Type} (call : StoreCall A) : String :=
  call.name ++ "(" ++ ",".intercalate call.parts.2 ++ ")"

end StoreCall

/-- What the library runs on: an application that answers calls on its stores, and whose computations draw
randomness, keep a log and may fail. -/
class Host (m : Type → Type) where
  act : {A : Type} → Act A → m A
  call : {A : Type} → StoreCall A → m A

instance {m : Type → Type} [Host m] : MonadLift Act m := ⟨Host.act⟩

end DoubleRatchet
