import DoubleRatchet.Act
import DoubleRatchet.PreKey
import DoubleRatchet.Session.Chain

/-!
The state of a session in its stored form, what can be read from it, and the step of the ratchet.
-/
namespace DoubleRatchet

open Protobuf

def maxReceivingChains : Nat := 5

/-- The keys of an exchange that has been offered and not been answered, in their stored form. -/
structure StoredKeyExchange where
  sequence : UInt32 := 0
  baseKey : Bytes := []
  basePrivateKey : Bytes := []
  ratchetKey : Bytes := []
  ratchetPrivateKey : Bytes := []
  identityKey : Bytes := []
  identityPrivateKey : Bytes := []
  deriving DecidableEq

/-- The keys of an exchange that has been offered and not been answered. -/
structure KeyExchange where
  sequence : UInt32
  base : KeyPair
  ratchet : KeyPair
  identity : KeyPair
  deriving DecidableEq

namespace StoredKeyExchange

def schema : Schema StoredKeyExchange where
  empty := {}
  slots := [
    .uint32 1 sequence fun m v => { m with sequence := v },
    .bytes 2 baseKey fun m v => { m with baseKey := v },
    .bytes 3 basePrivateKey fun m v => { m with basePrivateKey := v },
    .bytes 4 ratchetKey fun m v => { m with ratchetKey := v },
    .bytes 5 ratchetPrivateKey fun m v => { m with ratchetPrivateKey := v },
    .bytes 7 identityKey fun m v => { m with identityKey := v },
    .bytes 8 identityPrivateKey fun m v => { m with identityPrivateKey := v }]

def ofExchange (exchange : KeyExchange) : StoredKeyExchange where
  sequence := exchange.sequence
  baseKey := exchange.base.publicKey.serialize
  basePrivateKey := exchange.base.privateKey.serialize
  ratchetKey := exchange.ratchet.publicKey.serialize
  ratchetPrivateKey := exchange.ratchet.privateKey.serialize
  identityKey := exchange.identity.publicKey.serialize
  identityPrivateKey := exchange.identity.privateKey.serialize

def load (stored : StoredKeyExchange) : Except Fault KeyExchange := do
  return {
    sequence := stored.sequence,
    base := ← KeyPair.deserialize stored.baseKey stored.basePrivateKey,
    ratchet := ← KeyPair.deserialize stored.ratchetKey stored.ratchetPrivateKey,
    identity := ← KeyPair.deserialize stored.identityKey stored.identityPrivateKey }

end StoredKeyExchange

/-- What the messages of a session must announce until the other side has answered, in its stored form. -/
structure StoredPendingPreKey where
  preKeyId : Option UInt32 := none
  baseKey : Bytes := []
  signedPreKeyId : UInt32 := 0
  deriving DecidableEq

/-- What the messages of a session must announce until the other side has answered: the keys of the handshake. -/
structure PendingPreKey where
  preKeyId : Option UInt32
  signedPreKeyId : UInt32
  baseKey : PublicKey
  deriving DecidableEq

namespace StoredPendingPreKey

def schema : Schema StoredPendingPreKey where
  empty := {}
  slots := [
    .optionalUint32 1 preKeyId fun m v => { m with preKeyId := v },
    .bytes 2 baseKey fun m v => { m with baseKey := v },
    .int32 3 signedPreKeyId fun m v => { m with signedPreKeyId := v }]

def ofPending (pending : PendingPreKey) : StoredPendingPreKey :=
  ⟨pending.preKeyId, pending.baseKey.serialize, pending.signedPreKeyId⟩

/-- The number that stands for no one-time key is read as none. -/
def load (stored : StoredPendingPreKey) : Except Fault PendingPreKey := do
  return ⟨stored.preKeyId.filter (· != noPreKey), stored.signedPreKeyId, ← PublicKey.deserialize stored.baseKey⟩

end StoredPendingPreKey

/-- One side of a session. -/
structure SessionState where
  storedVersion : UInt32 := 0
  localIdentity : Bytes := []
  remoteIdentity : Bytes := []
  rootKey : Bytes := []
  previousCounter : UInt32 := 0
  sender : Option Chain := none
  /-- The oldest first. -/
  receivers : List Chain := []
  pendingKeyExchange : Option StoredKeyExchange := none
  pendingPreKey : Option StoredPendingPreKey := none
  remoteRegistrationId : UInt32 := 0
  localRegistrationId : UInt32 := 0
  needsRefresh : Bool := false
  /-- The initiator's base key, by which a repeated handshake is known. -/
  baseKey : Bytes := []
  deriving DecidableEq

namespace SessionState

def schema : Schema SessionState where
  empty := {}
  slots := [
    .uint32 1 storedVersion fun m v => { m with storedVersion := v },
    .bytes 2 localIdentity fun m v => { m with localIdentity := v },
    .bytes 3 remoteIdentity fun m v => { m with remoteIdentity := v },
    .bytes 4 rootKey fun m v => { m with rootKey := v },
    .uint32 5 previousCounter fun m v => { m with previousCounter := v },
    .message 6 Chain.schema sender fun m v => { m with sender := v },
    .messages 7 Chain.schema receivers fun m v => { m with receivers := v },
    .message 8 StoredKeyExchange.schema pendingKeyExchange fun m v => { m with pendingKeyExchange := v },
    .message 9 StoredPendingPreKey.schema pendingPreKey fun m v => { m with pendingPreKey := v },
    .uint32 10 remoteRegistrationId fun m v => { m with remoteRegistrationId := v },
    .uint32 11 localRegistrationId fun m v => { m with localRegistrationId := v },
    .bool 12 needsRefresh fun m v => { m with needsRefresh := v },
    .bytes 13 baseKey fun m v => { m with baseKey := v }]

def encode (state : SessionState) : Bytes := schema.encode state

def decode (bytes : Bytes) : Except Fault SessionState :=
  match schema.decode? bytes with
  | some state => .ok state
  | none => .error .undecodableBody

/-! ## Reading -/

/-- A state that was stored without a version has version 2. -/
def version (state : SessionState) : UInt32 := if state.storedVersion = 0 then 2 else state.storedVersion

def localIdentityKey (state : SessionState) : Except Fault PublicKey := PublicKey.deserialize state.localIdentity

def remoteIdentityKey? (state : SessionState) : Except Fault (Option PublicKey) :=
  if state.remoteIdentity.isEmpty then .ok none
  else return some (← PublicKey.deserialize state.remoteIdentity)

/-- The remote identity of a state that must have one. -/
def remoteIdentityKey (state : SessionState) : Except Fault PublicKey := do
  match ← state.remoteIdentityKey? with
  | some key => .ok key
  | none => .error (.corruptSession "state has no remote identity")

def root (state : SessionState) : Except Fault RootKey :=
  return ⟨← exactBytes 32 state.rootKey "root key is not 32 bytes"⟩

def sendingChain (state : SessionState) : Except Fault Chain :=
  match state.sender with
  | some chain => .ok chain
  | none => .error (.corruptSession "no sending chain")

/-- The ratchet key that the state sends under. -/
def ratchetKey (state : SessionState) : Except Fault PublicKey := do
  PublicKey.deserialize (← state.sendingChain).ratchetKey

/-- The ratchet key as the log shows it, or why there is none. -/
def ratchetKeyText (state : SessionState) : String :=
  match state.ratchetKey with
  | .ok key => key.hex
  | .error fault => s!"<{fault.message}>"

def sendingChainKey (state : SessionState) : Except Fault ChainKey := do
  (← state.sendingChain).key

/-- The first chain of messages from the owner of a ratchet key. -/
def receivingChain? (state : SessionState) (ratchetKey : PublicKey) : Option Chain :=
  state.receivers.find? (·.ratchetKey == ratchetKey.serialize)

def receivingChainKey? (state : SessionState) (ratchetKey : PublicKey) : Except Fault (Option ChainKey) :=
  match state.receivingChain? ratchetKey with
  | some chain => return some (← chain.key)
  | none => .ok none

def pendingPreKey? (state : SessionState) : Except Fault (Option PendingPreKey) :=
  match state.pendingPreKey with
  | some stored => return some (← stored.load)
  | none => .ok none

def pendingKeyExchange? (state : SessionState) : Except Fault (Option KeyExchange) :=
  match state.pendingKeyExchange with
  | some stored => return some (← stored.load)
  | none => .ok none

/-- A line about the state for the log. -/
def summary (state : SessionState) : String :=
  s!"v{state.version} base {state.baseKey.hex} ratchet {state.ratchetKeyText} ({state.receivers.length} receiving chains)"

/-! ## Changing -/

def start (version : UInt8) (localIdentity remoteIdentity : PublicKey) (root : RootKey) (baseKey : PublicKey) :
    SessionState where
  storedVersion := version.toUInt32
  localIdentity := localIdentity.serialize
  remoteIdentity := remoteIdentity.serialize
  rootKey := root.key.bytes
  baseKey := baseKey.serialize

def withSendingChain (state : SessionState) (pair : KeyPair) (key : ChainKey) : SessionState :=
  { state with sender := some (.sending pair key) }

/-- A new receiving chain; beyond the limit it pushes out the oldest. -/
def withReceivingChain (state : SessionState) (ratchetKey : PublicKey) (key : ChainKey) : SessionState :=
  { state with receivers := Window.append maxReceivingChains state.receivers [.receiving ratchetKey key] }

/-- The sending chain brought to a new place. -/
def withSendingChainKey (state : SessionState) (key : ChainKey) : SessionState :=
  { state with sender := state.sender.map fun chain => { chain with chainKey := some (.ofKey key) } }

/-- A change of the first chain of messages from the owner of a ratchet key. -/
def updateReceivingChain (state : SessionState) (ratchetKey : PublicKey) (f : Chain → Chain) : SessionState :=
  let place := state.receivers.findIdx (·.ratchetKey == ratchetKey.serialize)
  { state with receivers := state.receivers.modify place f }

/-- The other side has answered: nothing has to be announced any more. -/
def acknowledge (state : SessionState) : SessionState := { state with pendingPreKey := none }

def withPendingPreKey (state : SessionState) (pending : PendingPreKey) : SessionState :=
  { state with pendingPreKey := some (.ofPending pending) }

def withKeyExchange (state : SessionState) (exchange : KeyExchange) : SessionState :=
  { state with pendingKeyExchange := some (.ofExchange exchange) }

def withRegistrationIds (state : SessionState) (ours theirs : UInt32) : SessionState :=
  { state with localRegistrationId := ours, remoteRegistrationId := theirs }

/-! ## The ratchet -/

/-- What a step of the ratchet starts from: the ratchet key the state sends under, and its root key. -/
def ratchetBase (state : SessionState) : Except Fault (PrivateKey × RootKey) := do
  let chain ← state.sendingChain
  return (← PrivateKey.deserialize chain.ratchetPrivateKey, ← state.root)

/-- The state after a step of the ratchet that answers the peer's key with `fresh`: a receiving chain from the old
ratchet key, then a sending chain from the new one. -/
def ratchet (state : SessionState) (ours : PrivateKey) (root : RootKey) (peer : PublicKey) (fresh : KeyPair) :
    Except Fault SessionState := do
  let (root, receiving) := root.derive peer ours
  let (root, sending) := root.derive peer fresh.privateKey
  let index := (← state.sendingChainKey).index
  let state := { state with
    previousCounter := if index = 0 then 0 else index - 1
    rootKey := root.key.bytes }
  return (state.withReceivingChain peer receiving).withSendingChain fresh sending

/-- A step of the ratchet with a new key pair, which is drawn once nothing but the sending chain's place can be
missing. -/
def stepRatchet (state : SessionState) (peer : PublicKey) : Act SessionState := do
  let (ours, root) ← state.ratchetBase
  let fresh ← KeyPair.generate
  state.ratchet ours root peer fresh

end SessionState

end DoubleRatchet
