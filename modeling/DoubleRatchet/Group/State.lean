import DoubleRatchet.Act
import DoubleRatchet.Hash.Hmac
import DoubleRatchet.Key
import DoubleRatchet.Protobuf.Schema
import DoubleRatchet.Window

/-!
The chain of one sender to a group, in its stored form. It serves the key of any message up to a number of steps
ahead of it. It keeps the seeds of the keys of messages it passes over, the latest of them, each until the key is served.
-/
namespace DoubleRatchet.Group

open Hash Protobuf

/-- How far a message may be ahead of its chain. -/
def maxSkip : Nat := 2000

/-- How many keys of messages passed over a chain keeps. -/
def maxCachedKeys : Nat := 2000

def corrupt (what : String) : Fault := .badState "sender key state" what

/-- What enciphers one message. -/
structure MessageKey where
  iteration : UInt32
  seed : FixedBytes 32
  deriving DecidableEq

namespace MessageKey

def material (key : MessageKey) : FixedBytes 48 := hkdf key.seed.bytes none (.ofText "WhisperGroup") 48

def iv (key : MessageKey) : FixedBytes 16 := key.material.slice 0 16

def cipherKey (key : MessageKey) : FixedBytes 32 := key.material.slice 16 32

end MessageKey

/-- The seed of a chain at the message with number `iteration`. -/
structure ChainKey where
  iteration : UInt32
  seed : FixedBytes 32
  deriving DecidableEq

namespace ChainKey

/-- The key of the message the chain stands at. -/
def messageKey (chain : ChainKey) : MessageKey := ⟨chain.iteration, hmac chain.seed.bytes [1]⟩

def next (chain : ChainKey) : ChainKey := ⟨chain.iteration + 1, hmac chain.seed.bytes [2]⟩

/-- The chain at the message after, which the last message of all has not. -/
def next? (chain : ChainKey) : Except Fault ChainKey :=
  if chain.iteration = 0xffffffff then .error (corrupt "chain iteration overflowed") else .ok chain.next

def advance : Nat → ChainKey → ChainKey
  | 0, chain => chain
  | n + 1, chain => advance n chain.next

/-- The keys of the next `n` messages, in order. -/
def messageKeysUpTo : (n : Nat) → ChainKey → List MessageKey
  | 0, _ => []
  | n + 1, chain => chain.messageKey :: messageKeysUpTo n chain.next

end ChainKey

/-- A number and a seed: the stored form of a place in a chain, and of a key that is kept. -/
structure StoredSeed where
  iteration : UInt32 := 0
  seed : Bytes := []
  deriving DecidableEq

namespace StoredSeed

def schema : Schema StoredSeed where
  empty := {}
  slots := [
    .uint32 1 iteration fun m v => { m with iteration := v },
    .bytes 2 seed fun m v => { m with seed := v }]

def ofChainKey (chain : ChainKey) : StoredSeed := ⟨chain.iteration, chain.seed.bytes⟩

def ofMessageKey (key : MessageKey) : StoredSeed := ⟨key.iteration, key.seed.bytes⟩

def seed32 (stored : StoredSeed) (complaint : String) : Except Fault (FixedBytes 32) :=
  match FixedBytes.ofBytes? 32 stored.seed with
  | some seed => .ok seed
  | none => .error (corrupt complaint)

end StoredSeed

/-- The stored form of a signing key, of which only the sender has the private half. -/
structure StoredSigningKey where
  publicKey : Bytes := []
  privateKey : Bytes := []
  deriving DecidableEq

def StoredSigningKey.schema : Schema StoredSigningKey where
  empty := {}
  slots := [
    .bytes 1 publicKey fun m v => { m with publicKey := v },
    .bytes 2 privateKey fun m v => { m with privateKey := v }]

/-- One chain of a sender to a group. -/
structure SenderKeyState where
  keyId : UInt32 := 0
  chain : Option StoredSeed := none
  signing : Option StoredSigningKey := none
  cache : List StoredSeed := []
  deriving DecidableEq

namespace SenderKeyState

def schema : Schema SenderKeyState where
  empty := {}
  slots := [
    .uint32 1 keyId fun m v => { m with keyId := v },
    .message 2 StoredSeed.schema chain fun m v => { m with chain := v },
    .message 3 StoredSigningKey.schema signing fun m v => { m with signing := v },
    .messages 4 StoredSeed.schema cache fun m v => { m with cache := v }]

def start (keyId : UInt32) (chain : ChainKey) (signingKey : PublicKey) (signingPrivateKey : Option PrivateKey) :
    SenderKeyState where
  keyId
  chain := some (.ofChainKey chain)
  signing := some ⟨signingKey.serialize, (signingPrivateKey.map PrivateKey.serialize).getD []⟩

def chainKey (state : SenderKeyState) : Except Fault ChainKey :=
  match state.chain with
  | none => .error (corrupt "no chain key")
  | some stored => return ⟨stored.iteration, ← stored.seed32 "chain seed is not 32 bytes"⟩

def withChainKey (state : SenderKeyState) (chain : ChainKey) : SenderKeyState :=
  { state with chain := some (.ofChainKey chain) }

def signingKey (state : SenderKeyState) : Except Fault PublicKey :=
  match state.signing with
  | none => .error (corrupt "no signing key")
  | some signing => PublicKey.deserialize signing.publicKey

/-- The private half of the signing key, if the state is the sender's own. -/
def signingPrivateKey? (state : SenderKeyState) : Except Fault (Option PrivateKey) :=
  match state.signing with
  | some signing =>
    if signing.privateKey.isEmpty then .ok none
    else return some (← PrivateKey.deserialize signing.privateKey)
  | none => .ok none

/-- The key of a message, from a chain that stands at `chain`. -/
def keyFor (state : SenderKeyState) (chain : ChainKey) (iteration : UInt32) : Except Fault MessageKey :=
  if iteration < chain.iteration then
    match state.cache.find? (·.iteration == iteration) with
    | some stored =>
      return ⟨stored.iteration, ← stored.seed32 "cached message key seed is not 32 bytes"⟩
    | none => .error (.duplicate chain.iteration iteration)
  else
    let skip := iteration - chain.iteration
    if maxSkip < skip.toNat then .error (.tooFarAhead skip)
    else do
      let reached := chain.advance skip.toNat
      let _ ← reached.next?
      return reached.messageKey

/-- The state that a request for the key of a message leaves: the seed kept for the message is given up, or the seeds of
the messages up to it are kept and the chain passes it. The seeds are kept before it is known whether the chain can. -/
def asked (state : SenderKeyState) (chain : ChainKey) (iteration : UInt32) : SenderKeyState :=
  if iteration < chain.iteration then { state with cache := state.cache.eraseP (·.iteration == iteration) }
  else
    let skip := (iteration - chain.iteration).toNat
    if maxSkip < skip then state
    else
      let passed := { state with
        cache := Window.append maxCachedKeys state.cache ((chain.messageKeysUpTo skip).map .ofMessageKey) }
      match (chain.advance skip).next? with
      | .ok next => passed.withChainKey next
      | .error _ => passed

/-- A request for the key of a message, and the state that it leaves, whether or not there is a key. -/
def ask (state : SenderKeyState) (iteration : UInt32) : Except Fault MessageKey × SenderKeyState :=
  match state.chainKey with
  | .error fault => (.error fault, state)
  | .ok chain => (state.keyFor chain iteration, state.asked chain iteration)

/-- A request for the key of a message. The state that it leaves is only of use if there is a key. -/
def request (state : SenderKeyState) (iteration : UInt32) : Except Fault (MessageKey × SenderKeyState) :=
  let (key, left) := state.ask iteration
  key.map (·, left)

/-- A request for the key of a message, and a note on why there is none. -/
def requestNoting (state : SenderKeyState) (name : SenderKeyName) (iteration : UInt32) :
    Act (MessageKey × SenderKeyState) :=
  match state.request iteration with
  | .ok served => return served
  | .error fault => do
    match fault with
    | .duplicate current iteration =>
      note .info s!"{name.display} repeated iteration {iteration}, chain is at {current}"
    | .tooFarAhead steps =>
      note .error s!"{name.display} jumped {steps} iterations ahead of {iteration - steps}, more than {maxSkip}"
    | _ => pure ()
    throw fault

end SenderKeyState

end DoubleRatchet.Group
