import DoubleRatchet.KeySchedule
import DoubleRatchet.Protobuf.Schema
import DoubleRatchet.Window

/-!
The chains of a session in their stored form. A receiving chain serves the keys of any message up to a number of
steps ahead of it, once each: it keeps the keys of the messages it passes over, the latest of them.
-/
namespace DoubleRatchet

open Protobuf

/-- How far a message may be ahead of its chain. -/
def maxSkip : Nat := 5000

/-- How many keys of messages passed over a chain keeps. -/
def maxCachedKeys : Nat := 2000

/-- A part of stored data that must have `n` bytes. -/
def exactBytes (n : Nat) (bytes : Bytes) (complaint : String) : Except Fault (FixedBytes n) :=
  match FixedBytes.ofBytes? n bytes with
  | some block => .ok block
  | none => .error (.corruptSession complaint)

/-- The stored form of message keys. -/
structure StoredMessageKeys where
  index : UInt32 := 0
  cipherKey : Bytes := []
  macKey : Bytes := []
  iv : Bytes := []
  deriving DecidableEq

namespace StoredMessageKeys

def schema : Schema StoredMessageKeys where
  empty := {}
  slots := [
    .uint32 1 index fun m v => { m with index := v },
    .bytes 2 cipherKey fun m v => { m with cipherKey := v },
    .bytes 3 macKey fun m v => { m with macKey := v },
    .bytes 4 iv fun m v => { m with iv := v }]

def ofKeys (keys : MessageKeys) : StoredMessageKeys :=
  ⟨keys.counter, keys.cipherKey.bytes, keys.macKey.bytes, keys.iv.bytes⟩

def load (stored : StoredMessageKeys) : Except Fault MessageKeys := do
  return {
    cipherKey := ← exactBytes 32 stored.cipherKey "cached cipher key has the wrong length",
    macKey := ← exactBytes 32 stored.macKey "cached MAC key has the wrong length",
    iv := ← exactBytes 16 stored.iv "cached IV has the wrong length",
    counter := stored.index }

end StoredMessageKeys

/-- The stored form of a chain key. -/
structure StoredChainKey where
  index : UInt32 := 0
  key : Bytes := []
  deriving DecidableEq

namespace StoredChainKey

def schema : Schema StoredChainKey where
  empty := {}
  slots := [
    .uint32 1 index fun m v => { m with index := v },
    .bytes 2 key fun m v => { m with key := v }]

def ofKey (key : ChainKey) : StoredChainKey := ⟨key.index, key.key.bytes⟩

end StoredChainKey

/-- A chain with the ratchet key it belongs to. Only a sending chain has the private key, and only a receiving
chain keeps keys. -/
structure Chain where
  ratchetKey : Bytes := []
  ratchetPrivateKey : Bytes := []
  chainKey : Option StoredChainKey := none
  cache : List StoredMessageKeys := []
  deriving DecidableEq

namespace Chain

def schema : Schema Chain where
  empty := {}
  slots := [
    .bytes 1 ratchetKey fun m v => { m with ratchetKey := v },
    .bytes 2 ratchetPrivateKey fun m v => { m with ratchetPrivateKey := v },
    .message 3 StoredChainKey.schema chainKey fun m v => { m with chainKey := v },
    .messages 4 StoredMessageKeys.schema cache fun m v => { m with cache := v }]

def sending (pair : KeyPair) (key : ChainKey) : Chain where
  ratchetKey := pair.publicKey.serialize
  ratchetPrivateKey := pair.privateKey.serialize
  chainKey := some (.ofKey key)

/-- A new chain of messages from the owner of a ratchet key. -/
def receiving (ratchetKey : PublicKey) (key : ChainKey) : Chain where
  ratchetKey := ratchetKey.serialize
  chainKey := some (.ofKey key)

def key (chain : Chain) : Except Fault ChainKey :=
  match chain.chainKey with
  | none => .error (.corruptSession "chain has no chain key")
  | some stored => do
    return ⟨← exactBytes 32 stored.key "chain key is not 32 bytes", stored.index⟩

/-- The keys of a message of a chain that stands at `key`. -/
def keysFor (chain : Chain) (key : ChainKey) (counter : UInt32) : Except Fault MessageKeys :=
  if counter < key.index then
    match chain.cache.find? (·.index == counter) with
    | some stored => stored.load
    | none => .error (.duplicate key.index counter)
  else
    let skip := counter - key.index
    if maxSkip < skip.toNat then .error (.tooFarAhead skip)
    else .ok (key.advance skip.toNat).messageKeys

/-- The chain after the keys of a message have been served: those kept for it are given up, or the chain passes it
and keeps the keys of the messages it passes over. -/
def served (chain : Chain) (key : ChainKey) (counter : UInt32) : Chain :=
  if counter < key.index then { chain with cache := chain.cache.eraseP (·.index == counter) }
  else
    let skip := (counter - key.index).toNat
    { chain with
      chainKey := some (.ofKey (key.advance skip).next)
      cache := Window.append maxCachedKeys chain.cache ((key.messageKeysUpTo skip).map .ofKeys) }

/-- A request for the keys of a message. -/
def request (chain : Chain) (counter : UInt32) : Except Fault (MessageKeys × Chain) := do
  let key ← chain.key
  return (← chain.keysFor key counter, chain.served key counter)

end Chain

end DoubleRatchet
