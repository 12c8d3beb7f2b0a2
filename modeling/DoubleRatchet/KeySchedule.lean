import DoubleRatchet.Hash.Hmac
import DoubleRatchet.Key

/-!
The keys of a session: a root key yields chain keys, a chain key yields the next one and the keys of one message.
-/
namespace DoubleRatchet

open Hash

abbrev Key := FixedBytes 32

/-- What enciphers and authenticates one message, and the number of that message in its chain. -/
structure MessageKeys where
  cipherKey : Key
  macKey : Key
  iv : FixedBytes 16
  counter : UInt32
  deriving DecidableEq

namespace MessageKeys

/-- The keys that a seed of 32 bytes stands for. -/
def expand (seed : Key) (counter : UInt32) : MessageKeys :=
  let material := hkdf seed.bytes none (.ofText "WhisperMessageKeys") 80
  { cipherKey := material.slice 0 32, macKey := material.slice 32 32, iv := material.slice 64 16, counter }

/-- The keys as they are shown to a developer, without the secrets. -/
def display (keys : MessageKeys) : String := s!"MessageKeys \x7b counter: {keys.counter}, .. \x7d"

end MessageKeys

/-- The key of a chain at the message with number `index`. -/
structure ChainKey where
  key : Key
  index : UInt32
  deriving DecidableEq

namespace ChainKey

/-- The key of the chain at the message after. -/
def next (chain : ChainKey) : ChainKey := ⟨hmac chain.key.bytes [2], chain.index + 1⟩

/-- The key of the chain `n` messages on. -/
def advance : Nat → ChainKey → ChainKey
  | 0, chain => chain
  | n + 1, chain => advance n chain.next

/-- The keys of the message the chain stands at. -/
def messageKeys (chain : ChainKey) : MessageKeys := .expand (hmac chain.key.bytes [1]) chain.index

/-- The keys of the next `n` messages, in order. -/
def messageKeysUpTo : (n : Nat) → ChainKey → List MessageKeys
  | 0, _ => []
  | n + 1, chain => chain.messageKeys :: messageKeysUpTo n chain.next

end ChainKey

/-- The key that each step of the ratchet derives chains from. -/
structure RootKey where
  key : Key
  deriving DecidableEq

namespace RootKey

/-- A root key and a new chain from 64 bytes of key material. -/
def split (material : FixedBytes 64) : RootKey × ChainKey :=
  let (root, chain) := FixedBytes.halves 32 material
  (⟨root⟩, ⟨chain, 0⟩)

/-- The root key and the chain that follow from the agreement between two ratchet keys. -/
def derive (root : RootKey) (peer : PublicKey) (ours : PrivateKey) : RootKey × ChainKey :=
  split (hkdf (ours.agree peer) (some root.key.bytes) (.ofText "WhisperRatchet") 64)

/-- The root key and the chain that follow from the agreements of a handshake. -/
def ofAgreements (agreements : List Bytes) : RootKey × ChainKey :=
  split (hkdf (List.replicate 32 0xff ++ agreements.flatten) none (.ofText "WhisperText") 64)

end RootKey

end DoubleRatchet
