import DoubleRatchet.Proofs.Conversation.Progress
import DoubleRatchet.Proofs.Session.ReceivingChain

/-! The rungs that two sides climb in turn: each draws a key pair, and both derive the same root key and chain from it
and from the rung below. The chain that the reader of a rung keeps is determined by the rung and by the progress there. -/
namespace DoubleRatchet

/-- A key pair that one side has drawn, and what both derive with it: a root key and a chain for messages. -/
structure Rung where
  pair : KeyPair
  root : RootKey
  seed : Key

namespace Rung

def key (rung : Rung) : PublicKey := rung.pair.publicKey

def start (rung : Rung) : ChainKey := ⟨rung.seed, 0⟩

def keys (rung : Rung) (n : Nat) : MessageKeys := (rung.start.advance n).messageKeys

/-- The keys of message `n` as a chain keeps them. -/
def stored (rung : Rung) (n : Nat) : StoredMessageKeys := .ofKeys (rung.keys n)

/-- The rung above, as the owner of its key pair derives it. -/
def next (below : Rung) (pair : KeyPair) : Rung :=
  let (root, start) := below.root.derive below.key pair.privateKey
  ⟨pair, root, start.key⟩

/-- The rung above, as the owner of the key pair below derives it. -/
theorem derive_of_above (rung : Rung) {below : Rung} (above : rung = below.next rung.pair)
    (agrees : below.pair.Agrees rung.pair) :
    below.root.derive rung.key below.pair.privateKey = (rung.root, rung.start) := by
  have same : below.root.derive rung.key below.pair.privateKey = below.root.derive below.key rung.pair.privateKey := by
    rw [RootKey.derive, RootKey.derive, key, agrees, key]
  rw [same, above]
  rfl

def chain (rung : Rung) (progress : Progress) : Chain where
  ratchetKey := rung.key.serialize
  chainKey := some (.ofKey (rung.start.advance progress.index))
  cache := progress.kept.map rung.stored

theorem chain_new (rung : Rung) : rung.chain {} = .receiving rung.key rung.start := rfl

variable (rung : Rung) {progress : Progress} {n : Nat}

theorem chain_key : (rung.chain progress).key = .ok (rung.start.advance progress.index) := by
  simp [Chain.key, chain, StoredChainKey.ofKey, bind, Except.bind, pure, Except.pure]

theorem advance_index (n : Nat) : (rung.start.advance n).index = .ofNat n := by
  rw [ChainKey.advance_index]
  exact UInt32.zero_add _

/-- The chain of the rung, as its reader looks at it. -/
def receiving : ReceivingChain := ⟨rung.key, rung.start⟩

theorem receiving_link (n : Nat) : rung.receiving.link n = rung.start.advance n :=
  rung.receiving.link_eq_advance (Nat.zero_le n)

theorem receiving_keys (n : Nat) : rung.receiving.keys n = rung.keys n :=
  congrArg ChainKey.messageKeys (rung.receiving_link n)

theorem receiving_stored : rung.receiving.stored = rung.stored :=
  funext fun n => congrArg StoredMessageKeys.ofKeys (rung.receiving_keys n)

theorem receiving_chain (progress : Progress) : rung.receiving.chain progress = rung.chain progress := by
  rw [ReceivingChain.chain, rung.receiving_link, rung.receiving_stored]
  rfl

theorem keysFor_chain (sound : progress.Sound) (bound : n < UInt32.size)
    (reachable : n ∈ progress.kept ∨ progress.index ≤ n ∧ n ≤ progress.index + maxSkip) :
    (rung.chain progress).keysFor (rung.start.advance progress.index) (.ofNat n) = .ok (rung.keys n) := by
  rw [← rung.receiving_chain, ← rung.receiving_link, ← rung.receiving_keys]
  exact rung.receiving.keysFor_chain sound (Nat.zero_le _) bound reachable

theorem served_chain (sound : progress.Sound) (bound : n < UInt32.size) :
    (rung.chain progress).served (rung.start.advance progress.index) (.ofNat n) = rung.chain (progress.read n) := by
  rw [← rung.receiving_chain, ← rung.receiving_chain, ← rung.receiving_link]
  exact rung.receiving.served_chain sound (Nat.zero_le _) bound

end Rung

end DoubleRatchet
