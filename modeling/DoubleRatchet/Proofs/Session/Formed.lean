import DoubleRatchet.Proofs.Session.Serving

/-! States whose stored parts can all be read back. All that such a state can fail on is the message: its version, the
place of its keys, its authenticity. -/
namespace DoubleRatchet

theorem RatchetMessage.decipher_ne_duplicate (message : RatchetMessage) (keys : MessageKeys) (sender receiver : PublicKey)
    (index counter : UInt32) : message.decipher keys sender receiver ≠ .error (.duplicate index counter) := by
  unfold decipher
  split
  · split <;> exact nofun
  · exact nofun

namespace SessionState

/-- A state of the current version between two identities, which sends with a ratchet key pair and has derived its root
key there. -/
structure Formed (state : SessionState) (own remote : PublicKey) (pair : KeyPair) (root : RootKey) (place : ChainKey) :
    Prop where
  version : state.storedVersion = 3
  own : state.localIdentity = own.serialize
  remote : state.remoteIdentity = remote.serialize
  root : state.rootKey = root.key.bytes
  sender : state.sender = some (.sending pair place)

def openWith (state : SessionState) (message : RatchetMessage) (chain : Chain) (key : ChainKey) (own remote : PublicKey) :
    Except Fault Opened := do
  let keys ← chain.keysFor key message.counter
  let plaintext ← message.decipher keys remote own
  return { state := state.afterRead message key, plaintext, keys }

namespace Formed

variable {state : SessionState} {own remote : PublicKey} {pair : KeyPair} {root : RootKey} {place : ChainKey}
  {message : RatchetMessage}

theorem localIdentityKey (formed : state.Formed own remote pair root place) : state.localIdentityKey = .ok own := by
  rw [SessionState.localIdentityKey, formed.own, PublicKey.deserialize_serialize]

theorem remoteIdentityKey? (formed : state.Formed own remote pair root place) :
    state.remoteIdentityKey? = .ok (some remote) := by
  rw [SessionState.remoteIdentityKey?, formed.remote, PublicKey.serialize_isEmpty, PublicKey.deserialize_serialize]
  rfl

theorem remoteIdentityKey (formed : state.Formed own remote pair root place) : state.remoteIdentityKey = .ok remote := by
  rw [SessionState.remoteIdentityKey, formed.remoteIdentityKey?]
  rfl

theorem sendingChainKey (formed : state.Formed own remote pair root place) : state.sendingChainKey = .ok place := by
  rw [SessionState.sendingChainKey, sendingChain, formed.sender]
  simp [Chain.key, Chain.sending, StoredChainKey.ofKey, bind, Except.bind, pure, Except.pure]

theorem ratchetKey (formed : state.Formed own remote pair root place) : state.ratchetKey = .ok pair.publicKey := by
  rw [SessionState.ratchetKey, sendingChain, formed.sender]
  exact PublicKey.deserialize_serialize _

theorem root_eq (formed : state.Formed own remote pair root place) : state.root = .ok root := by
  rw [SessionState.root, formed.root, exactBytes_bytes]
  rfl

theorem ratchetBase (formed : state.Formed own remote pair root place) :
    state.ratchetBase = .ok (pair.privateKey, root) := by
  rw [SessionState.ratchetBase, sendingChain, formed.sender, formed.root_eq]
  simp [Chain.sending, PrivateKey.deserialize_serialize, bind, Except.bind, pure, Except.pure]

theorem takes (formed : state.Formed own remote pair root place) (version : message.version = 3) : state.Takes message := by
  refine ⟨by rw [formed.sender]; exact Option.some_ne_none _, ?_⟩
  rw [version, SessionState.version, formed.version]
  rfl

theorem read_version (formed : state.Formed own remote pair root place) (version : message.version ≠ 3)
    (fresh : KeyPair) : state.read message fresh = .error (.versionMismatch message.version.toUInt32) := by
  have mismatch : message.version.toUInt32 ≠ state.version := by
    rw [SessionState.version, formed.version]
    intro same
    apply version
    have := congrArg UInt32.toNat same
    apply UInt8.toNat_inj.mp
    simpa using this
  have base : state.stepBase message = .error (.versionMismatch message.version.toUInt32) := by
    rw [stepBase, formed.sender, if_neg (by simp), if_pos mismatch]
  simp only [read, reached, base, bind, Except.bind]

end Formed

theorem readOnChain_of_found {state : SessionState} {message : RatchetMessage} {chain : Chain} {key : ChainKey}
    {own remote : PublicKey} (found : state.receivingChain? message.ratchetKey = some chain) (placed : chain.key = .ok key)
    (remote_eq : state.remoteIdentityKey = .ok remote) (own_eq : state.localIdentityKey = .ok own) :
    state.readOnChain message = state.openWith message chain key own remote := by
  simp only [readOnChain, openWith, found, placed, remote_eq, own_eq]
  rfl

/-- A new receiving chain comes last, after the others or all but the oldest of them. -/
theorem stepped_receivers_eq (state : SessionState) (ours : PrivateKey) (root : RootKey) (peer : PublicKey)
    (fresh : KeyPair) (place : ChainKey) : (state.stepped ours root peer fresh place).receivers =
      state.receivers.drop (min 1 (state.receivers.length + 1 - maxReceivingChains)) ++
        [.receiving peer (root.derive peer ours).2] := by
  rw [stepped_receivers, Window.append, List.length_singleton, List.drop_append_of_le_length]
  unfold maxReceivingChains
  omega

theorem stepped_receivingChain? {state : SessionState} {peer : PublicKey} (missing : state.receivingChain? peer = none)
    (ours : PrivateKey) (root : RootKey) (fresh : KeyPair) (place : ChainKey) :
    (state.stepped ours root peer fresh place).receivingChain? peer = some (.receiving peer (root.derive peer ours).2) := by
  rw [receivingChain?, List.find?_eq_none] at missing
  rw [receivingChain?, stepped_receivers_eq, List.find?_append]
  rw [List.find?_eq_none.mpr fun chain member => missing chain (List.mem_of_mem_drop member)]
  simp [Chain.receiving]

theorem receiving_key (ratchetKey : PublicKey) (key : ChainKey) : (Chain.receiving ratchetKey key).key = .ok key := by
  simp [Chain.key, Chain.receiving, StoredChainKey.ofKey, bind, Except.bind, pure, Except.pure]

namespace Formed

variable {state : SessionState} {own remote : PublicKey} {pair : KeyPair} {root : RootKey} {place : ChainKey}
  {message : RatchetMessage}

theorem stepped (formed : state.Formed own remote pair root place) (peer : PublicKey) (fresh : KeyPair) :
    let root' := (root.derive peer pair.privateKey).1
    (state.stepped pair.privateKey root peer fresh place).Formed own remote fresh (root'.derive peer fresh.privateKey).1
      (root'.derive peer fresh.privateKey).2 where
  version := formed.version
  own := (stepped_localIdentity ..).trans formed.own
  remote := (stepped_remoteIdentity ..).trans formed.remote
  root := stepped_rootKey ..
  sender := stepped_sender ..

theorem stepRatchet_yields (formed : state.Formed own remote pair root place) (peer : PublicKey) (e : Entropy) :
    Act.Yields (state.stepRatchet peer) e (.ok (state.stepped pair.privateKey root peer (e.pair 0) place)) (e.skip 1) := by
  have run := state.stepRatchet_yields peer e formed.ratchetBase
  rw [ratchet_eq_ok.mpr ⟨place, formed.sendingChainKey, rfl⟩] at run
  exact run

theorem read_known (formed : state.Formed own remote pair root place) (version : message.version = 3) {chain : Chain}
    {key : ChainKey} (found : state.receivingChain? message.ratchetKey = some chain) (placed : chain.key = .ok key)
    (fresh : KeyPair) : state.read message fresh = state.openWith message chain key own remote := by
  have base := stepBase_eq_none.mpr ⟨formed.takes version, key, receivingChainKey?_eq_some.mpr ⟨chain, found, placed⟩⟩
  simp only [read, reached, base]
  exact readOnChain_of_found found placed formed.remoteIdentityKey formed.localIdentityKey

theorem read_new (formed : state.Formed own remote pair root place) (version : message.version = 3)
    (missing : state.receivingChain? message.ratchetKey = none) (fresh : KeyPair) :
    let receiving := (root.derive message.ratchetKey pair.privateKey).2
    state.read message fresh = (state.stepped pair.privateKey root message.ratchetKey fresh place).openWith message
      (.receiving message.ratchetKey receiving) receiving own remote := by
  intro receiving
  have base := stepBase_eq_some.mpr ⟨formed.takes version, missing, formed.ratchetBase⟩
  have step : state.ratchet pair.privateKey root message.ratchetKey fresh =
      .ok (state.stepped pair.privateKey root message.ratchetKey fresh place) :=
    ratchet_eq_ok.mpr ⟨place, formed.sendingChainKey, rfl⟩
  simp only [read, reached, base, step, bind, Except.bind]
  have stepped := formed.stepped message.ratchetKey fresh
  exact readOnChain_of_found (stepped_receivingChain? missing _ _ _ _) (receiving_key _ _) stepped.remoteIdentityKey
    stepped.localIdentityKey

theorem draws_new (formed : state.Formed own remote pair root place) (version : message.version = 3)
    (missing : state.receivingChain? message.ratchetKey = none) : state.draws message = 1 :=
  draws_eq_one (formed.takes version) ⟨missing, formed.ratchetBase⟩

end Formed

theorem openWith_eq_ok {state : SessionState} {message : RatchetMessage} {chain : Chain} {key : ChainKey}
    {own remote : PublicKey} {opened : Opened} : state.openWith message chain key own remote = .ok opened ↔
      chain.keysFor key message.counter = .ok opened.keys ∧
        message.decipher opened.keys remote own = .ok opened.plaintext ∧ opened.state = state.afterRead message key := by
  unfold openWith
  simp only [bind_eq_ok]
  constructor
  · rintro ⟨keys, served, plaintext, deciphered, made⟩
    cases made
    exact ⟨served, deciphered, rfl⟩
  · rintro ⟨served, deciphered, after⟩
    refine ⟨opened.keys, served, opened.plaintext, deciphered, ?_⟩
    cases opened
    cases after
    rfl

theorem openWith_receiving_ne_duplicate (state : SessionState) (message : RatchetMessage) (peer own remote : PublicKey)
    {key : ChainKey} (start : key.index = 0) (index counter : UInt32) :
    state.openWith message (.receiving peer key) key own remote ≠ .error (.duplicate index counter) := by
  have ahead : ¬ message.counter < key.index := by
    rw [start]
    exact UInt32.not_lt.mpr (UInt32.zero_le)
  unfold openWith Chain.keysFor
  rw [if_neg ahead]
  dsimp only
  split
  · exact nofun
  · intro run
    rcases bind_eq_error.mp run with run | ⟨keys, _, run⟩
    · cases run
    rcases bind_eq_error.mp run with run | ⟨plaintext, _, run⟩
    · exact message.decipher_ne_duplicate _ _ _ _ _ run
    · cases run

theorem derive_index (root : RootKey) (peer : PublicKey) (ours : PrivateKey) : (root.derive peer ours).2.index = 0 := rfl

/-- A state takes no message for a repetition that it has no chain for. -/
theorem Formed.read_ne_duplicate_of_missing {state : SessionState} {own remote : PublicKey} {pair : KeyPair} {root : RootKey}
    {place : ChainKey} {message : RatchetMessage} (formed : state.Formed own remote pair root place)
    (missing : state.receivingChain? message.ratchetKey = none) (fresh : KeyPair) (index counter : UInt32) :
    state.read message fresh ≠ .error (.duplicate index counter) := by
  by_cases version : message.version = 3
  · rw [formed.read_new version missing]
    exact openWith_receiving_ne_duplicate _ _ _ _ _ (derive_index ..) _ _
  · rw [formed.read_version version]
    intro same
    cases same

/-- A state that has received nothing yet takes no message for a repetition. -/
theorem Formed.read_ne_duplicate {state : SessionState} {own remote : PublicKey} {pair : KeyPair} {root : RootKey}
    {place : ChainKey} {message : RatchetMessage} (formed : state.Formed own remote pair root place)
    (none_received : state.receivers = []) (fresh : KeyPair) (index counter : UInt32) :
    state.read message fresh ≠ .error (.duplicate index counter) := by
  refine formed.read_ne_duplicate_of_missing ?_ fresh index counter
  rw [receivingChain?, none_received]
  rfl

end SessionState

end DoubleRatchet
