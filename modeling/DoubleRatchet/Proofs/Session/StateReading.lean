import DoubleRatchet.Proofs.Session.Reading

/-! What it takes for a state to read a message, and what the state is afterwards. -/
namespace DoubleRatchet

theorem RatchetMessage.decipher_eq_ok {message : RatchetMessage} {keys : MessageKeys} {sender receiver : PublicKey}
    {plaintext : Bytes} : message.decipher keys sender receiver = .ok plaintext ↔
      message.verifyMac keys.macKey sender receiver ∧
        Cipher.decrypt? keys.cipherKey keys.iv message.body = some plaintext := by
  unfold decipher
  split
  · cases Cipher.decrypt? keys.cipherKey keys.iv message.body <;> simp_all
  · simp_all

namespace SessionState

/-- The state after it has read a message on a chain that stands at `key`. -/
def afterRead (state : SessionState) (message : RatchetMessage) (key : ChainKey) : SessionState :=
  (state.updateReceivingChain message.ratchetKey (·.served key message.counter)).acknowledge

/-- What a state reads a message with: a chain for it, the place where the chain stands, the keys it gives, and the
identities of both sides. -/
structure OpensOnChain (state : SessionState) (message : RatchetMessage) (opened : Opened) (chain : Chain)
    (key : ChainKey) (sender receiver : PublicKey) : Prop where
  found : state.receivingChain? message.ratchetKey = some chain
  placed : chain.key = .ok key
  served : chain.keysFor key message.counter = .ok opened.keys
  remote : state.remoteIdentityKey = .ok sender
  own : state.localIdentityKey = .ok receiver
  deciphered : message.decipher opened.keys sender receiver = .ok opened.plaintext
  after : opened.state = state.afterRead message key

theorem OpensOnChain.transfer {state : SessionState} {message : RatchetMessage} {opened : Opened} {chain : Chain}
    {key : ChainKey} {sender receiver : PublicKey} (opens : state.OpensOnChain message opened chain key sender receiver)
    (other : SessionState) (receivers : other.receivers = state.receivers) (remote : other.remoteIdentity = state.remoteIdentity)
    (own : other.localIdentity = state.localIdentity) :
    other.OpensOnChain message ⟨other.afterRead message key, opened.plaintext, opened.keys⟩ chain key sender receiver where
  found := by rw [← opens.found, receivingChain?, receivingChain?, receivers]
  placed := opens.placed
  served := opens.served
  remote := by rw [← opens.remote, remoteIdentityKey, remoteIdentityKey, remoteIdentityKey?, remoteIdentityKey?, remote]
  own := by rw [← opens.own, localIdentityKey, localIdentityKey, own]
  deciphered := opens.deciphered
  after := rfl

theorem readOnChain_eq_ok {state : SessionState} {message : RatchetMessage} {opened : Opened} :
    state.readOnChain message = .ok opened ↔
      ∃ chain key sender receiver, state.OpensOnChain message opened chain key sender receiver := by
  unfold readOnChain
  constructor
  · intro run
    cases found : state.receivingChain? message.ratchetKey with
    | none => rw [found] at run; cases run
    | some chain =>
      rw [found] at run
      simp only [bind_eq_ok] at run
      obtain ⟨key, placed, keys, served, sender, remote, receiver, own, plaintext, deciphered, made⟩ := run
      cases made
      exact ⟨chain, key, sender, receiver, found, placed, served, remote, own, deciphered, rfl⟩
  · rintro ⟨chain, key, sender, receiver, found, placed, served, remote, own, deciphered, after⟩
    simp only [found, bind_eq_ok]
    refine ⟨key, placed, opened.keys, served, sender, remote, receiver, own, opened.plaintext, deciphered, ?_⟩
    cases opened
    cases after
    rfl

/-- The state after a step of the ratchet that answers `peer` with `fresh`, from the place of its sending chain. -/
def stepped (state : SessionState) (ours : PrivateKey) (root : RootKey) (peer : PublicKey) (fresh : KeyPair)
    (place : ChainKey) : SessionState :=
  let (root, receiving) := root.derive peer ours
  let (root, sending) := root.derive peer fresh.privateKey
  ({ state with
    previousCounter := if place.index = 0 then 0 else place.index - 1
    rootKey := root.key.bytes }.withReceivingChain peer receiving).withSendingChain fresh sending

section Stepped

variable (state : SessionState) (ours : PrivateKey) (root : RootKey) (peer : PublicKey) (fresh : KeyPair) (place : ChainKey)

@[simp] theorem stepped_receivers : (state.stepped ours root peer fresh place).receivers =
    Window.append maxReceivingChains state.receivers [.receiving peer (root.derive peer ours).2] := rfl

@[simp] theorem stepped_sender : (state.stepped ours root peer fresh place).sender =
    some (.sending fresh ((root.derive peer ours).1.derive peer fresh.privateKey).2) := rfl

@[simp] theorem stepped_rootKey : (state.stepped ours root peer fresh place).rootKey =
    ((root.derive peer ours).1.derive peer fresh.privateKey).1.key.bytes := rfl

@[simp] theorem stepped_localIdentity : (state.stepped ours root peer fresh place).localIdentity = state.localIdentity := rfl

@[simp] theorem stepped_remoteIdentity :
    (state.stepped ours root peer fresh place).remoteIdentity = state.remoteIdentity := rfl

end Stepped

theorem ratchet_eq_ok {state stepped : SessionState} {ours : PrivateKey} {root : RootKey} {peer : PublicKey}
    {fresh : KeyPair} : state.ratchet ours root peer fresh = .ok stepped ↔
      ∃ place, state.sendingChainKey = .ok place ∧ stepped = state.stepped ours root peer fresh place := by
  unfold ratchet
  dsimp only
  rw [bind_eq_ok]
  exact exists_congr fun place => and_congr_right fun _ => ⟨fun made => by cases made; rfl, fun made => by rw [made]; rfl⟩

theorem receivingChainKey?_eq_some {state : SessionState} {ratchetKey : PublicKey} {key : ChainKey} :
    state.receivingChainKey? ratchetKey = .ok (some key) ↔
      ∃ chain, state.receivingChain? ratchetKey = some chain ∧ chain.key = .ok key := by
  unfold receivingChainKey?
  cases state.receivingChain? ratchetKey with
  | none => simp
  | some chain => simp [bind_eq_ok, pure, Except.pure]

theorem receivingChainKey?_eq_none {state : SessionState} {ratchetKey : PublicKey} :
    state.receivingChainKey? ratchetKey = .ok none ↔ state.receivingChain? ratchetKey = none := by
  unfold receivingChainKey?
  cases state.receivingChain? ratchetKey with
  | none => simp
  | some chain => simp [bind_eq_ok, pure, Except.pure]

/-- What a step of the ratchet starts from, for a state that needs one to read a message. -/
structure NeedsStep (state : SessionState) (message : RatchetMessage) (ours : PrivateKey) (root : RootKey) : Prop where
  missing : state.receivingChain? message.ratchetKey = none
  base : state.ratchetBase = .ok (ours, root)

/-- A state reads only messages of its version, and none before it has a chain to send on. -/
def Takes (state : SessionState) (message : RatchetMessage) : Prop :=
  state.sender ≠ none ∧ message.version.toUInt32 = state.version

theorem stepBase_of_takes {state : SessionState} {message : RatchetMessage} (takes : state.Takes message) :
    state.stepBase message = match state.receivingChainKey? message.ratchetKey with
      | .error fault => .error fault
      | .ok (some _) => .ok none
      | .ok none => state.ratchetBase.map some := by
  obtain ⟨sends, version⟩ := takes
  unfold stepBase
  refine (if_neg (by simpa using sends)).trans ?_
  exact if_neg (by simpa using version)

theorem takes_of_stepBase {state : SessionState} {message : RatchetMessage} {base : Option (PrivateKey × RootKey)}
    (run : state.stepBase message = .ok base) : state.Takes message := by
  unfold stepBase at run
  split at run
  · cases run
  split at run
  · cases run
  rename_i sends version
  exact ⟨by simpa using sends, by simpa using version⟩

theorem stepBase_eq_none {state : SessionState} {message : RatchetMessage} :
    state.stepBase message = .ok none ↔
      state.Takes message ∧ ∃ key, state.receivingChainKey? message.ratchetKey = .ok (some key) := by
  constructor
  · intro run
    have takes := takes_of_stepBase run
    refine ⟨takes, ?_⟩
    rw [stepBase_of_takes takes] at run
    split at run
    · cases run
    · exact ⟨_, ‹_›⟩
    · cases based : state.ratchetBase <;> rw [based] at run <;> cases run
  · rintro ⟨takes, key, chained⟩
    rw [stepBase_of_takes takes, chained]

theorem stepBase_eq_some {state : SessionState} {message : RatchetMessage} {ours : PrivateKey} {root : RootKey} :
    state.stepBase message = .ok (some (ours, root)) ↔ state.Takes message ∧ state.NeedsStep message ours root := by
  constructor
  · intro run
    have takes := takes_of_stepBase run
    refine ⟨takes, ?_⟩
    rw [stepBase_of_takes takes] at run
    split at run
    · cases run
    · cases run
    · cases based : state.ratchetBase with
      | error fault => rw [based] at run; cases run
      | ok base =>
        rw [based] at run
        cases run
        exact ⟨receivingChainKey?_eq_none.mp ‹_›, based⟩
  · rintro ⟨takes, missing, base⟩
    rw [stepBase_of_takes takes, receivingChainKey?_eq_none.mpr missing, base]
    rfl

theorem draws_eq_one {state : SessionState} {message : RatchetMessage} {ours : PrivateKey} {root : RootKey}
    (takes : state.Takes message) (needs : state.NeedsStep message ours root) : state.draws message = 1 := by
  unfold draws
  rw [stepBase_eq_some.mpr ⟨takes, needs⟩]

/-- A state reads a message on a chain it has, or on the one it gets by a step of the ratchet. -/
theorem read_eq_ok {state : SessionState} {message : RatchetMessage} {fresh : KeyPair} {opened : Opened} :
    state.read message fresh = .ok opened ↔ state.Takes message ∧
      (state.readOnChain message = .ok opened ∨ ∃ ours root place, state.NeedsStep message ours root ∧
        state.sendingChainKey = .ok place ∧
        (state.stepped ours root message.ratchetKey fresh place).readOnChain message = .ok opened) := by
  unfold read reached
  simp only [bind_eq_ok]
  constructor
  · rintro ⟨reached, ⟨base, based, step⟩, run⟩
    cases base with
    | none =>
      cases step
      exact ⟨takes_of_stepBase based, .inl run⟩
    | some base =>
      obtain ⟨takes, needs⟩ := stepBase_eq_some.mp based
      obtain ⟨place, placed, rfl⟩ := ratchet_eq_ok.mp step
      exact ⟨takes, .inr ⟨base.1, base.2, place, needs, placed, run⟩⟩
  · rintro ⟨takes, run | ⟨ours, root, place, needs, placed, run⟩⟩
    · obtain ⟨chain, key, _, _, opens⟩ := readOnChain_eq_ok.mp run
      have chained := receivingChainKey?_eq_some.mpr ⟨chain, opens.found, opens.placed⟩
      exact ⟨state, ⟨none, stepBase_eq_none.mpr ⟨takes, key, chained⟩, rfl⟩, run⟩
    · exact ⟨_, ⟨some (ours, root), stepBase_eq_some.mpr ⟨takes, needs⟩, ratchet_eq_ok.mpr ⟨place, placed, rfl⟩⟩, run⟩

/-- What a state becomes before it reads a message: it stays as it is, or takes a step of the ratchet. -/
inductive Reaches (state : SessionState) (message : RatchetMessage) (fresh : KeyPair) : SessionState → Prop
  | here : Reaches state message fresh state
  | stepped {ours : PrivateKey} {root : RootKey} {place : ChainKey} (needs : state.NeedsStep message ours root)
    (placed : state.sendingChainKey = .ok place) :
    Reaches state message fresh (state.stepped ours root message.ratchetKey fresh place)

theorem read_reaches {state : SessionState} {message : RatchetMessage} {fresh : KeyPair} {opened : Opened}
    (run : state.read message fresh = .ok opened) : ∃ reached chain key sender receiver, state.Takes message ∧
      state.Reaches message fresh reached ∧ reached.OpensOnChain message opened chain key sender receiver := by
  obtain ⟨takes, run | ⟨ours, root, place, needs, placed, run⟩⟩ := read_eq_ok.mp run
  · obtain ⟨chain, key, sender, receiver, opens⟩ := readOnChain_eq_ok.mp run
    exact ⟨state, chain, key, sender, receiver, takes, .here, opens⟩
  · obtain ⟨chain, key, sender, receiver, opens⟩ := readOnChain_eq_ok.mp run
    exact ⟨_, chain, key, sender, receiver, takes, .stepped needs placed, opens⟩

/-! ## The fresh key pair -/

/-- With another key pair a message is read all the same; what the state becomes depends on the pair only if it is drawn,
for a step of the ratchet. -/
theorem read_otherwise {state : SessionState} {message : RatchetMessage} {fresh : KeyPair} {opened : Opened}
    (run : state.read message fresh = .ok opened) (other : KeyPair) :
    state.read message other = .ok opened ∨ ∃ ours root place key, state.NeedsStep message ours root ∧
      opened.state = (state.stepped ours root message.ratchetKey fresh place).afterRead message key ∧
      state.read message other = .ok ⟨(state.stepped ours root message.ratchetKey other place).afterRead message key,
        opened.plaintext, opened.keys⟩ := by
  obtain ⟨takes, run | ⟨ours, root, place, needs, placed, run⟩⟩ := read_eq_ok.mp run
  · exact .inl (read_eq_ok.mpr ⟨takes, .inl run⟩)
  · obtain ⟨chain, key, sender, receiver, opens⟩ := readOnChain_eq_ok.mp run
    have opens' := opens.transfer (state.stepped ours root message.ratchetKey other place)
      (by simp only [stepped_receivers]) (by simp only [stepped_remoteIdentity]) (by simp only [stepped_localIdentity])
    exact .inr ⟨ours, root, place, key, needs, opens.after, read_eq_ok.mpr ⟨takes, .inr ⟨ours, root, place, needs, placed,
      readOnChain_eq_ok.mpr ⟨chain, key, sender, receiver, opens'⟩⟩⟩⟩

/-- The key pair that is drawn for a step decides only what the state sends under afterwards. -/
theorem read_with_any {state : SessionState} {message : RatchetMessage} {fresh : KeyPair} {opened : Opened}
    (run : state.read message fresh = .ok opened) (other : KeyPair) :
    ∃ opened', state.read message other = .ok opened' ∧ opened'.plaintext = opened.plaintext ∧
      opened'.keys = opened.keys := by
  rcases read_otherwise run other with same | ⟨_, _, _, _, _, _, again⟩
  · exact ⟨opened, same, rfl, rfl⟩
  · exact ⟨_, again, rfl, rfl⟩

def Reads (state : SessionState) (message : RatchetMessage) : Prop := ∃ fresh opened, state.read message fresh = .ok opened

/-! ## What reading leaves alone -/

/-- The parts of a state that say whose session it is. -/
structure SameSession (state state' : SessionState) : Prop where
  version : state'.storedVersion = state.storedVersion
  localIdentity : state'.localIdentity = state.localIdentity
  remoteIdentity : state'.remoteIdentity = state.remoteIdentity
  baseKey : state'.baseKey = state.baseKey

/-- What a state had to announce it announces no more once it has read a message. -/
theorem read_acknowledges {state : SessionState} {message : RatchetMessage} {fresh : KeyPair} {opened : Opened}
    (run : state.read message fresh = .ok opened) : opened.state.pendingPreKey = none := by
  obtain ⟨_, _, _, _, _, _, _, opens⟩ := read_reaches run
  rw [opens.after]
  rfl

theorem read_sameSession {state : SessionState} {message : RatchetMessage} {fresh : KeyPair} {opened : Opened}
    (run : state.read message fresh = .ok opened) : state.SameSession opened.state := by
  obtain ⟨_, _, _, _, _, _, reaches, opens⟩ := read_reaches run
  rw [opens.after]
  cases reaches with
  | here => exact ⟨rfl, rfl, rfl, rfl⟩
  | stepped _ _ => exact ⟨rfl, rfl, rfl, rfl⟩

theorem read_remoteIdentityKey {state : SessionState} {message : RatchetMessage} {fresh : KeyPair} {opened : Opened}
    (run : state.read message fresh = .ok opened) : opened.state.remoteIdentityKey = state.remoteIdentityKey := by
  rw [remoteIdentityKey, remoteIdentityKey, remoteIdentityKey?, remoteIdentityKey?, (read_sameSession run).remoteIdentity]

end SessionState

end DoubleRatchet
