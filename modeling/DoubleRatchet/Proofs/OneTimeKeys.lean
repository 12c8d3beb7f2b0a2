import DoubleRatchet.Proofs.Cipher.Cbc
import DoubleRatchet.Proofs.Session.Handshake
import DoubleRatchet.Proofs.Session.Requests

/-! What a one-time key is spent on. A message that opens a session spends the key it names when its handshake is new
and any state reads what is inside. The state built with the key is tried first, but an older one may read the message
in its place: the key is gone, and the session it was spent on has read nothing. -/
namespace DoubleRatchet

namespace SessionState

section Created

variable {state : SessionState} {own remote ratchetKey : PublicKey} {pair : KeyPair} {root : RootKey} {place key : ChainKey}
  {chain : Chain} {message : RatchetMessage} {previousCounter : UInt32} {plaintext : Bytes}
  (created : message = .create 3 key.messageKeys.macKey ratchetKey key.index previousCounter
    (Cipher.encrypt key.messageKeys.cipherKey key.messageKeys.iv plaintext) remote own)

include created

/-- A message is opened with the keys that it was made with. -/
theorem openWith_created : state.openWith message chain key own remote =
    .ok ⟨state.afterRead message key, plaintext, key.messageKeys⟩ := by
  have served : chain.keysFor key message.counter = .ok key.messageKeys := by
    have current : message.counter = key.index := by rw [created]; rfl
    unfold Chain.keysFor
    rw [current, if_neg (UInt32.lt_irrefl _), UInt32.sub_self]
    rfl
  have deciphered : message.decipher key.messageKeys remote own = .ok plaintext := by
    apply RatchetMessage.decipher_eq_ok.mpr
    rw [created]
    constructor
    · rw [RatchetMessage.verifyMac, beq_iff_eq]
      rfl
    · exact Cipher.decrypt?_encrypt _ _ _
  exact openWith_eq_ok.mpr ⟨served, deciphered, rfl⟩

/-- A state reads a message that was made with the keys that one of its chains stands at. -/
theorem Formed.reads_created (formed : state.Formed own remote pair root place)
    (found : state.receivingChain? ratchetKey = some chain) (placed : chain.key = .ok key) : state.Reads message := by
  have version : message.version = 3 := by rw [created]; rfl
  have on_chain : state.receivingChain? message.ratchetKey = some chain := by rw [created]; exact found
  exact ⟨pair, _, (formed.read_known version on_chain placed pair).trans (openWith_created created)⟩

/-- A state reads the first message on a chain that begins with a new key of its peer. -/
theorem Formed.read_created_new (formed : state.Formed own remote pair root place)
    (missing : state.receivingChain? ratchetKey = none) (begins : (root.derive ratchetKey pair.privateKey).2 = key)
    (fresh : KeyPair) : state.read message fresh =
      .ok ⟨(state.stepped pair.privateKey root ratchetKey fresh place).afterRead message key, plaintext, key.messageKeys⟩ := by
  have version : message.version = 3 := by rw [created]; rfl
  have ratchetKey_eq : message.ratchetKey = ratchetKey := by rw [created]; rfl
  rw [formed.read_new version (ratchetKey_eq ▸ missing), ratchetKey_eq, begins]
  exact openWith_created created

end Created

/-- A state without a chain for a message does not read it far from the beginning of its chain. -/
theorem Formed.not_reads_far {state : SessionState} {own remote : PublicKey} {pair : KeyPair} {root : RootKey}
    {place : ChainKey} {message : RatchetMessage} (formed : state.Formed own remote pair root place)
    (version : message.version = 3) (missing : state.receivingChain? message.ratchetKey = none)
    (far : maxSkip < message.counter.toNat) : ¬ state.Reads message := by
  rintro ⟨fresh, opened, opens⟩
  rw [formed.read_new version missing] at opens
  have served := (openWith_eq_ok.mp opens).1
  unfold Chain.keysFor at served
  rw [derive_index, if_neg (UInt32.not_lt.mpr UInt32.zero_le), UInt32.sub_zero] at served
  dsimp only at served
  rw [if_pos far] at served
  cases served

end SessionState

/-- What has become of a one-time key: the handshake of a message named it and was new, and a state has read what was
inside. It is the state that was built with the key if that one can read the message, and else one from before. -/
structure Spent (before after : Stores) (peer : Address) (message : PreKeyMessage) (id : UInt32) (preKey : PreKeyRecord)
    (signedPreKey : SignedPreKeyRecord) (reader : SessionState) (opened : Opened) : Prop where
  named : message.preKeyId = some id
  number : id ≠ noPreKey
  unknown : (before.recordOrFresh peer).hasStateFor message.version.toUInt32 message.baseKey = false
  signed : before.signedPreKeys[message.signedPreKeyId]? = some signedPreKey
  opens : ∃ fresh, reader.read message.message fresh = .ok opened
  current : ∃ record, after.sessions[peer]? = some record ∧ record.current = some opened.state
  origin : reader = before.responderState message signedPreKey.keyPair (some preKey.keyPair) ∨
    reader ∈ (before.recordOrFresh peer).states
  first : reader = before.responderState message signedPreKey.keyPair (some preKey.keyPair) ↔
    (before.responderState message signedPreKey.keyPair (some preKey.keyPair)).Reads message.message

namespace Stores

variable {stores stores' : Stores} {peer : Address} {message : PreKeyMessage} {e e' : Entropy} {id : UInt32}
  {preKey : PreKeyRecord}

theorem Answers.spent {accepted record : SessionRecord} {used : Option UInt32} {opened : Opened}
    (answers : stores.Answers (stores.recordOrFresh peer) message accepted used)
    (read : accepted.read peer message.message e = (.ok (record, opened), e')) (held : stores.preKeys[id]? = some preKey)
    (gone : (stores.afterPreKey peer message record used).preKeys[id]? = none) :
    ∃ signedPreKey reader,
      Spent stores (stores.afterPreKey peer message record used) peer message id preKey signedPreKey reader opened := by
  have removed : used = some id := by
    cases used with
    | none =>
      change stores.preKeys[id]? = none at gone
      rw [held] at gone
      cases gone
    | some other =>
      change (stores.preKeys.erase other)[id]? = none at gone
      rw [Std.ExtTreeMap.getElem?_erase] at gone
      split at gone
      · rename_i equal
        rw [Std.LawfulEqCmp.compare_eq_iff_eq.mp equal]
      · rw [held] at gone
        cases gone
  cases answers with
  | known has => cases removed
  | built unknown signedPreKey oneTimePreKey signed oneTime =>
    obtain ⟨named, number⟩ := Option.filter_eq_some_iff.mp removed
    have used : oneTimePreKey = some preKey.keyPair := by
      rw [named, oneTimeKey, held] at oneTime
      cases oneTime
      rfl
    rw [used] at read
    obtain ⟨n, reader, opens, replaces, first⟩ := SessionRecord.read_of_current rfl read
    obtain ⟨kept, sub, states⟩ := SessionRecord.install_states (stores.recordOrFresh peer)
      (stores.responderState message signedPreKey.keyPair (some preKey.keyPair))
    have member := replaces.member
    rw [states] at member
    refine ⟨signedPreKey, reader, named, by simpa using number, unknown, signed, ⟨_, opens⟩, ?_, ?_, first⟩
    · exact ⟨record, afterPreKey_sessions .., replaces.current_eq⟩
    · rcases List.mem_cons.mp member with built | older
      · exact .inl built
      · exact .inr (sub.subset older)

/-- Whoever wraps a message that a state can read in a new handshake has the one-time key spent that it names. -/
theorem spends_of_reads {state : SessionState} {signedPreKey : SignedPreKeyRecord}
    (trusted : stores.isTrusted peer message.identityKey .receiving)
    (unknown : (stores.recordOrFresh peer).hasStateFor message.version.toUInt32 message.baseKey = false)
    (signed : stores.signedPreKeys[message.signedPreKeyId]? = some signedPreKey) (held : stores.preKeys[id]? = some preKey)
    (named : message.preKeyId = some id) (number : id ≠ noPreKey)
    (member : state ∈ (stores.recordOrFresh peer).archive.archived) (reads : state.Reads message.message) (e : Entropy) :
    ∃ result, (stores.decryptPreKey peer message e).1 = .ok result ∧
      (stores.decryptPreKey peer message e).2.1.preKeys[id]? = none := by
  have oneTime : stores.oneTimeKey message.preKeyId = .ok (some preKey.keyPair) := by
    rw [named, oneTimeKey, held]
    rfl
  have used : message.preKeyId.filter (· != noPreKey) = some id := by
    rw [named]
    simpa using number
  have answers := Answers.built unknown signedPreKey (some preKey.keyPair) signed oneTime
  obtain ⟨⟨record, opened⟩, read⟩ := (stores.read_built_iff (stores.recordOrFresh peer) message signedPreKey.keyPair
    (some preKey.keyPair) peer message.message e).mpr (.inr ⟨state, member, reads⟩)
  have run := decryptPreKey_eq_ok.mpr ⟨_, _, record, opened, trusted, answers, Prod.ext read rfl, rfl, rfl, rfl⟩
  rw [run, used]
  exact ⟨_, rfl, Std.ExtTreeMap.getElem?_erase_self⟩

end Stores

/-- A message that opens a session removes a one-time key only after a state has read it, whose new form is current
then: the state built with the key if that can read the message, and else a state that was there before. -/
theorem removed_key_spent (device device' : Device) (peer : Address) (message : PreKeyMessage) (id : UInt32)
    (preKey : PreKeyRecord) (result : Except Fault (Bytes × MessageKeys))
    (run : (Session.decryptPreKey peer message : OnDevice (Bytes × MessageKeys)) device = (result, device'))
    (held : device.stores.preKeys[id]? = some preKey) (gone : device'.stores.preKeys[id]? = none) :
    ∃ signedPreKey reader opened, result = .ok (opened.plaintext, opened.keys) ∧
      Spent device.stores device'.stores peer message id preKey signedPreKey reader opened := by
  have run := Session.decryptPreKey_run run
  cases result with
  | error fault =>
    have same : device'.stores.preKeys = device.stores.preKeys := by
      rcases Stores.decryptPreKey_error run with ⟨_, after⟩ | ⟨_, after⟩
      · rw [after]
      · rw [after]
        rfl
    rw [same, held] at gone
    cases gone
  | ok read =>
    obtain ⟨plaintext, keys⟩ := read
    obtain ⟨accepted, used, record, opened, _, answers, read, rfl, rfl, after⟩ := Stores.decryptPreKey_eq_ok.mp run
    rw [after] at gone ⊢
    obtain ⟨signedPreKey, reader, spent⟩ := answers.spent read held gone
    exact ⟨signedPreKey, reader, opened, rfl, spent⟩

namespace Sample

def oneTimePreKey : PreKeyRecord := ⟨5, (Entropy.ofSeed 2).pair 2⟩

/-- Far along a chain of a session of old. -/
def farPlace : ChainKey := ⟨⟨List.replicate 32 7, rfl⟩, 6000⟩

def elder : SessionState where
  storedVersion := 3
  localIdentity := identity.publicKey.serialize
  remoteIdentity := (publicKey 9).serialize
  rootKey := List.replicate 32 0
  sender := some (.sending signedPreKey ⟨⟨List.replicate 32 7, rfl⟩, 0⟩)
  receivers := [.receiving (publicKey 9) farPlace]
  baseKey := (publicKey 9).serialize

theorem elder_formed : elder.Formed identity.publicKey (publicKey 9) signedPreKey ⟨⟨List.replicate 32 0, rfl⟩⟩
    ⟨⟨List.replicate 32 7, rfl⟩, 0⟩ :=
  ⟨rfl, rfl, rfl, rfl, rfl⟩

/-- The next message of the old session. -/
def farMessage : RatchetMessage :=
  .create 3 farPlace.messageKeys.macKey (publicKey 9) farPlace.index 0
    (Cipher.encrypt farPlace.messageKeys.cipherKey farPlace.messageKeys.iv [1, 2, 3]) (publicKey 9) identity.publicKey

/-- The same in a handshake with a new base key that names a one-time key. -/
def rewrapped : PreKeyMessage := .create 3 1 (some 5) 1 (publicKey 11) (publicKey 9) farMessage

def holding : Device where
  stores := { responding.stores with
    preKeys := .insert ∅ 5 oneTimePreKey
    sessions := .insert ∅ initiator { current := some elder } }
  ambient := responding.ambient

theorem elder_reads : elder.Reads rewrapped.message := by
  have found : elder.receivingChain? (publicKey 9) = some (.receiving (publicKey 9) farPlace) := by decide
  exact SessionState.Formed.reads_created rfl elder_formed found (SessionState.receiving_key _ _)

theorem holding_recordOrFresh : holding.stores.recordOrFresh initiator = { current := some elder } :=
  Stores.recordOrFresh_eq Std.ExtTreeMap.getElem?_insert_self

theorem holding_signedPreKey :
    holding.stores.signedPreKeys[rewrapped.signedPreKeyId]? = some ⟨1, 0, signedPreKey, signature⟩ :=
  Std.ExtTreeMap.getElem?_insert_self

theorem holding_preKey : holding.stores.preKeys[(5 : UInt32)]? = some oneTimePreKey :=
  Std.ExtTreeMap.getElem?_insert_self

theorem holding_spends : ∃ result device',
    (Session.decryptPreKey initiator rewrapped : OnDevice (Bytes × MessageKeys)) holding = (.ok result, device') ∧
      device'.stores.preKeys[(5 : UInt32)]? = none := by
  have trusted : holding.stores.isTrusted initiator rewrapped.identityKey .receiving := rfl
  have unknown : (holding.stores.recordOrFresh initiator).hasStateFor rewrapped.version.toUInt32 rewrapped.baseKey = false := by
    rw [holding_recordOrFresh]
    decide
  have member : elder ∈ (holding.stores.recordOrFresh initiator).archive.archived := by
    rw [holding_recordOrFresh]
    exact List.mem_singleton_self _
  obtain ⟨result, read, gone⟩ := Stores.spends_of_reads trusted unknown holding_signedPreKey holding_preKey rfl (by decide)
    member elder_reads holding.ambient.entropy
  have yields := Session.decryptPreKey_yields holding.stores initiator holding.ambient.entropy rewrapped
  rw [read] at yields
  obtain ⟨device', run, contents⟩ := yields holding rfl
  have after : device'.stores = _ := congrArg Prod.fst contents
  refine ⟨result, device', run, ?_⟩
  rw [after]
  exact gone

end Sample

/-- A message of an old session is wrapped in a new handshake. The old session reads it, the new one cannot, and the
one-time key is gone. -/
theorem removed_key_spent_elder :
    let built := Sample.holding.stores.responderState Sample.rewrapped Sample.signedPreKey (some Sample.oneTimePreKey.keyPair)
    ∃ result device', (Session.decryptPreKey Sample.initiator Sample.rewrapped : OnDevice (Bytes × MessageKeys))
        Sample.holding = (.ok result, device') ∧
      Sample.holding.stores.preKeys[(5 : UInt32)]? = some Sample.oneTimePreKey ∧
      device'.stores.preKeys[(5 : UInt32)]? = none ∧ ¬ built.Reads Sample.farMessage ∧
      ∃ fresh opened, Sample.elder.read Sample.farMessage fresh = .ok opened ∧
        ∃ record, device'.stores.sessions[Sample.initiator]? = some record ∧ record.current = some opened.state := by
  intro built
  have built_fails : ¬ built.Reads Sample.rewrapped.message :=
    (SessionState.responderState_formed _ Sample.rewrapped Sample.signedPreKey _).not_reads_far rfl rfl (by decide)
  obtain ⟨result, device', run, gone⟩ := Sample.holding_spends
  obtain ⟨signedPreKey, reader, opened, _, spent⟩ := removed_key_spent Sample.holding device' Sample.initiator
    Sample.rewrapped 5 _ _ run Sample.holding_preKey gone
  have signed : signedPreKey = ⟨1, 0, Sample.signedPreKey, Sample.signature⟩ :=
    Option.some.inj (spent.signed.symm.trans Sample.holding_signedPreKey)
  have not_built : reader ≠ built := by
    intro same
    have first := spent.first
    rw [signed] at first
    exact built_fails (first.mp same)
  have origin := spent.origin
  rw [signed] at origin
  have older := origin.resolve_left not_built
  rw [Sample.holding_recordOrFresh] at older
  cases List.mem_singleton.mp older
  obtain ⟨fresh, opens⟩ := spent.opens
  exact ⟨result, device', run, Sample.holding_preKey, gone, built_fails, fresh, opened, opens, spent.current⟩

end DoubleRatchet
