import DoubleRatchet.Proofs.OneTimeKeys
import DoubleRatchet.Proofs.Replay

/-! What is certain of a message that was read. Whichever state read it, its MAC was right under keys of that state's
chain and the identities of its two sides, and the state has given up these keys. Whoever was given them reads the
message again, for as long as the session is between the same identities. -/
namespace DoubleRatchet

/-- The message of a session that a request has read, if it has one read. -/
def Request.message? : Request → Option RatchetMessage
  | decryptRatchet _ message => some message
  | decryptPreKey _ message => some message.message
  | _ => none

namespace Chain

variable {chain : Chain} {place : ChainKey} {counter : UInt32} {keys : MessageKeys}

/-- The keys of a number on a chain that stands at `place`: those it keeps for the number, or those of the place that
many steps on. -/
inductive Gives (chain : Chain) (place : ChainKey) (counter : UInt32) (keys : MessageKeys) : Prop
  | kept (behind : counter < place.index) (first : chain.cache.find? (·.index == counter) = some (.ofKeys keys))
  | ahead (reached : place.index ≤ counter) (near : counter.toNat - place.index.toNat ≤ maxSkip)
    (advanced : keys = (place.advance (counter.toNat - place.index.toNat)).messageKeys)

theorem gives_of_keysFor (run : chain.keysFor place counter = .ok keys) : chain.Gives place counter keys := by
  unfold keysFor at run
  split at run
  · rename_i behind
    split at run
    · rename_i first
      rw [StoredMessageKeys.load_eq_ok.mp run] at first
      exact .kept behind first
    · cases run
  · rename_i behind
    have reached : place.index ≤ counter := UInt32.not_lt.mp behind
    have steps := UInt32.toNat_sub_of_le _ _ reached
    dsimp only at run
    split at run
    · cases run
    · rename_i near
      cases run
      rw [steps] at near ⊢
      exact .ahead reached (Nat.not_lt.mp near) rfl

theorem Gives.counter_eq (gives : chain.Gives place counter keys) : keys.counter = counter := by
  cases gives with
  | kept behind first =>
    have found := List.find?_some first
    exact beq_iff_eq.mp found
  | ahead reached near advanced =>
    have number : (place.advance (counter.toNat - place.index.toNat)).messageKeys.counter =
        (place.advance (counter.toNat - place.index.toNat)).index := rfl
    rw [advanced, number, ChainKey.advance_index, ← UInt32.toNat_sub_of_le _ _ reached, UInt32.ofNat_toNat]
    grind

end Chain

namespace SessionState

variable {state reached : SessionState} {message : RatchetMessage} {fresh : KeyPair} {opened : Opened} {chain : Chain}
  {place : ChainKey} {ratchetKey sender receiver : PublicKey} {keys : MessageKeys} {plaintext : Bytes}

/-- The chain on which a state reads what is sent under a ratchet key, and where it stands: the one it has, or the new
one of a step of the ratchet. -/
inductive ReadsOn (state : SessionState) (ratchetKey : PublicKey) : Chain → ChainKey → Prop
  | known {chain : Chain} {place : ChainKey} (found : state.receivingChain? ratchetKey = some chain)
    (placed : chain.key = .ok place) : ReadsOn state ratchetKey chain place
  | new {ours : PrivateKey} {root : RootKey} (missing : state.receivingChain? ratchetKey = none)
    (base : state.ratchetBase = .ok (ours, root)) :
    ReadsOn state ratchetKey (.receiving ratchetKey (root.derive ratchetKey ours).2) (root.derive ratchetKey ours).2

theorem Reaches.readsOn (reaches : state.Reaches message fresh reached)
    (found : reached.receivingChain? message.ratchetKey = some chain) (placed : chain.key = .ok place) :
    state.ReadsOn message.ratchetKey chain place := by
  cases reaches with
  | here => exact .known found placed
  | stepped needs _ =>
    rw [stepped_receivingChain? needs.missing] at found
    cases found
    rw [receiving_key] at placed
    cases placed
    exact .new needs.missing needs.base

/-- A message is authentic to a state: it has the state's version, and with the keys that the state's chain gives for
its number, its MAC is that of a message from the remote identity to the local one, and its body deciphers. -/
structure Authenticates (state : SessionState) (message : RatchetMessage) (keys : MessageKeys) (plaintext : Bytes)
    (chain : Chain) (place : ChainKey) (sender receiver : PublicKey) : Prop where
  version : message.version.toUInt32 = state.version
  chained : state.ReadsOn message.ratchetKey chain place
  given : chain.Gives place message.counter keys
  counter : keys.counter = message.counter
  remote : state.remoteIdentityKey = .ok sender
  own : state.localIdentityKey = .ok receiver
  verified : message.verifyMac keys.macKey sender receiver
  deciphered : Cipher.decrypt? keys.cipherKey keys.iv message.body = some plaintext

theorem read_authenticates (run : state.read message fresh = .ok opened) : ∃ chain place sender receiver,
    state.Authenticates message opened.keys opened.plaintext chain place sender receiver := by
  obtain ⟨reached, chain, place, sender, receiver, takes, reaches, opens⟩ := read_reaches run
  obtain ⟨verified, deciphered⟩ := RatchetMessage.decipher_eq_ok.mp opens.deciphered
  have given := Chain.gives_of_keysFor opens.served
  have identities : reached.remoteIdentityKey = state.remoteIdentityKey ∧
      reached.localIdentityKey = state.localIdentityKey := by
    cases reaches <;> exact ⟨rfl, rfl⟩
  refine ⟨chain, place, sender, receiver, ?_⟩
  exact {
    version := takes.2
    chained := reaches.readsOn opens.found opens.placed
    given
    counter := given.counter_eq
    remote := identities.1.symm.trans opens.remote
    own := identities.2.symm.trans opens.own
    verified
    deciphered }

/-- The chain for a ratchet key stands behind a number and keeps no keys for it. -/
def HasSpent (state : SessionState) (ratchetKey : PublicKey) (counter : UInt32) : Prop :=
  ∃ chain place, state.receivingChain? ratchetKey = some chain ∧ chain.key = .ok place ∧ counter < place.index ∧
    ∀ kept ∈ chain.cache, kept.index ≠ counter

theorem read_hasSpent (orderly : state.Orderly) (bounded : message.counter ≠ 0xffffffff)
    (run : state.read message fresh = .ok opened) : opened.state.HasSpent message.ratchetKey message.counter := by
  obtain ⟨reached, chain, place, _, _, _, reaches, opens⟩ := read_reaches run
  have chain_orderly := reaches.orderly orderly chain (List.mem_of_find?_eq_some opens.found)
  obtain ⟨passed, forgotten⟩ := Chain.served_passes chain_orderly opens.placed bounded
  refine ⟨_, _, ?_, Chain.served_key opens.placed message.counter, passed, forgotten⟩
  rw [opens.after, afterRead_receivingChain?, opens.found]
  rfl

end SessionState

namespace Stores

variable {stores : Stores} {peer : Address} {reader : SessionState} {request : Request} {message : RatchetMessage}
  {plaintext : Bytes} {keys : MessageKeys} {e : Entropy}

/-- The current state for a peer is between the same identities as `reader`. -/
def Continues (stores : Stores) (peer : Address) (reader : SessionState) : Prop :=
  ∃ record current, stores.sessions[peer]? = some record ∧ record.current = some current ∧
    current.localIdentity = reader.localIdentity ∧ current.remoteIdentity = reader.remoteIdentity

theorem Continues.decryptWithKeys {chain : Chain} {place : ChainKey} {sender receiver : PublicKey}
    (continues : stores.Continues peer reader)
    (authentic : reader.Authenticates message keys plaintext chain place sender receiver) :
    stores.decryptWithKeys peer message keys = .ok plaintext := by
  obtain ⟨record, current, stored, present, own, remote⟩ := continues
  have sender_key : current.remoteIdentityKey = .ok sender := by
    rw [← authentic.remote, SessionState.remoteIdentityKey, SessionState.remoteIdentityKey,
      SessionState.remoteIdentityKey?, SessionState.remoteIdentityKey?, remote]
  have receiver_key : current.localIdentityKey = .ok receiver := by
    rw [← authentic.own, SessionState.localIdentityKey, SessionState.localIdentityKey, own]
  simp only [Stores.decryptWithKeys, bind_eq_ok, record_eq_ok, currentState_eq_ok]
  exact ⟨record, stored, current, present, sender, sender_key, receiver, receiver_key,
    RatchetMessage.decipher_eq_ok.mpr ⟨authentic.verified, authentic.deciphered⟩⟩

/-- The states that may read what a request asks for: those kept for the peer, and the one that a new handshake builds. -/
inductive Offers (stores : Stores) : Request → SessionState → Prop
  | kept {request : Request} {reader : SessionState} (member : reader ∈ (stores.recordOrFresh request.peer).states) :
    Offers stores request reader
  | built {peer : Address} {message : PreKeyMessage} {signedPreKey : SignedPreKeyRecord} {oneTimePreKey : Option KeyPair}
    (unknown : (stores.recordOrFresh peer).hasStateFor message.version.toUInt32 message.baseKey = false)
    (signed : stores.signedPreKeys[message.signedPreKeyId]? = some signedPreKey)
    (oneTime : stores.oneTimeKey message.preKeyId = .ok oneTimePreKey) :
    Offers stores (.decryptPreKey peer message) (stores.responderState message signedPreKey.keyPair oneTimePreKey)

theorem Answers.offers {message : PreKeyMessage} {accepted : SessionRecord} {used : Option UInt32}
    (answers : stores.Answers (stores.recordOrFresh peer) message accepted used) (member : reader ∈ accepted.states) :
    stores.Offers (.decryptPreKey peer message) reader := by
  cases answers with
  | known _ => exact .kept member
  | built unknown signedPreKey oneTimePreKey signed oneTime =>
    obtain ⟨kept, sub, states⟩ := SessionRecord.install_states (stores.recordOrFresh peer)
      (stores.responderState message signedPreKey.keyPair oneTimePreKey)
    rw [states] at member
    rcases List.mem_cons.mp member with rfl | older
    · exact .built unknown signed oneTime
    · exact .kept (sub.subset older)

theorem Offers.orderly (offers : stores.Offers request reader) (orderly : stores.Orderly request.peer) :
    reader.Orderly := by
  cases offers with
  | kept member => exact Stores.Holds.recordOrFresh orderly reader member
  | built _ _ _ => exact SessionState.orderly_enduring.responder _ _ _ _

/-- A message is read by a state on offer, which is current afterwards in its new form. -/
theorem serve_read (asks : request.message? = some message)
    (run : (stores.serve e request).1 = .ok (.read plaintext keys)) :
    ∃ reader fresh after record, stores.Offers request reader ∧ reader.read message fresh = .ok ⟨after, plaintext, keys⟩ ∧
      (stores.serve e request).2.1.sessions[request.peer]? = some record ∧ record.current = some after := by
  cases request with
  | acceptBundle peer bundle => cases asks
  | encrypt peer plaintext => cases asks
  | decryptRatchet peer ratchetMessage =>
    cases asks
    rcases made : stores.decryptRatchet peer message e with ⟨_ | ⟨plaintext', keys'⟩, stores', e'⟩
    · simp only [serve, made] at run
      cases run
    · simp only [serve, made] at run ⊢
      cases run
      obtain ⟨record, record', opened, remote, loaded, read, _, _, rfl, rfl, rfl⟩ := decryptRatchet_eq_ok.mp made
      obtain ⟨n, reader, opens, _, replaces⟩ := SessionRecord.read_eq_ok read
      refine ⟨reader, e.pair n, opened.state, record', .kept ?_, opens, ?_, replaces.current_eq⟩
      · rw [Request.peer, recordOrFresh_eq loaded]
        exact replaces.member
      · exact (withSession_sessions ..).trans (if_pos rfl)
  | decryptPreKey peer preKeyMessage =>
    cases asks
    rcases made : stores.decryptPreKey peer preKeyMessage e with ⟨_ | ⟨plaintext', keys'⟩, stores', e'⟩
    · simp only [serve, made] at run
      cases run
    · simp only [serve, made] at run ⊢
      cases run
      obtain ⟨accepted, used, record, opened, _, answers, read, rfl, rfl, rfl⟩ := decryptPreKey_eq_ok.mp made
      obtain ⟨n, reader, opens, _, replaces⟩ := SessionRecord.read_eq_ok read
      exact ⟨reader, e.pair n, opened.state, record, answers.offers replaces.member, opens, afterPreKey_sessions ..,
        replaces.current_eq⟩

end Stores

namespace Sample

theorem holding_orderly : holding.stores.Orderly initiator := by
  intro record stored state member
  have record_eq := Stores.recordOrFresh_eq stored
  rw [holding_recordOrFresh] at record_eq
  rw [← record_eq] at member
  cases List.mem_singleton.mp member
  intro chain received
  cases List.mem_singleton.mp received
  exact Chain.receiving_orderly _ _

theorem holding_reads : ∃ plaintext keys device',
    holding.serve (.decryptPreKey initiator rewrapped) = (.ok (.read plaintext keys), device') := by
  obtain ⟨⟨plaintext, keys⟩, device', run, -⟩ := holding_spends
  exact ⟨plaintext, keys, device', Device.serve_of_decryptPreKey run⟩

theorem holding_offers {reader : SessionState} (offers : holding.stores.Offers (.decryptPreKey initiator rewrapped) reader)
    (reads : reader.Reads farMessage) : reader = elder := by
  have built_fails : ∀ signedPreKey oneTimePreKey,
      ¬ (holding.stores.responderState rewrapped signedPreKey oneTimePreKey).Reads farMessage :=
    fun _ _ => (SessionState.responderState_formed _ rewrapped _ _).not_reads_far rfl rfl (by decide)
  cases offers with
  | kept member =>
    rw [Request.peer, holding_recordOrFresh] at member
    exact List.mem_singleton.mp member
  | built _ _ _ => exact absurd reads (built_fails _ _)

end Sample

/-- A message that is read is authentic to the state that reads it. That state is current afterwards, in the same
session; it has spent the number of the message if its chains were in order, except for the last number of all, which has
no place behind it. With the keys that were given out the message is read again then, and on any device whose current
state for the peer is between the same identities; nothing changes by that. -/
theorem reads_authenticated (device device' : Device) (request : Request) (message : RatchetMessage) (plaintext : Bytes)
    (keys : MessageKeys) (asks : request.message? = some message)
    (run : device.serve request = (.ok (.read plaintext keys), device')) :
    ∃ reader fresh after chain place sender receiver record,
      device.stores.Offers request reader ∧ reader.read message fresh = .ok ⟨after, plaintext, keys⟩ ∧
      reader.Authenticates message keys plaintext chain place sender receiver ∧
      device'.stores.sessions[request.peer]? = some record ∧ record.current = some after ∧ reader.SameSession after ∧
      (device.stores.Orderly request.peer → message.counter ≠ 0xffffffff →
        after.HasSpent message.ratchetKey message.counter) ∧
      device'.stores.Continues request.peer reader ∧
      ∀ later : Device, later.stores.Continues request.peer reader → ∃ later',
        (Session.decryptWithKeys request.peer message keys : OnDevice Bytes) later = (.ok plaintext, later') ∧
          later'.contents = later.contents := by
  obtain ⟨served, contents⟩ := device.serve_eq request
  rw [run] at served contents
  have stores' : device'.stores = (device.stores.serve device.ambient.entropy request).2.1 := congrArg Prod.fst contents
  obtain ⟨reader, fresh, after, record, offers, read, stored, current⟩ := Stores.serve_read asks served.symm
  rw [← stores'] at stored
  obtain ⟨chain, place, sender, receiver, authentic⟩ := SessionState.read_authenticates read
  have same := SessionState.read_sameSession read
  refine ⟨reader, fresh, after, chain, place, sender, receiver, record, offers, read, authentic, stored, current, same,
    fun orderly bounded => SessionState.read_hasSpent (offers.orderly orderly) bounded read,
    ⟨record, after, stored, current, same.localIdentity, same.remoteIdentity⟩, fun later continues => ?_⟩
  have yields := Session.decryptWithKeys_yields later.stores request.peer later.ambient.entropy message keys
  rw [continues.decryptWithKeys authentic] at yields
  exact yields later rfl

/-- In a new handshake a message of an old session is authentic to the old session, and is read again with its keys. -/
theorem reads_authenticated_elder : ∃ plaintext keys device' fresh after chain place sender receiver,
    Sample.holding.serve (.decryptPreKey Sample.initiator Sample.rewrapped) = (.ok (.read plaintext keys), device') ∧
    Sample.holding.stores.Orderly Sample.initiator ∧ Sample.farMessage.counter ≠ 0xffffffff ∧
    Sample.elder.read Sample.farMessage fresh = .ok ⟨after, plaintext, keys⟩ ∧
    Sample.elder.Authenticates Sample.farMessage keys plaintext chain place sender receiver ∧
    after.HasSpent Sample.farMessage.ratchetKey Sample.farMessage.counter ∧
    ∃ again, (Session.decryptWithKeys Sample.initiator Sample.farMessage keys : OnDevice Bytes) device' =
      (.ok plaintext, again) ∧ again.contents = device'.contents := by
  obtain ⟨plaintext, keys, device', run⟩ := Sample.holding_reads
  have bounded : Sample.farMessage.counter ≠ 0xffffffff := by decide
  obtain ⟨reader, fresh, after, chain, place, sender, receiver, record, offers, read, authentic, _, _, _, spent, continues,
    again⟩ := reads_authenticated Sample.holding device' (.decryptPreKey Sample.initiator Sample.rewrapped)
      Sample.farMessage plaintext keys rfl run
  cases Sample.holding_offers offers ⟨fresh, _, read⟩
  exact ⟨plaintext, keys, device', fresh, after, chain, place, sender, receiver, run, Sample.holding_orderly, bounded, read,
    authentic, spent Sample.holding_orderly bounded, again device' continues⟩

end DoubleRatchet
