import DoubleRatchet.Proofs.Session.Sound

/-! What is stored stays sound, whatever arrives. From stores without sessions every record that a device stores is
sound, and no operation on a sound record ever finds it corrupt: it may refuse a message, but for the message's sake. -/
namespace DoubleRatchet

open Session

/-- Whether a fault says that what is stored is corrupt. -/
def Fault.isCorruption : Fault → Bool
  | .corruptSession _ => true
  | .badState _ _ => true
  | _ => false

/-- A result other than that something stored is corrupt. -/
def Uncorrupted {A : Type} (x : Except Fault A) : Prop := ∀ fault, x = .error fault → fault.isCorruption = false

namespace Uncorrupted

variable {A B : Type} {x : Except Fault A}

theorem ok (a : A) : Uncorrupted (.ok a) := fun _ same => nomatch same

theorem of_eq_ok {a : A} (same : x = .ok a) : Uncorrupted x := same ▸ ok a

theorem error {fault : Fault} (other : fault.isCorruption = false) : Uncorrupted (.error fault : Except Fault A) := by
  intro found same
  cases same
  exact other

theorem bind {f : A → Except Fault B} (first : Uncorrupted x) (second : ∀ a, x = .ok a → Uncorrupted (f a)) :
    Uncorrupted (x >>= f) := by
  intro fault failed
  rcases bind_eq_error.mp failed with failed | ⟨a, found, failed⟩
  · exact first fault failed
  · exact second a found fault failed

theorem map {f : A → B} (first : Uncorrupted x) : Uncorrupted (x.map f) := by
  cases x with
  | ok a => exact ok _
  | error fault => exact error (first fault rfl)

theorem elim (fault : Fault) (other : fault.isCorruption = false) (found : Option A) :
    Uncorrupted (found.elim (.error fault) .ok) := by
  cases found with
  | none => exact error other
  | some a => exact ok a

end Uncorrupted

/-! ## Reading -/

theorem RatchetMessage.decipher_uncorrupted (message : RatchetMessage) (keys : MessageKeys) (sender receiver : PublicKey) :
    Uncorrupted (message.decipher keys sender receiver) := by
  unfold decipher
  split
  · split
    · apply Uncorrupted.ok
    · exact .error rfl
  · exact .error rfl

theorem Chain.Sound.keysFor_uncorrupted {chain : Chain} (sound : chain.Sound) (key : ChainKey) (counter : UInt32) :
    Uncorrupted (chain.keysFor key counter) := by
  unfold Chain.keysFor
  split
  · split
    · rename_i stored found
      obtain ⟨keys, rfl⟩ := sound.kept stored (List.mem_of_find?_eq_some found)
      exact .of_eq_ok (StoredMessageKeys.load_ofKeys keys)
    · exact .error rfl
  · dsimp only
    split
    · exact .error rfl
    · apply Uncorrupted.ok

namespace SessionState

theorem openWith_uncorrupted (state : SessionState) (message : RatchetMessage) {chain : Chain} (sound : chain.Sound)
    (key : ChainKey) (own remote : PublicKey) : Uncorrupted (state.openWith message chain key own remote) := by
  unfold openWith
  apply (sound.keysFor_uncorrupted key message.counter).bind
  intro keys served
  apply (message.decipher_uncorrupted keys remote own).bind
  intro plaintext deciphered
  apply Uncorrupted.ok

theorem Sound.read_uncorrupted {state : SessionState} (sound : state.Sound) (message : RatchetMessage) (fresh : KeyPair) :
    Uncorrupted (state.read message fresh) := by
  obtain ⟨own, remote, pair, root, place, formed⟩ := sound.formed
  by_cases version : message.version = 3
  · cases found : state.receivingChain? message.ratchetKey with
    | some chain =>
      have chain_sound := sound.receivers chain (List.mem_of_find?_eq_some found)
      obtain ⟨key, placed⟩ := chain_sound.key
      rw [formed.read_known version found placed]
      exact openWith_uncorrupted _ message chain_sound key own remote
    | none =>
      rw [formed.read_new version found]
      exact openWith_uncorrupted _ message (Chain.receiving_sound ..) _ own remote
  · rw [formed.read_version version]
    exact .error rfl

theorem Sound.remoteIdentityKey {state : SessionState} (sound : state.Sound) :
    ∃ remote, state.remoteIdentityKey = .ok remote := by
  obtain ⟨own, remote, pair, root, place, formed⟩ := sound.formed
  exact ⟨remote, formed.remoteIdentityKey⟩

theorem Sound.localIdentityKey {state : SessionState} (sound : state.Sound) :
    ∃ own, state.localIdentityKey = .ok own := by
  obtain ⟨own, remote, pair, root, place, formed⟩ := sound.formed
  exact ⟨own, formed.localIdentityKey⟩

end SessionState

theorem SessionRecord.read_uncorrupted {record : SessionRecord} (all : record.All SessionState.Sound) (peer : Address)
    (message : RatchetMessage) (e : Entropy) : Uncorrupted (record.read peer message e).1 := by
  intro fault failed
  rcases read_error failed with rfl | ⟨state, member, fresh, failed⟩
  · rfl
  · exact (all state member).read_uncorrupted message fresh fault failed

/-! ## Operations -/

theorem PublicKey.deserialize_uncorrupted (bytes : Bytes) : Uncorrupted (deserialize bytes) := by
  unfold deserialize
  split
  · exact .error rfl
  · split
    · exact .error rfl
    · split
      · apply Uncorrupted.ok
      · exact .error rfl

theorem PreKeyBundle.verified_uncorrupted (bundle : PreKeyBundle) : Uncorrupted bundle.verified := by
  unfold verified
  split
  · exact .error rfl
  · split
    · apply Uncorrupted.ok
    · exact .error rfl

theorem SessionState.pendingPreKey?_uncorrupted (state : SessionState) : Uncorrupted state.pendingPreKey? := by
  unfold pendingPreKey?
  split
  · rename_i stored _
    apply Uncorrupted.bind
    · apply (PublicKey.deserialize_uncorrupted stored.baseKey).bind
      intro baseKey _
      apply Uncorrupted.ok
    · intro pending _
      apply Uncorrupted.ok
  · apply Uncorrupted.ok

theorem SessionState.Sound.message_uncorrupted {state : SessionState} (sound : state.Sound) (peer : Address)
    (plaintext : Bytes) : Uncorrupted (state.message peer plaintext) := by
  obtain ⟨own, remote, pair, root, place, formed⟩ := sound.formed
  unfold SessionState.message
  rw [formed.sendingChainKey, formed.localIdentityKey, formed.remoteIdentityKey?, formed.ratchetKey]
  apply state.pendingPreKey?_uncorrupted.bind
  intro pending _
  cases pending with
  | none => apply Uncorrupted.ok
  | some pending => apply Uncorrupted.ok

theorem currentState_uncorrupted (peer : Address) (record : SessionRecord) : Uncorrupted (currentState peer record) := by
  unfold currentState
  split
  · apply Uncorrupted.ok
  · exact .error rfl

namespace Stores

variable {stores : Stores} {peer : Address}

theorem trusts_uncorrupted (stores : Stores) (peer : Address) (identity : PublicKey) (direction : Direction) :
    Uncorrupted (stores.trusts peer identity direction) := by
  unfold trusts
  split
  · apply Uncorrupted.ok
  · exact .error rfl

theorem record_uncorrupted (stores : Stores) (peer : Address) : Uncorrupted (stores.record peer) :=
  .elim (.noSession peer) rfl _

theorem respond_uncorrupted (stores : Stores) (record : SessionRecord) (message : PreKeyMessage) :
    Uncorrupted (stores.respond record message) := by
  unfold respond
  split
  · apply Uncorrupted.ok
  · apply (Uncorrupted.elim .unknownSignedPreKey rfl _).bind
    intro signedPreKey _
    apply Uncorrupted.bind
    · unfold oneTimeKey
      split
      · apply (Uncorrupted.elim .unknownPreKey rfl _).bind
        intro preKey _
        apply Uncorrupted.ok
      · apply Uncorrupted.ok
    · intro oneTimePreKey _
      apply Uncorrupted.ok

theorem acceptBundle_uncorrupted (stores : Stores) (peer : Address) (bundle : PreKeyBundle) (base ratchet : KeyPair) :
    Uncorrupted (stores.acceptBundle peer bundle base ratchet) := by
  unfold acceptBundle
  apply (stores.trusts_uncorrupted peer bundle.identityKey .sending).bind
  intro _ _
  apply bundle.verified_uncorrupted.bind
  intro signedPreKey _
  apply Uncorrupted.ok

theorem currentState_sound (sound : stores.Holds peer SessionRecord.Sound) {record : SessionRecord} {state : SessionState}
    (loaded : stores.record peer = .ok record) (current : currentState peer record = .ok state) : state.Sound := by
  have replaces : record.Replaces state state _ := .current (currentState_eq_ok.mp current)
  exact (sound record (record_eq_ok.mp loaded)).states state replaces.member

theorem encrypt_uncorrupted (sound : stores.Holds peer SessionRecord.Sound) (plaintext : Bytes) :
    Uncorrupted (stores.encrypt peer plaintext) := by
  unfold encrypt
  apply (stores.record_uncorrupted peer).bind
  intro record loaded
  apply (currentState_uncorrupted peer record).bind
  intro state current
  have state_sound := currentState_sound sound loaded current
  apply (state_sound.message_uncorrupted peer plaintext).bind
  intro sent _
  obtain ⟨own, remote, pair, root, place, formed⟩ := state_sound.formed
  apply (Uncorrupted.of_eq_ok formed.sendingChainKey).bind
  intro chain _
  apply (stores.trusts_uncorrupted peer sent.2 .sending).bind
  intro _ _
  apply Uncorrupted.ok

theorem acceptRead_uncorrupted {record : SessionRecord} (all : record.All SessionState.Sound) (message : RatchetMessage)
    (e : Entropy) : Uncorrupted (stores.acceptRead peer (record.read peer message e).1) := by
  unfold acceptRead
  apply (record.read_uncorrupted all peer message e).bind
  intro found read
  apply (currentState_uncorrupted peer found.1).bind
  intro state current
  -- The state that has read the message is the current one, and of the same identity as before.
  obtain ⟨_, before, opens, _, replaces⟩ := SessionRecord.read_eq_ok (Prod.ext read rfl)
  have opened := replaces.current_eq
  rw [currentState_eq_ok.mp current] at opened
  cases opened
  obtain ⟨remote, identity⟩ := (all before replaces.member).remoteIdentityKey
  have same : found.2.state.remoteIdentityKey = .ok remote := (SessionState.read_remoteIdentityKey opens).trans identity
  apply (Uncorrupted.of_eq_ok same).bind
  intro identity _
  apply (stores.trusts_uncorrupted peer identity .receiving).bind
  intro _ _
  apply Uncorrupted.ok

theorem decryptRatchet_uncorrupted (sound : stores.Holds peer SessionRecord.Sound) (message : RatchetMessage)
    (e : Entropy) : Uncorrupted (stores.decryptRatchet peer message e).1 := by
  unfold decryptRatchet
  split
  · rename_i fault missing
    exact .error (stores.record_uncorrupted peer fault missing)
  · rename_i record loaded
    have all := (sound record (record_eq_ok.mp loaded)).states
    split
    · rename_i fault failed
      exact .error (acceptRead_uncorrupted all message e fault failed)
    · apply Uncorrupted.ok

theorem decryptPreKey_uncorrupted (sound : stores.Holds peer SessionRecord.Sound) (message : PreKeyMessage)
    (e : Entropy) : Uncorrupted (stores.decryptPreKey peer message e).1 := by
  unfold decryptPreKey
  split
  · rename_i fault refused
    have accepted : Uncorrupted (stores.acceptMessage peer message) :=
      (stores.trusts_uncorrupted peer message.identityKey .receiving).bind fun _ _ => stores.respond_uncorrupted _ message
    exact .error (accepted fault refused)
  · rename_i accepted used accept
    have states : stores.Holds peer (·.All SessionState.Sound) := fun record stored => (sound record stored).states
    have all := (acceptMessage_eq_ok.mp accept).2.all states.recordOrFresh
      (SessionState.responderState_sound stores message)
    split
    · rename_i fault _ failed
      exact .error (accepted.read_uncorrupted all peer message.message e fault (congrArg Prod.fst failed))
    · apply Uncorrupted.ok

theorem serve_uncorrupted {request : Request} (sound : stores.Holds request.peer SessionRecord.Sound) (e : Entropy) :
    Uncorrupted (stores.serve e request).1 := by
  cases request with
  | acceptBundle peer bundle =>
    simp only [serve]
    split
    · apply Uncorrupted.ok
    · exact .error (stores.acceptBundle_uncorrupted peer bundle _ _ _ ‹_›)
  | encrypt peer plaintext =>
    simp only [serve]
    split
    · apply Uncorrupted.ok
    · exact .error (encrypt_uncorrupted sound plaintext _ ‹_›)
  | decryptRatchet peer message => exact (decryptRatchet_uncorrupted sound message e).map
  | decryptPreKey peer message => exact (decryptPreKey_uncorrupted sound message e).map

theorem decryptWithKeys_uncorrupted (sound : stores.Holds peer SessionRecord.Sound) (message : RatchetMessage)
    (keys : MessageKeys) : Uncorrupted (stores.decryptWithKeys peer message keys) := by
  unfold decryptWithKeys
  apply (stores.record_uncorrupted peer).bind
  intro record loaded
  apply (currentState_uncorrupted peer record).bind
  intro state current
  have state_sound := currentState_sound sound loaded current
  obtain ⟨remote, remote_eq⟩ := state_sound.remoteIdentityKey
  obtain ⟨own, own_eq⟩ := state_sound.localIdentityKey
  apply (Uncorrupted.of_eq_ok remote_eq).bind
  intro remote _
  apply (Uncorrupted.of_eq_ok own_eq).bind
  intro own _
  exact message.decipher_uncorrupted keys remote own

end Stores

/-- What a device has stored for a peer is sound after any requests to and from any peers, answered or refused, as long
as no chain comes to its end. And with a sound record no request, nor decryption with known keys, finds corruption. -/
theorem records_sound (device : Device) (peer : Address) :
    (∀ requests, device.stores.sessions = ∅ → Unexhausted (device.serveAll requests).1 →
      (device.serveAll requests).2.stores.Holds peer SessionRecord.Sound) ∧
    (device.stores.Holds peer SessionRecord.Sound →
      (∀ request, request.peer = peer → Uncorrupted (device.serve request).1) ∧
      ∀ message keys, Uncorrupted ((Session.decryptWithKeys peer message keys : OnDevice Bytes) device).1) := by
  constructor
  · intro requests none_stored unexhausted
    apply SessionRecord.sound_enduring.serveAll _ unexhausted
    intro record stored
    rw [none_stored] at stored
    cases stored
  · intro sound
    constructor
    · rintro request rfl
      rw [(device.serve_eq request).1]
      exact Stores.serve_uncorrupted sound device.ambient.entropy
    · intro message keys
      have yields := Session.decryptWithKeys_yields device.stores peer device.ambient.entropy message keys
      obtain ⟨device', run, _⟩ := yields device rfl
      rw [run]
      exact Stores.decryptWithKeys_uncorrupted sound message keys

/-- A device that has accepted a bundle and sent a message has a sound record, and refuses a message of an old version
for its version. -/
theorem records_sound_first_message :
    let requests := [Request.acceptBundle Sample.responder Sample.bundle, .encrypt Sample.responder [1, 2, 3]]
    let device := (Sample.initiating.serveAll requests).2
    (∃ record, device.stores.sessions[Sample.responder]? = some record ∧ record.Sound) ∧
      ∃ fault, (device.serve (.decryptRatchet Sample.responder Sample.outdated)).1 = .error fault ∧
        fault.isCorruption = false := by
  intro requests device
  have bounded : ∀ request ∈ requests, request.counter? ≠ some 0xffffffff := by
    simp [requests, Request.counter?]
  have unexhausted := Sample.initiating.serveAll_unexhausted bounded
  have sound : device.stores.Holds Sample.responder SessionRecord.Sound :=
    (records_sound Sample.initiating Sample.responder).1 requests rfl unexhausted
  have stored : device.stores.sessions[Sample.responder]?.isSome := by decide +kernel
  have refused : ((device.serve (.decryptRatchet Sample.responder Sample.outdated)).1.isOk) = false := by decide +kernel
  constructor
  · obtain ⟨record, stored⟩ := Option.isSome_iff_exists.mp stored
    exact ⟨record, stored, sound record stored⟩
  · cases run : (device.serve (.decryptRatchet Sample.responder Sample.outdated)).1 with
    | ok reply =>
      rw [run] at refused
      cases refused
    | error fault =>
      have uncorrupted := ((records_sound device Sample.responder).2 sound).1 (.decryptRatchet Sample.responder Sample.outdated) rfl
      exact ⟨fault, rfl, uncorrupted fault run⟩

end DoubleRatchet
