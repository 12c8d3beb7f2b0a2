import DoubleRatchet.Proofs.OneTimeKeys

/-! Whose sessions send and read. Encryption and the decryption of established sessions ask for trust in the identity
of the very state that does the work, and save that identity. The decryption of messages that open sessions asks for
trust in the identity that the message claims; the state that reads the message may belong to another one. -/
namespace DoubleRatchet

/-- After an operation: the state that is current for the peer, whose identity the application trusted for the
direction, and has saved. -/
structure Gated (before after : Stores) (peer : Address) (direction : Direction) (state : SessionState)
    (identity : PublicKey) : Prop where
  current : ∃ record, after.sessions[peer]? = some record ∧ record.current = some state
  remote : state.remoteIdentityKey = .ok identity
  trusted : before.isTrusted peer identity direction
  saved : after.identities[peer]? = some identity

/-- The states that may read a message that opens a session: those stored for the peer, unless the handshake is new,
and then the responder's state for it too. -/
inductive MayRead (stores : Stores) (peer : Address) (message : PreKeyMessage) : SessionState → Prop
  | stored {record : SessionRecord} {state : SessionState} (loaded : stores.sessions[peer]? = some record)
    (member : state ∈ record.states) : MayRead stores peer message state
  | built (signedPreKey : KeyPair) (oneTimePreKey : Option KeyPair) :
    MayRead stores peer message (stores.responderState message signedPreKey oneTimePreKey)

theorem Stores.Answers.mayRead {stores : Stores} {peer : Address} {message : PreKeyMessage} {accepted : SessionRecord}
    {used : Option UInt32} {state : SessionState} (answers : stores.Answers (stores.recordOrFresh peer) message accepted used)
    (member : state ∈ accepted.states) : MayRead stores peer message state := by
  have stored : state ∈ (stores.recordOrFresh peer).states → MayRead stores peer message state := by
    unfold Stores.recordOrFresh
    cases loaded : stores.sessions[peer]? with
    | none => exact nofun
    | some record => exact .stored loaded
  cases answers with
  | known _ => exact stored member
  | built _ signedPreKey oneTimePreKey _ _ =>
    obtain ⟨kept, sub, made⟩ := SessionRecord.install_states (stores.recordOrFresh peer)
      (stores.responderState message signedPreKey.keyPair oneTimePreKey)
    rw [made] at member
    rcases List.mem_cons.mp member with rfl | member
    · exact .built _ _
    · exact stored (sub.subset member)

theorem Gated.of_withSession {before after : Stores} {peer : Address} {direction : Direction} {record : SessionRecord}
    {state : SessionState} {identity : PublicKey} (stored : after = before.withSession peer identity record)
    (current : record.current = some state) (remote : state.remoteIdentityKey = .ok identity)
    (trusted : before.isTrusted peer identity direction) : Gated before after peer direction state identity := by
  subst stored
  refine ⟨⟨record, ?_, current⟩, remote, trusted, ?_⟩
  · rw [Stores.withSession_sessions, if_pos rfl]
  · rw [Stores.withSession_identities, if_pos rfl]

theorem encrypt_gated {device device' : Device} {peer : Address} {plaintext : Bytes} {message : Message}
    (run : (Session.encrypt peer plaintext : OnDevice Message) device = (.ok message, device')) :
    ∃ record state chain ratchetKey own remote pending,
      device.stores.Sends peer record state chain ratchetKey own remote pending ∧
      message = state.wrapped own (state.sealed chain ratchetKey own remote plaintext) pending ∧
      Gated device.stores device'.stores peer .sending (state.withSendingChainKey chain.next) remote := by
  obtain ⟨record, state, chain, ratchetKey, own, remote, pending, sends, made, stores⟩ :=
    Stores.encrypt_eq_ok.mp (Session.encrypt_run run).1
  have identity := SessionState.remoteIdentityKey_of_some sends.makes.remote
  exact ⟨record, state, chain, ratchetKey, own, remote, pending, sends, made,
    .of_withSession stores rfl identity sends.trusted⟩

theorem decryptRatchet_gated {device device' : Device} {peer : Address} {message : RatchetMessage} {plaintext : Bytes}
    {keys : MessageKeys}
    (run : (Session.decryptRatchet peer message : OnDevice (Bytes × MessageKeys)) device = (.ok (plaintext, keys), device')) :
    ∃ record state fresh opened identity, device.stores.sessions[peer]? = some record ∧ state ∈ record.states ∧
      state.read message fresh = .ok opened ∧ plaintext = opened.plaintext ∧
      Gated device.stores device'.stores peer .receiving opened.state identity := by
  obtain ⟨record, record', opened, identity, loaded, read, remote, trusted, text, _, stores⟩ :=
    Stores.decryptRatchet_eq_ok.mp (Session.decryptRatchet_run run)
  obtain ⟨n, state, reads, _, replaces⟩ := SessionRecord.read_eq_ok read
  exact ⟨record, state, _, opened, identity, loaded, replaces.member, reads, text,
    .of_withSession stores replaces.current_eq remote trusted⟩

/-- A message that opens a session passes the gate with the identity that it claims; the state that reads it does so
exactly when it belongs to that identity. -/
theorem decryptPreKey_gated_iff {device device' : Device} {peer : Address} {message : PreKeyMessage} {plaintext : Bytes}
    {keys : MessageKeys}
    (run : (Session.decryptPreKey peer message : OnDevice (Bytes × MessageKeys)) device = (.ok (plaintext, keys), device')) :
    device.stores.isTrusted peer message.identityKey .receiving ∧
      device'.stores.identities[peer]? = some message.identityKey ∧
      ∃ state fresh opened, MayRead device.stores peer message state ∧
        state.read message.message fresh = .ok opened ∧ plaintext = opened.plaintext ∧
        (∃ record, device'.stores.sessions[peer]? = some record ∧ record.current = some opened.state) ∧
        ((∃ identity, Gated device.stores device'.stores peer .receiving opened.state identity) ↔
          state.remoteIdentityKey = .ok message.identityKey) := by
  obtain ⟨accepted, used, record, opened, trusted, answers, read, text, _, stores⟩ :=
    Stores.decryptPreKey_eq_ok.mp (Session.decryptPreKey_run run)
  obtain ⟨n, state, reads, _, replaces⟩ := SessionRecord.read_eq_ok read
  have saved : device'.stores.identities[peer]? = some message.identityKey := by
    rw [stores, Stores.afterPreKey_identities]
  have stored : device'.stores.sessions[peer]? = some record := by
    rw [stores, Stores.afterPreKey_sessions]
  have same := SessionState.read_remoteIdentityKey reads
  refine ⟨trusted, saved, state, _, opened, answers.mayRead replaces.member, reads, text,
    ⟨record, stored, replaces.current_eq⟩, ?_⟩
  constructor
  · rintro ⟨identity, gated⟩
    have identity_eq := saved.symm.trans gated.saved
    cases identity_eq
    exact same.symm.trans gated.remote
  · intro remote
    exact ⟨message.identityKey, ⟨record, stored, replaces.current_eq⟩, same.trans remote, trusted, saved⟩

/-- The gate on all three paths. Only a message that opens a session can be read by a state whose identity nobody was
asked about, and it is whenever that identity is not the one that the message claims. -/
theorem sessions_gated (device device' : Device) (peer : Address) :
    (∀ plaintext message, (Session.encrypt peer plaintext : OnDevice Message) device = (.ok message, device') →
      ∃ record state chain ratchetKey own remote pending,
        device.stores.Sends peer record state chain ratchetKey own remote pending ∧
        message = state.wrapped own (state.sealed chain ratchetKey own remote plaintext) pending ∧
        Gated device.stores device'.stores peer .sending (state.withSendingChainKey chain.next) remote) ∧
    (∀ message plaintext keys,
      (Session.decryptRatchet peer message : OnDevice (Bytes × MessageKeys)) device = (.ok (plaintext, keys), device') →
      ∃ record state fresh opened identity, device.stores.sessions[peer]? = some record ∧ state ∈ record.states ∧
        state.read message fresh = .ok opened ∧ plaintext = opened.plaintext ∧
        Gated device.stores device'.stores peer .receiving opened.state identity) ∧
    (∀ message plaintext keys,
      (Session.decryptPreKey peer message : OnDevice (Bytes × MessageKeys)) device = (.ok (plaintext, keys), device') →
      device.stores.isTrusted peer message.identityKey .receiving ∧
        device'.stores.identities[peer]? = some message.identityKey ∧
        ∃ state fresh opened, MayRead device.stores peer message state ∧
          state.read message.message fresh = .ok opened ∧ plaintext = opened.plaintext ∧
          (∃ record, device'.stores.sessions[peer]? = some record ∧ record.current = some opened.state) ∧
          ((∃ identity, Gated device.stores device'.stores peer .receiving opened.state identity) ↔
            state.remoteIdentityKey = .ok message.identityKey)) := by
  refine ⟨?_, ?_, ?_⟩
  · intro plaintext message run
    exact encrypt_gated run
  · intro message plaintext keys run
    exact decryptRatchet_gated run
  · intro message plaintext keys run
    exact decryptPreKey_gated_iff run

/-- A message in a handshake that is known is read as the record reads it, if the identity that it claims is trusted. -/
theorem Stores.decryptPreKey_of_known {stores : Stores} {peer : Address} {message : PreKeyMessage} {e : Entropy}
    {record : SessionRecord} {opened : Opened} (trusted : stores.isTrusted peer message.identityKey .receiving)
    (known : (stores.recordOrFresh peer).hasStateFor message.version.toUInt32 message.baseKey)
    (reads : ((stores.recordOrFresh peer).read peer message.message e).1 = .ok (record, opened)) :
    (stores.decryptPreKey peer message e).1 = .ok (opened.plaintext, opened.keys) := by
  have run := decryptPreKey_eq_ok.mpr ⟨_, _, record, opened, trusted, .known known, Prod.ext reads rfl, rfl, rfl, rfl⟩
  rw [run]

namespace Sample

/-- The next message of the old session, in the handshake that began it, but under another identity. -/
def disguised : PreKeyMessage := .create 3 1 none 1 (publicKey 9) (publicKey 11) farMessage

/-- The device keeps the old session, and has saved that identity since. -/
def repinned : Device where
  stores := { responding.stores with
    identities := .insert ∅ initiator (publicKey 11)
    sessions := .insert ∅ initiator { current := some elder } }
  ambient := responding.ambient

theorem repinned_recordOrFresh : repinned.stores.recordOrFresh initiator = { current := some elder } :=
  Stores.recordOrFresh_eq Std.ExtTreeMap.getElem?_insert_self

theorem repinned_reads : ∃ plaintext keys device',
    (Session.decryptPreKey initiator disguised : OnDevice (Bytes × MessageKeys)) repinned = (.ok (plaintext, keys), device') := by
  have saved : repinned.stores.identities[initiator]? = some (publicKey 11) := Std.ExtTreeMap.getElem?_insert_self
  have trusted : repinned.stores.isTrusted initiator disguised.identityKey .receiving := by
    rw [Stores.isTrusted, saved]
    decide
  have known : (repinned.stores.recordOrFresh initiator).hasStateFor disguised.version.toUInt32 disguised.baseKey := by
    rw [repinned_recordOrFresh]
    decide
  have unrepeated : ∀ state ∈ some elder, ∀ fresh index counter,
      state.read disguised.message fresh ≠ .error (.duplicate index counter) := by
    rintro _ ⟨⟩ fresh index counter repeated
    obtain ⟨_, _, reads⟩ := elder_reads
    obtain ⟨_, reads, _⟩ := SessionState.read_with_any reads fresh
    cases repeated.symm.trans reads
  have reads := (SessionRecord.read_isOk_iff { current := some elder } disguised.message unrepeated initiator
    repinned.ambient.entropy).mpr ⟨elder, List.mem_singleton_self _, elder_reads⟩
  rw [← repinned_recordOrFresh] at reads
  obtain ⟨⟨record, opened⟩, reads⟩ := reads
  have yields := Session.decryptPreKey_yields repinned.stores initiator repinned.ambient.entropy disguised
  rw [Stores.decryptPreKey_of_known trusted known reads] at yields
  obtain ⟨device', run, _⟩ := yields repinned rfl
  exact ⟨opened.plaintext, opened.keys, device', run⟩

end Sample

/-- A device that has accepted a bundle sends a message: the state that has sent it is current and belongs to a trusted
identity. A message of an old session that claims the identity that is saved since is read, and the state of the old
session is current although nobody was asked about its identity. -/
theorem sessions_gated_first_message :
    (let device := ((Session.acceptBundle Sample.responder Sample.bundle : OnDevice Unit) Sample.initiating).2
    ∃ message device', (Session.encrypt Sample.responder [1, 2, 3] : OnDevice Message) device = (.ok message, device') ∧
      ∃ state identity, Gated device.stores device'.stores Sample.responder .sending state identity) ∧
    ∃ plaintext keys device' fresh opened record,
      (Session.decryptPreKey Sample.initiator Sample.disguised : OnDevice (Bytes × MessageKeys)) Sample.repinned =
        (.ok (plaintext, keys), device') ∧
      Sample.elder.read Sample.farMessage fresh = .ok opened ∧ Sample.elder.remoteIdentityKey = .ok (Sample.publicKey 9) ∧
      device'.stores.identities[Sample.initiator]? = some (Sample.publicKey 11) ∧
      device'.stores.sessions[Sample.initiator]? = some record ∧ record.current = some opened.state ∧
      ¬ ∃ identity, Gated Sample.repinned.stores device'.stores Sample.initiator .receiving opened.state identity := by
  constructor
  · intro device
    have sent : ((Session.encrypt Sample.responder [1, 2, 3] : OnDevice Message) device).1.isOk := by
      decide +kernel
    rcases run : (Session.encrypt Sample.responder [1, 2, 3] : OnDevice Message) device with ⟨_ | message, device'⟩
    · rw [run] at sent
      cases sent
    · obtain ⟨_, _, _, _, _, _, _, _, _, gated⟩ := (sessions_gated device device' Sample.responder).1 [1, 2, 3] message run
      exact ⟨message, device', rfl, _, _, gated⟩
  · obtain ⟨plaintext, keys, device', run⟩ := Sample.repinned_reads
    obtain ⟨-, saved, state, fresh, opened, mayRead, reads, -, ⟨record, stored, current⟩, gated_iff⟩ :=
      (sessions_gated Sample.repinned device' Sample.initiator).2.2 Sample.disguised plaintext keys run
    have built_fails : ∀ signedPreKey oneTimePreKey,
        ¬ (Sample.repinned.stores.responderState Sample.disguised signedPreKey oneTimePreKey).Reads Sample.farMessage :=
      fun _ _ => (SessionState.responderState_formed _ Sample.disguised _ _).not_reads_far rfl rfl (by decide)
    have reader : state = Sample.elder := by
      cases mayRead with
      | stored loaded member =>
        cases Std.ExtTreeMap.getElem?_insert_self.symm.trans loaded
        exact List.mem_singleton.mp member
      | built _ _ => exact absurd ⟨fresh, opened, reads⟩ (built_fails _ _)
    have remote : Sample.elder.remoteIdentityKey = .ok (Sample.publicKey 9) := Sample.elder_formed.remoteIdentityKey
    rw [reader] at reads gated_iff
    refine ⟨plaintext, keys, device', fresh, opened, record, run, reads, remote, saved, stored, current, fun gated => ?_⟩
    have claimed := gated_iff.mp gated
    rw [remote] at claimed
    exact absurd claimed (by decide)

end DoubleRatchet
