import DoubleRatchet.Proofs.Session.Operations
import DoubleRatchet.Proofs.Session.RecordReading

/-! What it takes for each operation to succeed, and all that it then does to the stores. -/
namespace DoubleRatchet

open Session

/-- What tells the key of a message from all others: the ratchet key of its chain and its number there. -/
def RatchetMessage.heading (message : RatchetMessage) : PublicKey × UInt32 := (message.ratchetKey, message.counter)

/-- The message of the session that a message is or carries. -/
def Message.inner? : Message → Option RatchetMessage
  | .ratchet message => some message
  | .preKey message => some message.message
  | _ => none

theorem PreKeyBundle.verified_eq_ok {bundle : PreKeyBundle} {key : PublicKey} : bundle.verified = .ok key ↔
    bundle.signedPreKey = some key ∧ bundle.identityKey.verify key.serialize bundle.signature := by
  unfold verified
  cases bundle.signedPreKey with
  | none => simp
  | some found =>
    dsimp only
    split
    · rename_i signed
      constructor
      · rintro ⟨⟩
        exact ⟨rfl, signed⟩
      · rintro ⟨⟨⟩, -⟩
        rfl
    · rename_i unsigned
      constructor
      · rintro ⟨⟩
      · rintro ⟨⟨⟩, signed⟩
        exact absurd signed unsigned

namespace SessionState

/-- The next message of a state whose sending chain stands at `chain`. -/
def sealed (state : SessionState) (chain : ChainKey) (ratchetKey own remote : PublicKey) (plaintext : Bytes) :
    RatchetMessage :=
  .create state.version.toUInt8 chain.messageKeys.macKey ratchetKey chain.index state.previousCounter
    (Cipher.encrypt chain.messageKeys.cipherKey chain.messageKeys.iv plaintext) own remote

/-- The message as it leaves: until the other side has answered it announces the keys of the handshake. -/
def wrapped (state : SessionState) (own : PublicKey) (inner : RatchetMessage) : Option PendingPreKey → Message
  | none => .ratchet inner
  | some pending => .preKey (.create state.version.toUInt8 state.localRegistrationId pending.preKeyId
      pending.signedPreKeyId pending.baseKey own inner)

@[simp] theorem wrapped_inner? (state : SessionState) (own : PublicKey) (inner : RatchetMessage)
    (pending : Option PendingPreKey) : (state.wrapped own inner pending).inner? = some inner := by
  cases pending <;> rfl

structure Makes (state : SessionState) (chain : ChainKey) (ratchetKey own remote : PublicKey)
    (pending : Option PendingPreKey) : Prop where
  place : state.sendingChainKey = .ok chain
  ratchetKey : state.ratchetKey = .ok ratchetKey
  own : state.localIdentityKey = .ok own
  remote : state.remoteIdentityKey? = .ok (some remote)
  pending : state.pendingPreKey? = .ok pending

theorem message_eq_ok {state : SessionState} {peer : Address} {plaintext : Bytes} {message : Message}
    {remote : PublicKey} : state.message peer plaintext = .ok (message, remote) ↔
      ∃ chain ratchetKey own pending, state.Makes chain ratchetKey own remote pending ∧
        message = state.wrapped own (state.sealed chain ratchetKey own remote plaintext) pending := by
  unfold SessionState.message
  simp only [bind_eq_ok]
  constructor
  · rintro ⟨chain, place, own, own_eq, found, remote_eq, run⟩
    cases found with
    | none => cases run
    | some remote' =>
      simp only [bind_eq_ok] at run
      obtain ⟨ratchetKey, key_eq, pending, pending_eq, run⟩ := run
      cases pending with
      | none =>
        cases run
        exact ⟨chain, ratchetKey, own, none, ⟨place, key_eq, own_eq, remote_eq, pending_eq⟩, rfl⟩
      | some pending =>
        cases run
        exact ⟨chain, ratchetKey, own, some pending, ⟨place, key_eq, own_eq, remote_eq, pending_eq⟩, rfl⟩
  · rintro ⟨chain, ratchetKey, own, pending, makes, rfl⟩
    refine ⟨chain, makes.place, own, makes.own, some remote, makes.remote, ?_⟩
    simp only [bind_eq_ok]
    refine ⟨ratchetKey, makes.ratchetKey, pending, makes.pending, ?_⟩
    cases pending <;> rfl

theorem remoteIdentityKey_of_some {state : SessionState} {remote : PublicKey}
    (found : state.remoteIdentityKey? = .ok (some remote)) : state.remoteIdentityKey = .ok remote := by
  rw [remoteIdentityKey, found]
  rfl

end SessionState

namespace Stores

theorem withSession_sessions (stores : Stores) (peer other : Address) (identity : PublicKey) (record : SessionRecord) :
    (stores.withSession peer identity record).sessions[other]? =
      if peer = other then some record else stores.sessions[other]? := by
  simp only [withSession, Std.ExtTreeMap.getElem?_insert, Std.LawfulEqCmp.compare_eq_iff_eq]

theorem withSession_identities (stores : Stores) (peer other : Address) (identity : PublicKey) (record : SessionRecord) :
    (stores.withSession peer identity record).identities[other]? =
      if peer = other then some identity else stores.identities[other]? := by
  simp only [withSession, Std.ExtTreeMap.getElem?_insert, Std.LawfulEqCmp.compare_eq_iff_eq]

theorem afterPreKey_sessions (stores : Stores) (peer : Address) (message : PreKeyMessage) (record : SessionRecord)
    (used : Option UInt32) : (stores.afterPreKey peer message record used).sessions[peer]? = some record :=
  (stores.withSession_sessions peer peer message.identityKey record).trans (if_pos rfl)

theorem afterPreKey_identities (stores : Stores) (peer : Address) (message : PreKeyMessage) (record : SessionRecord)
    (used : Option UInt32) : (stores.afterPreKey peer message record used).identities[peer]? = some message.identityKey :=
  (stores.withSession_identities peer peer message.identityKey record).trans (if_pos rfl)

theorem trusts_eq_ok {stores : Stores} {peer : Address} {identity : PublicKey} {direction : Direction} {u : Unit} :
    stores.trusts peer identity direction = .ok u ↔ stores.isTrusted peer identity direction = true := by
  unfold trusts
  split
  · exact ⟨fun _ => ‹_›, fun _ => rfl⟩
  · rename_i untrusted
    refine ⟨fun run => ?_, fun trusted => absurd trusted untrusted⟩
    cases run

theorem record_eq_ok {stores : Stores} {peer : Address} {record : SessionRecord} :
    stores.record peer = .ok record ↔ stores.sessions[peer]? = some record := by
  unfold Stores.record
  cases stores.sessions[peer]? with
  | none => simp
  | some found => simp

theorem recordOrFresh_eq {stores : Stores} {peer : Address} {record : SessionRecord}
    (stored : stores.sessions[peer]? = some record) : stores.recordOrFresh peer = record := by
  rw [recordOrFresh, stored]
  rfl

theorem currentState_eq_ok {peer : Address} {record : SessionRecord} {state : SessionState} :
    currentState peer record = .ok state ↔ record.current = some state := by
  unfold currentState
  cases record.current with
  | none => simp
  | some found => simp

/-- What a device sends with: the record of the peer and its current state, and what the message is made from. -/
structure Sends (stores : Stores) (peer : Address) (record : SessionRecord) (state : SessionState) (chain : ChainKey)
    (ratchetKey own remote : PublicKey) (pending : Option PendingPreKey) : Prop where
  loaded : stores.sessions[peer]? = some record
  current : record.current = some state
  makes : state.Makes chain ratchetKey own remote pending
  trusted : stores.isTrusted peer remote .sending

theorem encrypt_eq_ok {stores stores' : Stores} {peer : Address} {plaintext : Bytes} {message : Message} :
    stores.encrypt peer plaintext = .ok (message, stores') ↔
      ∃ record state chain ratchetKey own remote pending,
        stores.Sends peer record state chain ratchetKey own remote pending ∧
        message = state.wrapped own (state.sealed chain ratchetKey own remote plaintext) pending ∧
        stores' = stores.withSession peer remote
          { record with current := some (state.withSendingChainKey chain.next) } := by
  unfold encrypt
  simp only [bind_eq_ok, record_eq_ok, currentState_eq_ok]
  constructor
  · rintro ⟨record, loaded, state, current, ⟨message', remote⟩, made, chain, place, _, trusted, run⟩
    cases run
    obtain ⟨chain', ratchetKey, own, pending, makes, rfl⟩ := SessionState.message_eq_ok.mp made
    have same := makes.place
    rw [place] at same
    cases same
    exact ⟨record, state, chain, ratchetKey, own, remote, pending,
      ⟨loaded, current, makes, trusts_eq_ok.mp trusted⟩, rfl, rfl⟩
  · rintro ⟨record, state, chain, ratchetKey, own, remote, pending, sends, rfl, rfl⟩
    refine ⟨record, sends.loaded, state, sends.current, (_, remote),
      SessionState.message_eq_ok.mpr ⟨chain, ratchetKey, own, pending, sends.makes, rfl⟩, chain, sends.makes.place, (),
      trusts_eq_ok.mpr sends.trusted, rfl⟩

theorem acceptBundle_eq_ok {stores stores' : Stores} {peer : Address} {bundle : PreKeyBundle} {base ratchet : KeyPair} :
    stores.acceptBundle peer bundle base ratchet = .ok stores' ↔
      stores.isTrusted peer bundle.identityKey .sending ∧ ∃ signedPreKey, bundle.verified = .ok signedPreKey ∧
        stores' = stores.withSession peer bundle.identityKey
          ((stores.recordOrFresh peer).install (stores.initiatorState bundle signedPreKey base ratchet)) := by
  unfold acceptBundle
  simp only [bind_eq_ok]
  constructor
  · rintro ⟨_, trusted, signedPreKey, verified, run⟩
    cases run
    exact ⟨trusts_eq_ok.mp trusted, signedPreKey, verified, rfl⟩
  · rintro ⟨trusted, signedPreKey, verified, rfl⟩
    exact ⟨(), trusts_eq_ok.mpr trusted, signedPreKey, verified, rfl⟩

theorem decryptRatchet_eq_ok {stores stores' : Stores} {peer : Address} {message : RatchetMessage} {e e' : Entropy}
    {plaintext : Bytes} {keys : MessageKeys} :
    stores.decryptRatchet peer message e = (.ok (plaintext, keys), stores', e') ↔
      ∃ record record' opened remote, stores.sessions[peer]? = some record ∧
        record.read peer message e = (.ok (record', opened), e') ∧ opened.state.remoteIdentityKey = .ok remote ∧
        stores.isTrusted peer remote .receiving ∧ plaintext = opened.plaintext ∧ keys = opened.keys ∧
        stores' = stores.withSession peer remote record' := by
  unfold decryptRatchet
  constructor
  · intro run
    cases loaded : stores.record peer with
    | error fault => rw [loaded] at run; cases run
    | ok record =>
      rw [loaded] at run
      dsimp only at run
      split at run
      · cases run
      · rename_i result stores'' accepted
        cases run
        unfold acceptRead at accepted
        simp only [bind_eq_ok, currentState_eq_ok] at accepted
        obtain ⟨⟨record', opened⟩, read, state, current, remote, remote_eq, _, trusted, made⟩ := accepted
        have replaces := (SessionRecord.read_eq_ok (Prod.ext read rfl)).choose_spec.choose_spec.2.2
        rw [replaces.current_eq] at current
        cases current
        cases made
        exact ⟨record, record', opened, remote, record_eq_ok.mp loaded, Prod.ext read rfl, remote_eq,
          trusts_eq_ok.mp trusted, rfl, rfl, rfl⟩
  · rintro ⟨record, record', opened, remote, loaded, read, remote_eq, trusted, rfl, rfl, rfl⟩
    obtain ⟨_, _, _, _, replaces⟩ := SessionRecord.read_eq_ok read
    have accepted : stores.acceptRead peer (record.read peer message e).1 =
        .ok ((opened.plaintext, opened.keys), stores.withSession peer remote record') := by
      unfold acceptRead
      simp only [bind_eq_ok, currentState_eq_ok]
      exact ⟨(record', opened), by rw [read], opened.state, replaces.current_eq, remote, remote_eq, (),
        trusts_eq_ok.mpr trusted, rfl⟩
    rw [record_eq_ok.mpr loaded]
    simp only [accepted]
    rw [read]

theorem decryptRatchet_skips (stores : Stores) (peer : Address) (message : RatchetMessage) (e : Entropy) :
    ∃ n, (stores.decryptRatchet peer message e).2.2 = e.skip n := by
  unfold decryptRatchet
  split
  · exact ⟨0, rfl⟩
  · split <;> exact SessionRecord.read_skips _ _ _ _

theorem decryptRatchet_error {stores stores' : Stores} {peer : Address} {message : RatchetMessage} {e e' : Entropy}
    {fault : Fault} (run : stores.decryptRatchet peer message e = (.error fault, stores', e')) : stores' = stores := by
  unfold decryptRatchet at run
  split at run
  · cases run
    rfl
  · split at run
    · cases run
      rfl
    · cases run

/-- How the handshake of a message is answered: it has been before, or a state is built from the keys it names. -/
inductive Answers (stores : Stores) (record : SessionRecord) (message : PreKeyMessage) :
    SessionRecord → Option UInt32 → Prop
  | known (has : record.hasStateFor message.version.toUInt32 message.baseKey) : Answers stores record message record none
  | built (unknown : record.hasStateFor message.version.toUInt32 message.baseKey = false)
    (signedPreKey : SignedPreKeyRecord) (oneTimePreKey : Option KeyPair)
    (signed : stores.signedPreKeys[message.signedPreKeyId]? = some signedPreKey)
    (oneTime : stores.oneTimeKey message.preKeyId = .ok oneTimePreKey) :
    Answers stores record message (record.install (stores.responderState message signedPreKey.keyPair oneTimePreKey))
      (message.preKeyId.filter (· != noPreKey))

theorem respond_eq_ok {stores : Stores} {record record' : SessionRecord} {message : PreKeyMessage}
    {used : Option UInt32} :
    stores.respond record message = .ok (record', used) ↔ stores.Answers record message record' used := by
  unfold respond
  constructor
  · intro run
    split at run
    · cases run
      exact .known ‹_›
    · rename_i unknown
      simp only [bind_eq_ok] at run
      obtain ⟨signedPreKey, signed, oneTimePreKey, oneTime, made⟩ := run
      cases made
      refine .built (by simpa using unknown) signedPreKey oneTimePreKey ?_ oneTime
      cases found : stores.signedPreKeys[message.signedPreKeyId]? with
      | none => rw [found] at signed; cases signed
      | some _ => rw [found] at signed; cases signed; rfl
  · intro answers
    cases answers with
    | known has => rw [if_pos has]
    | built unknown signedPreKey oneTimePreKey signed oneTime =>
      rw [if_neg (by rw [unknown]; exact Bool.false_ne_true)]
      simp only [bind_eq_ok]
      exact ⟨signedPreKey, by rw [signed]; rfl, oneTimePreKey, oneTime, rfl⟩

theorem acceptMessage_eq_ok {stores : Stores} {peer : Address} {message : PreKeyMessage} {record : SessionRecord}
    {used : Option UInt32} : stores.acceptMessage peer message = .ok (record, used) ↔
      stores.isTrusted peer message.identityKey .receiving ∧
        stores.Answers (stores.recordOrFresh peer) message record used := by
  unfold acceptMessage
  simp only [bind_eq_ok, respond_eq_ok]
  constructor
  · rintro ⟨_, trusted, answers⟩
    exact ⟨trusts_eq_ok.mp trusted, answers⟩
  · rintro ⟨trusted, answers⟩
    exact ⟨(), trusts_eq_ok.mpr trusted, answers⟩

theorem decryptPreKey_eq_ok {stores stores' : Stores} {peer : Address} {message : PreKeyMessage} {e e' : Entropy}
    {plaintext : Bytes} {keys : MessageKeys} :
    stores.decryptPreKey peer message e = (.ok (plaintext, keys), stores', e') ↔
      ∃ accepted used record opened, stores.isTrusted peer message.identityKey .receiving ∧
        stores.Answers (stores.recordOrFresh peer) message accepted used ∧
        accepted.read peer message.message e = (.ok (record, opened), e') ∧
        plaintext = opened.plaintext ∧ keys = opened.keys ∧
        stores' = stores.afterPreKey peer message record used := by
  unfold decryptPreKey
  constructor
  · intro run
    cases accept : stores.acceptMessage peer message with
    | error fault => rw [accept] at run; cases run
    | ok found =>
      obtain ⟨accepted, used⟩ := found
      rw [accept] at run
      dsimp only at run
      obtain ⟨trusted, answers⟩ := acceptMessage_eq_ok.mp accept
      split at run
      · cases run
      · rename_i record opened _ read
        cases run
        exact ⟨accepted, used, record, opened, trusted, answers, read, rfl, rfl, rfl⟩
  · rintro ⟨accepted, used, record, opened, trusted, answers, read, rfl, rfl, rfl⟩
    rw [acceptMessage_eq_ok.mpr ⟨trusted, answers⟩]
    simp only [read]

theorem decryptPreKey_skips (stores : Stores) (peer : Address) (message : PreKeyMessage) (e : Entropy) :
    ∃ n, (stores.decryptPreKey peer message e).2.2 = e.skip n := by
  unfold decryptPreKey
  split
  · exact ⟨0, rfl⟩
  · rename_i accepted used _
    obtain ⟨n, left⟩ := accepted.read_skips peer message.message e
    refine ⟨n, ?_⟩
    split <;> (rename_i read; rw [read] at left; exact left)

/-- A message that opens a session is refused with its handshake, or after it because no state can read what is inside.
The handshake alone saves the identity. -/
theorem decryptPreKey_error {stores stores' : Stores} {peer : Address} {message : PreKeyMessage} {e e' : Entropy}
    {fault : Fault} (run : stores.decryptPreKey peer message e = (.error fault, stores', e')) :
    stores.acceptMessage peer message = .error fault ∧ stores' = stores ∨
      (∃ accepted used, stores.acceptMessage peer message = .ok (accepted, used) ∧
        (accepted.read peer message.message e).1 = .error fault) ∧ stores' = stores.afterHandshake peer message := by
  unfold decryptPreKey at run
  cases accept : stores.acceptMessage peer message with
  | error refused =>
    rw [accept] at run
    cases run
    exact .inl ⟨rfl, rfl⟩
  | ok found =>
    obtain ⟨accepted, used⟩ := found
    rw [accept] at run
    dsimp only at run
    split at run
    · rename_i read
      cases run
      exact .inr ⟨⟨accepted, used, rfl, congrArg Prod.fst read⟩, rfl⟩
    · cases run

theorem decrypt_skips (stores : Stores) (peer : Address) (e : Entropy) (message : Message) :
    ∃ n, (stores.decrypt peer e message).2.2 = e.skip n := by
  cases message with
  | ratchet message => exact stores.decryptRatchet_skips peer message e
  | preKey message => exact stores.decryptPreKey_skips peer message e
  | _ => exact ⟨0, rfl⟩

end Stores

namespace Session

variable {device device' : Device} {peer : Address}

theorem acceptBundle_run {bundle : PreKeyBundle} {u : Unit}
    (run : (acceptBundle peer bundle : OnDevice Unit) device = (.ok u, device')) :
    device.stores.acceptBundle peer bundle (device.ambient.entropy.pair 0) (device.ambient.entropy.pair 1) =
      .ok device'.stores ∧ device'.ambient.entropy = device.ambient.entropy.skip 2 := by
  have commits := acceptBundle_commits device.stores peer device.ambient.entropy bundle
  unfold Commits at commits
  split at commits
  · rename_i stores made
    obtain ⟨stored, left⟩ := Prod.ext_iff.mp (Yields.of_run commits run).2
    exact ⟨made.trans (congrArg Except.ok stored.symm), left⟩
  · cases (Yields.of_run commits run).1

theorem acceptBundle_run_error {bundle : PreKeyBundle} {fault : Fault}
    (run : (acceptBundle peer bundle : OnDevice Unit) device = (.error fault, device')) :
    device'.contents = device.contents := by
  have commits := acceptBundle_commits device.stores peer device.ambient.entropy bundle
  unfold Commits at commits
  split at commits
  · cases (Yields.of_run commits run).1
  · exact (Yields.of_run commits run).2

theorem encrypt_run {plaintext : Bytes} {message : Message}
    (run : (encrypt peer plaintext : OnDevice Message) device = (.ok message, device')) :
    device.stores.encrypt peer plaintext = .ok (message, device'.stores) ∧
      device'.ambient.entropy = device.ambient.entropy := by
  have commits := encrypt_commits device.stores peer device.ambient.entropy plaintext
  unfold Commits at commits
  split at commits
  · rename_i sent made
    obtain ⟨same, shown⟩ := Yields.of_run commits run
    obtain ⟨stored, left⟩ := Prod.ext_iff.mp shown
    cases same
    exact ⟨made.trans (congrArg Except.ok (Prod.ext rfl stored.symm)), left⟩
  · cases (Yields.of_run commits run).1

theorem encrypt_run_error {plaintext : Bytes} {fault : Fault}
    (run : (encrypt peer plaintext : OnDevice Message) device = (.error fault, device')) :
    device.stores.encrypt peer plaintext = .error fault ∧ device'.contents = device.contents := by
  have commits := encrypt_commits device.stores peer device.ambient.entropy plaintext
  unfold Commits at commits
  split at commits
  · cases (Yields.of_run commits run).1
  · rename_i fault made
    obtain ⟨same, shown⟩ := Yields.of_run commits run
    cases same
    exact ⟨made, shown⟩

theorem decryptRatchet_run {message : RatchetMessage} {result : Except Fault (Bytes × MessageKeys)}
    (run : (decryptRatchet peer message : OnDevice (Bytes × MessageKeys)) device = (result, device')) :
    device.stores.decryptRatchet peer message device.ambient.entropy =
      (result, device'.stores, device'.ambient.entropy) := by
  obtain ⟨same, shown⟩ := (decryptRatchet_yields device.stores peer device.ambient.entropy message).of_run run
  exact Prod.ext same.symm shown.symm

theorem decryptPreKey_run {message : PreKeyMessage} {result : Except Fault (Bytes × MessageKeys)}
    (run : (decryptPreKey peer message : OnDevice (Bytes × MessageKeys)) device = (result, device')) :
    device.stores.decryptPreKey peer message device.ambient.entropy =
      (result, device'.stores, device'.ambient.entropy) := by
  obtain ⟨same, shown⟩ := (decryptPreKey_yields device.stores peer device.ambient.entropy message).of_run run
  exact Prod.ext same.symm shown.symm

theorem decrypt_run {message : Message} {result : Except Fault Bytes}
    (run : (decrypt peer message : OnDevice Bytes) device = (result, device')) :
    device.stores.decrypt peer device.ambient.entropy message = (result, device'.stores, device'.ambient.entropy) := by
  obtain ⟨same, shown⟩ := (decrypt_yields device.stores peer device.ambient.entropy message).of_run run
  exact Prod.ext same.symm shown.symm

end Session

end DoubleRatchet
