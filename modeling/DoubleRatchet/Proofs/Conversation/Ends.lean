import DoubleRatchet.Proofs.Conversation.Tracking

/-! What a device does with a message when all that it keeps for the peer is one state: it reads the message with that
state, and then keeps what has become of it. -/
namespace DoubleRatchet

/-- A message that opens a session says whom it is from. -/
def Message.From (identity : PublicKey) : Message → Prop
  | .preKey message => message.identityKey = identity
  | _ => True

namespace SessionRecord

def alone (state : SessionState) : SessionRecord := { current := some state }

theorem alone_read (state : SessionState) (peer : Address) (message : RatchetMessage) (e : Entropy) :
    (alone state).read peer message e = ((state.read message (e.pair 0)).map fun opened => (alone opened.state, opened),
      e.skip (state.draws message)) := by
  unfold SessionRecord.read alone
  dsimp only
  cases state.read message (e.pair 0) with
  | ok opened => rfl
  | error fault => cases fault <;> rfl

end SessionRecord

namespace Stores

/-- The identity is or may become that of the peer. -/
structure Trusting (stores : Stores) (peer : Address) (identity : PublicKey) : Prop where
  denied : stores.denied = []
  saved : ∀ other, stores.identities[peer]? = some other → other = identity

theorem Trusting.isTrusted {stores : Stores} {peer : Address} {identity : PublicKey}
    (trusting : stores.Trusting peer identity) (direction : Direction) : stores.isTrusted peer identity direction := by
  have saved := trusting.saved
  unfold Stores.isTrusted
  rw [trusting.denied]
  cases found : stores.identities[peer]? with
  | none => rfl
  | some other => simp [saved other found]

/-- A message is read with the state, and comes from the identity. -/
inductive Reaches (stores : Stores) (peer : Address) (state : SessionState) (identity : PublicKey) : Message → Prop
  | ratchet (message : RatchetMessage) (kept : stores.sessions[peer]? = some (.alone state)) :
    Reaches stores peer state identity (.ratchet message)
  | preKey (message : PreKeyMessage) (used : Option UInt32) (from_identity : message.identityKey = identity)
    (accepted : stores.acceptMessage peer message = .ok (.alone state, used)) :
    Reaches stores peer state identity (.preKey message)

/-- A message whose handshake the state has come from is left to the state. -/
theorem acceptMessage_of_known {stores : Stores} {peer : Address} {state : SessionState} {message : PreKeyMessage}
    (trusted : stores.isTrusted peer message.identityKey .receiving) (kept : stores.sessions[peer]? = some (.alone state))
    (version : state.version = message.version.toUInt32) (baseKey : state.baseKey = message.baseKey.serialize) :
    stores.acceptMessage peer message = .ok (.alone state, none) := by
  have has : (SessionRecord.alone state).hasStateFor message.version.toUInt32 message.baseKey := by
    rw [SessionRecord.hasStateFor, List.any_eq_true]
    exact ⟨state, List.mem_singleton_self state, by simp [version, baseKey]⟩
  refine acceptMessage_eq_ok.mpr ⟨trusted, ?_⟩
  rw [recordOrFresh, kept]
  exact .known has

theorem acceptMessage_of_new {stores : Stores} {peer : Address} {message : PreKeyMessage}
    {answer : SessionRecord × Option UInt32} (trusted : stores.isTrusted peer message.identityKey .receiving)
    (none_kept : stores.sessions[peer]? = none) (responded : stores.respond .fresh message = .ok answer) :
    stores.acceptMessage peer message = .ok answer := by
  refine acceptMessage_eq_ok.mpr ⟨trusted, respond_eq_ok.mp ?_⟩
  rw [recordOrFresh, none_kept]
  exact responded

/-- What becomes of the stores when a state has read a message. -/
structure Keeps (stores stores' : Stores) (peer : Address) (state : SessionState) (identity : PublicKey) : Prop where
  kept : stores'.sessions[peer]? = some (.alone state)
  trusting : stores'.Trusting peer identity

variable {stores : Stores} {peer : Address} {state : SessionState} {identity : PublicKey} {message : Message}
  {inner : RatchetMessage} {e : Entropy} {opened : Opened}

/-- What a device sends with the current state of a record, which is one that tracks the climb. -/
theorem encrypt_of_current {record : SessionRecord} {own : PublicKey} {rung : Rung} {place : Nat} {known : List Rung}
    {reads : List (PublicKey × UInt32)} {pending : Option PendingPreKey} (kept : stores.sessions[peer]? = some record)
    (current : record.current = some state) (tracks : state.Tracks own identity rung place known reads)
    (announces : state.pendingPreKey? = .ok pending) (trusting : stores.Trusting peer identity) (plaintext : Bytes) :
    stores.encrypt peer plaintext = .ok
      (state.wrapped own (state.sealed (rung.start.advance place) rung.key own identity plaintext) pending,
        stores.withSession peer identity
          { record with current := some (state.withSendingChainKey (rung.start.advance place).next) }) := by
  have formed := tracks.formed
  refine encrypt_eq_ok.mpr ⟨_, state, _, rung.key, own, identity, pending,
    ⟨kept, current, ?_, trusting.isTrusted .sending⟩, rfl, rfl⟩
  exact ⟨formed.sendingChainKey, formed.ratchetKey, formed.localIdentityKey, formed.remoteIdentityKey?, announces⟩

theorem encrypt_of_tracks {own : PublicKey} {rung : Rung} {place : Nat} {known : List Rung}
    {reads : List (PublicKey × UInt32)} {pending : Option PendingPreKey} (kept : stores.sessions[peer]? = some (.alone state))
    (tracks : state.Tracks own identity rung place known reads) (announces : state.pendingPreKey? = .ok pending)
    (trusting : stores.Trusting peer identity) (plaintext : Bytes) : stores.encrypt peer plaintext = .ok
      (state.wrapped own (state.sealed (rung.start.advance place) rung.key own identity plaintext) pending,
        stores.withSession peer identity (.alone (state.withSendingChainKey (rung.start.advance place).next))) :=
  encrypt_of_current kept rfl tracks announces trusting plaintext

/-! ## What a message is tried on -/

/-- The record that a message is tried on, with the state for its handshake if that is new. -/
inductive Tries (stores : Stores) (peer : Address) : Message → SessionRecord → Prop
  | ratchet {message : RatchetMessage} {record : SessionRecord} (kept : stores.sessions[peer]? = some record) :
    Tries stores peer (.ratchet message) record
  | preKey {message : PreKeyMessage} {record : SessionRecord} {used : Option UInt32}
    (accepted : stores.acceptMessage peer message = .ok (record, used)) : Tries stores peer (.preKey message) record

/-- A message that is tried on no record has no effect. -/
theorem tries_or_refuses (stores : Stores) (peer : Address) (e : Entropy) (carried : message.inner? = some inner) :
    (∃ record, stores.Tries peer message record) ∨ ∃ fault, stores.decrypt peer e message = (.error fault, stores, e) := by
  cases message with
  | ratchet message =>
    cases stored : stores.sessions[peer]? with
    | some record => exact .inl ⟨record, .ratchet stored⟩
    | none =>
      refine .inr ⟨.noSession peer, ?_⟩
      rw [Stores.decrypt, Stores.decryptRatchet, Stores.record, stored]
      rfl
  | preKey message =>
    cases accepted : stores.acceptMessage peer message with
    | ok answer => exact .inl ⟨answer.1, .preKey accepted⟩
    | error fault =>
      refine .inr ⟨fault, ?_⟩
      rw [Stores.decrypt, Stores.decryptPreKey, accepted]
      rfl
  | _ => cases carried

/-- What becomes of the stores when a message has been read: they keep the record that has come of it. -/
structure Became (stores stores' : Stores) (peer : Address) (record : SessionRecord) (identity : PublicKey) : Prop where
  kept : stores'.sessions[peer]? = some record
  trusting : stores'.Trusting peer identity
  own : stores'.identity = stores.identity

theorem became_withSession (trusting : stores.Trusting peer identity) (record : SessionRecord) :
    stores.Became (stores.withSession peer identity record) peer record identity where
  kept := by rw [withSession_sessions, if_pos rfl]
  trusting := by
    refine ⟨trusting.denied, fun other saved => ?_⟩
    rw [withSession_identities, if_pos rfl] at saved
    cases saved
    rfl
  own := rfl

variable {record record' : SessionRecord} {e' : Entropy}

theorem decrypt_of_read (tries : stores.Tries peer message record) (sender : message.From identity)
    (carried : message.inner? = some inner) (trusting : stores.Trusting peer identity)
    (run : record.read peer inner e = (.ok (record', opened), e'))
    (remote : opened.state.remoteIdentityKey = .ok identity) :
    ∃ stores', stores.decrypt peer e message = (.ok opened.plaintext, stores', e') ∧
      stores.Became stores' peer record' identity := by
  have became := became_withSession trusting record'
  cases tries with
  | ratchet kept =>
    cases carried
    have done := decryptRatchet_eq_ok.mpr ⟨_, _, opened, identity, kept, run, remote, trusting.isTrusted .receiving,
      rfl, rfl, rfl⟩
    refine ⟨_, ?_, became⟩
    rw [Stores.decrypt, done]
    rfl
  | preKey accepted =>
    rename_i message used
    cases carried
    cases sender
    obtain ⟨trusted, answers⟩ := acceptMessage_eq_ok.mp accepted
    have done := decryptPreKey_eq_ok.mpr ⟨_, used, _, opened, trusted, answers, run, rfl, rfl, rfl⟩
    refine ⟨stores.afterPreKey peer message record' used, ?_, became.kept, ?_, rfl⟩
    · rw [Stores.decrypt, done]
      rfl
    · exact ⟨became.trusting.denied, became.trusting.saved⟩

/-- What a failure changes of the stores: nothing, but for the identity, which may have been saved. -/
structure Spares (stores stores' : Stores) (peer : Address) (identity : PublicKey) : Prop where
  same : stores' = stores ∨ stores' = { stores with identities := stores.identities.insert peer identity }
  trusting : stores'.Trusting peer identity

theorem Spares.sessions {stores' : Stores} (spares : stores.Spares stores' peer identity) :
    stores'.sessions = stores.sessions := by
  rcases spares.same with rfl | rfl <;> rfl

theorem Spares.respond {stores' : Stores} (spares : stores.Spares stores' peer identity) :
    stores'.respond = stores.respond := by
  rcases spares.same with rfl | rfl <;> rfl

theorem decrypt_of_unread (tries : stores.Tries peer message record) (sender : message.From identity)
    (carried : message.inner? = some inner) (trusting : stores.Trusting peer identity) {fault : Fault}
    (run : record.read peer inner e = (.error fault, e')) :
    ∃ stores', stores.decrypt peer e message = (.error fault, stores', e') ∧ stores.Spares stores' peer identity := by
  cases tries with
  | ratchet kept =>
    cases carried
    refine ⟨stores, ?_, .inl rfl, trusting⟩
    rw [Stores.decrypt, Stores.decryptRatchet, record_eq_ok.mpr kept]
    dsimp only
    rw [run]
    rfl
  | preKey accepted =>
    rename_i message used
    cases carried
    cases sender
    refine ⟨stores.afterHandshake peer message, ?_, .inr rfl, trusting.denied, ?_⟩
    · rw [Stores.decrypt, Stores.decryptPreKey, accepted]
      dsimp only
      rw [run]
      rfl
    · intro other saved
      rw [afterHandshake, Std.ExtTreeMap.getElem?_insert_self] at saved
      cases saved
      rfl

/-! ## A single state -/

theorem Reaches.tries (reaches : stores.Reaches peer state identity message) :
    stores.Tries peer message (.alone state) ∧ message.From identity := by
  cases reaches with
  | ratchet message kept => exact ⟨.ratchet kept, trivial⟩
  | preKey message used from_identity accepted => exact ⟨.preKey accepted, from_identity⟩

theorem keeps_withSession (trusting : stores.Trusting peer identity) (state : SessionState) :
    stores.Keeps (stores.withSession peer identity (.alone state)) peer state identity :=
  let became := became_withSession trusting (.alone state)
  ⟨became.kept, became.trusting⟩

theorem decrypt_of_reads (reaches : stores.Reaches peer state identity message) (carried : message.inner? = some inner)
    (trusting : stores.Trusting peer identity) (run : state.read inner (e.pair 0) = .ok opened)
    (remote : opened.state.remoteIdentityKey = .ok identity) :
    ∃ stores', stores.decrypt peer e message = (.ok opened.plaintext, stores', e.skip (state.draws inner)) ∧
      stores.Keeps stores' peer opened.state identity := by
  have record : (SessionRecord.alone state).read peer inner e =
      (.ok (.alone opened.state, opened), e.skip (state.draws inner)) := by
    rw [SessionRecord.alone_read, run]
    rfl
  obtain ⟨tries, sender⟩ := reaches.tries
  obtain ⟨stores', decrypted, became⟩ := decrypt_of_read tries sender carried trusting record remote
  exact ⟨stores', decrypted, became.kept, became.trusting⟩

theorem decrypt_of_refuses (reaches : stores.Reaches peer state identity message) (carried : message.inner? = some inner)
    (trusting : stores.Trusting peer identity) {fault : Fault} (run : state.read inner (e.pair 0) = .error fault) :
    ∃ stores' n, stores.decrypt peer e message = (.error fault, stores', e.skip n) ∧
      stores.Spares stores' peer identity := by
  have record : (SessionRecord.alone state).read peer inner e = (.error fault, e.skip (state.draws inner)) := by
    rw [SessionRecord.alone_read, run]
    rfl
  obtain ⟨tries, sender⟩ := reaches.tries
  obtain ⟨stores', decrypted, spares⟩ := decrypt_of_unread tries sender carried trusting record
  exact ⟨stores', _, decrypted, spares⟩

end Stores

end DoubleRatchet
