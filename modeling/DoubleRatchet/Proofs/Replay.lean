import DoubleRatchet.Proofs.Conversation.Opening
import DoubleRatchet.Proofs.Session.Turns

/-! Messages that open sessions, once more. A state that has read a message refuses it from then on. The message in a
message that opens a session can be wrapped again; whether the new wrapping is taken for the same handshake rests on
fields that nothing authenticates. -/
namespace DoubleRatchet

/-! ## Stores in order -/

/-- All states kept for a peer are in order. -/
def Stores.Orderly (stores : Stores) (peer : Address) : Prop :=
  ∀ record, stores.sessions[peer]? = some record → ∀ state ∈ record.states, state.Orderly

theorem SessionState.orderly_enduring : Enduring Orderly where
  initiator stores bundle signedPreKey base ratchet chain member := by
    cases List.mem_singleton.mp member
    exact Chain.receiving_orderly _ _
  responder stores message signedPreKey oneTimePreKey chain member := nomatch member
  sends orderly _ := orderly
  reads orderly bounded opens := read_orderly orderly bounded opens

/-- Whatever is asked of a device, its states stay in order. -/
theorem Device.serveAll_orderly {device : Device} {requests : List Request} {peer : Address}
    (orderly : device.stores.Orderly peer)
    (bounded : ∀ request ∈ requests, ∀ counter, request.counter? = some counter → counter ≠ 0xffffffff) :
    (device.serveAll requests).2.stores.Orderly peer := by
  refine SessionState.orderly_enduring.all.serveAll orderly (device.serveAll_unexhausted ?_)
  intro request asked last
  exact bounded request asked _ last rfl

/-! ## The same message again -/

/-- The stores after a message that opens a session has been read: its identity is the peer's, and the current state
refuses the message inside it. -/
structure Stores.AfterReading (stores : Stores) (peer : Address) (identity : PublicKey) (record : SessionRecord)
    (message : RatchetMessage) : Prop where
  saved : stores.identities[peer]? = some identity
  stored : stores.sessions[peer]? = some record
  allowed : stores.denied.contains .receiving = false
  refuses : ∃ state, record.current = some state ∧ ∀ fresh, ∃ index,
    state.read message fresh = .error (.duplicate index message.counter)

theorem Stores.Orderly.afterReading {stores stores' : Stores} {peer : Address} {message : PreKeyMessage} {e e' : Entropy}
    {plaintext : Bytes} {keys : MessageKeys} (orderly : stores.Orderly peer) (bounded : message.message.counter ≠ 0xffffffff)
    (run : stores.decryptPreKey peer message e = (.ok (plaintext, keys), stores', e')) :
    ∃ record, stores'.AfterReading peer message.identityKey record message.message := by
  obtain ⟨accepted, used, record, opened, trusted, answers, read, _, _, rfl⟩ := Stores.decryptPreKey_eq_ok.mp run
  obtain ⟨n, state, reads, _, replaces⟩ := SessionRecord.read_eq_ok read
  refine ⟨record, stores.afterPreKey_identities .., stores.afterPreKey_sessions .., ?_, opened.state, replaces.current_eq, ?_⟩
  · have allowed := (Bool.and_eq_true_iff.mp trusted).2
    rw [Bool.not_eq_true'] at allowed
    exact allowed
  · have all : (stores.recordOrFresh peer).All SessionState.Orderly := Stores.Holds.recordOrFresh orderly
    have accepted := answers.all all (SessionState.orderly_enduring.responder stores message)
    exact SessionState.read_again (accepted state replaces.member) bounded reads

namespace Stores.AfterReading

variable {stores : Stores} {peer : Address} {identity : PublicKey} {record : SessionRecord} {message : RatchetMessage}
  {again : PreKeyMessage}

theorem isTrusted_iff (after : stores.AfterReading peer identity record message) (other : PublicKey) :
    stores.isTrusted peer other .receiving ↔ other = identity := by
  rw [Stores.isTrusted, after.saved, after.allowed]
  simp only [Option.all_some, Bool.not_false, Bool.and_true, beq_iff_eq]
  exact eq_comm

theorem read_refused (after : stores.AfterReading peer identity record message) (peer : Address) (e : Entropy) :
    ∃ fault, (record.read peer message e).1 = .error fault := by
  obtain ⟨state, current, refuses⟩ := after.refuses
  obtain ⟨index, refused⟩ := refuses (e.pair 0)
  refine ⟨.duplicate index message.counter, ?_⟩
  simp only [SessionRecord.read, current, refused]

theorem reads_again_iff (after : stores.AfterReading peer identity record message) (same : again.message = message)
    (e : Entropy) : (∃ result, (stores.decryptPreKey peer again e).1 = .ok result) ↔
      again.identityKey = identity ∧ record.hasStateFor again.version.toUInt32 again.baseKey = false ∧
      ∃ signedPreKey oneTimePreKey, stores.signedPreKeys[again.signedPreKeyId]? = some signedPreKey ∧
        stores.oneTimeKey again.preKeyId = .ok oneTimePreKey ∧
        ((stores.responderState again signedPreKey.keyPair oneTimePreKey).Reads message ∨
          ∃ state ∈ record.archive.archived, state.Reads message) := by
  subst same
  constructor
  · rintro ⟨⟨plaintext, keys⟩, run⟩
    obtain ⟨accepted, used, record', opened, trusted, answers, read, _⟩ :=
      Stores.decryptPreKey_eq_ok.mp (Prod.ext run rfl : stores.decryptPreKey peer again e = (.ok (plaintext, keys), _, _))
    rw [Stores.recordOrFresh_eq after.stored] at answers
    refine ⟨(after.isTrusted_iff _).mp trusted, ?_⟩
    cases answers with
    | known _ =>
      -- The record is the one that has read the message.
      obtain ⟨fault, refused⟩ := after.read_refused peer e
      rw [read] at refused
      cases refused
    | built unknown signedPreKey oneTimePreKey signed oneTime =>
      refine ⟨unknown, signedPreKey, oneTimePreKey, signed, oneTime, ?_⟩
      exact (stores.read_built_iff record again _ _ peer again.message e).mp ⟨_, congrArg Prod.fst read⟩
  · rintro ⟨claims, unknown, signedPreKey, oneTimePreKey, signed, oneTime, reads⟩
    obtain ⟨⟨record', opened⟩, read⟩ := (stores.read_built_iff record again _ _ peer again.message e).mpr reads
    have trusted := (after.isTrusted_iff again.identityKey).mpr claims
    have answers : stores.Answers (stores.recordOrFresh peer) again
        (record.install (stores.responderState again signedPreKey.keyPair oneTimePreKey))
        (again.preKeyId.filter (· != noPreKey)) := by
      rw [Stores.recordOrFresh_eq after.stored]
      exact .built unknown signedPreKey oneTimePreKey signed oneTime
    exact ⟨_, congrArg Prod.fst (Stores.decryptPreKey_eq_ok.mpr
      ⟨_, _, record', opened, trusted, answers, Prod.ext read rfl, rfl, rfl, rfl⟩)⟩

end Stores.AfterReading

/-- Once a message that opens a session has been read, after whatever else was asked of a device whose states were in
order, whoever wraps the message inside it again has it read again exactly if the new wrapping claims the same identity,
passes for a handshake that is not known, names keys that the responder still has, and leads to a state that reads the
message, or some older archived state does. -/
theorem replay_iff (device device' : Device) (requests : List Request) (peer : Address) (message again : PreKeyMessage)
    (plaintext : Bytes) (keys : MessageKeys) (orderly : device.stores.Orderly peer)
    (numbered : ∀ request ∈ requests, ∀ counter, request.counter? = some counter → counter ≠ 0xffffffff)
    (bounded : message.message.counter ≠ 0xffffffff)
    (first : (Session.decryptPreKey peer message : OnDevice (Bytes × MessageKeys)) (device.serveAll requests).2 =
      (.ok (plaintext, keys), device'))
    (same : again.message = message.message) :
    ∃ record, device'.stores.sessions[peer]? = some record ∧
      ((∃ result device'', (Session.decryptPreKey peer again : OnDevice (Bytes × MessageKeys)) device' =
          (.ok result, device'')) ↔
        again.identityKey = message.identityKey ∧
        record.hasStateFor again.version.toUInt32 again.baseKey = false ∧
        ∃ signedPreKey oneTimePreKey, device'.stores.signedPreKeys[again.signedPreKeyId]? = some signedPreKey ∧
          device'.stores.oneTimeKey again.preKeyId = .ok oneTimePreKey ∧
          ((device'.stores.responderState again signedPreKey.keyPair oneTimePreKey).Reads message.message ∨
            ∃ state ∈ record.archive.archived, state.Reads message.message)) := by
  obtain ⟨record, after⟩ :=
    (device.serveAll_orderly orderly numbered).afterReading bounded (Session.decryptPreKey_run first)
  refine ⟨record, after.stored, Iff.trans ?_ (after.reads_again_iff same device'.ambient.entropy)⟩
  constructor
  · rintro ⟨result, device'', run⟩
    exact ⟨result, congrArg Prod.fst (Session.decryptPreKey_run run)⟩
  · rintro ⟨result, run⟩
    have yields := Session.decryptPreKey_yields device'.stores peer device'.ambient.entropy again
    rw [run] at yields
    obtain ⟨device'', replayed, _⟩ := yields device' rfl
    exact ⟨result, device'', replayed⟩

namespace Meeting

def opening (m : Meeting) (baseKey : PublicKey) (plaintext : Bytes) : PreKeyMessage :=
  .create 3 0 m.offer.preKeyId m.offer.signedPreKeyId baseKey (m.stores .initiator).identity.publicKey
    (m.firstMessage plaintext)

theorem opening_message (m : Meeting) (baseKey : PublicKey) (plaintext : Bytes) :
    (m.opening baseKey plaintext).message = m.firstMessage plaintext := rfl

variable {m : Meeting} {c : Conversation} {limit : Side → Nat} {plaintext : Bytes}

theorem Opens.reads_opening (opens : m.Opens) (keyed : m.Keyed c)
    (final : ∀ side, (c.ends side).entropy = (m.entropy side).skip (limit side)) (began : 2 ≤ limit .initiator) :
    ∃ state plaintext' keys device used,
      (Session.decryptPreKey (m.peer .responder) (m.opening m.baseKey.publicKey plaintext) :
        OnDevice (Bytes × MessageKeys)) m.responder = (.ok (plaintext', keys), device) ∧
      device.stores = (m.stores .responder).afterPreKey (m.peer .responder) (m.opening m.baseKey.publicKey plaintext)
        (.alone state) used ∧ state.baseKey = m.baseKey.publicKey.serialize := by
  obtain ⟨opened, run⟩ := keyed.reads_first final opens began (m.stores .responder) rfl
    (m.opening m.baseKey.publicKey plaintext) rfl (fun _ => rfl) plaintext ((m.entropy .responder).pair 0)
  have answers : (m.stores .responder).Answers ((m.stores .responder).recordOrFresh (m.peer .responder))
      (m.opening m.baseKey.publicKey plaintext)
      (.alone (m.responderState (m.stores .responder) (m.opening m.baseKey.publicKey plaintext)))
      (m.offer.preKeyId.filter (· != noPreKey)) := by
    rw [opens.recordOrFresh]
    exact .built rfl m.signedPreKey _ opens.signedPreKey_held opens.oneTimeKey
  have record := SessionRecord.alone_read (m.responderState (m.stores .responder) (m.opening m.baseKey.publicKey plaintext))
    (m.peer .responder) (m.firstMessage plaintext) (m.entropy .responder)
  rw [run] at record
  have decrypted := Stores.decryptPreKey_eq_ok.mpr ⟨_, _, _, opened, (opens.trusting .responder _ _).isTrusted .receiving,
    answers, record, rfl, rfl, rfl⟩
  have yields := Session.decryptPreKey_yields (m.stores .responder) (m.peer .responder) (m.entropy .responder)
    (m.opening m.baseKey.publicKey plaintext)
  rw [decrypted] at yields
  obtain ⟨device, first, contents⟩ := yields m.responder rfl
  exact ⟨opened.state, _, _, device, _, first, congrArg Prod.fst contents,
    (SessionState.read_sameSession run).baseKey⟩

/-- With the base key in other bytes the first message is read again, unless a one-time key has been used up. -/
theorem Opens.reads_opening_again (opens : m.Opens) (keyed : m.Keyed c)
    (final : ∀ side, (c.ends side).entropy = (m.entropy side).skip (limit side)) (began : 2 ≤ limit .initiator)
    (none_used : m.oneTimePreKey = none) {stores : Stores} {state : SessionState} {used : Option UInt32}
    (after : stores = (m.stores .responder).afterPreKey (m.peer .responder) (m.opening m.baseKey.publicKey plaintext)
      (.alone state) used) (baseKey : state.baseKey = m.baseKey.publicKey.serialize) {other : PublicKey}
    (differs : other ≠ m.baseKey.publicKey)
    (same : ∀ key : PrivateKey, key.agree other = key.agree m.baseKey.publicKey) :
    let first := m.opening m.baseKey.publicKey plaintext
    let again := m.opening other plaintext
    again.identityKey = first.identityKey ∧ (SessionRecord.alone state).hasStateFor again.version.toUInt32 again.baseKey = false ∧
      ∃ signedPreKey oneTimePreKey, stores.signedPreKeys[again.signedPreKeyId]? = some signedPreKey ∧
        stores.oneTimeKey again.preKeyId = .ok oneTimePreKey ∧
        ((stores.responderState again signedPreKey.keyPair oneTimePreKey).Reads first.message ∨
          ∃ archived ∈ (SessionRecord.alone state).archive.archived, archived.Reads first.message) := by
  have identity : stores.identity = (m.stores .responder).identity := by
    rw [after]
    rfl
  obtain ⟨opened, run⟩ := keyed.reads_first final opens began stores identity (m.opening other plaintext) rfl same plaintext
    ((m.entropy .responder).pair 0)
  rw [Meeting.responderState] at run
  refine ⟨rfl, ?_, m.signedPreKey, m.oneTimePreKey.map (·.2.keyPair), ?_, ?_, .inl ?_⟩
  · rw [SessionRecord.hasStateFor, List.any_eq_false]
    intro member listed
    cases List.mem_singleton.mp listed
    intro both
    have bytes := (Bool.and_eq_true_iff.mp both).2
    rw [baseKey, beq_iff_eq] at bytes
    exact differs (PublicKey.serialize_injective bytes).symm
  · rw [after]
    exact opens.signedPreKey_held
  · have offered : (m.opening other plaintext).preKeyId = none := by
      change m.bundle.preKey.map (·.1) = none
      rw [opens.oneTimePreKey, none_used]
      rfl
    rw [offered, none_used]
    rfl
  · exact ⟨_, opened, run⟩

end Meeting

/-- The key with the bit the other way that agreement does not look at. -/
def PublicKey.twin (key : PublicKey) : PublicKey :=
  ⟨key.raw.bytes.modify 31 (· ^^^ 0x80), by rw [List.length_modify, key.raw.length_bytes]⟩

/-- The responder reads the first message of the initiator twice, the second time with the twin of its base key. -/
theorem replay_iff_twin : ∃ first second device device',
    (Session.decryptPreKey (Sample.meeting.peer .responder) (Sample.meeting.opening Sample.meeting.baseKey.publicKey [1, 2, 3]) :
      OnDevice (Bytes × MessageKeys)) Sample.meeting.responder = (.ok first, device) ∧
    (Session.decryptPreKey (Sample.meeting.peer .responder)
      (Sample.meeting.opening Sample.meeting.baseKey.publicKey.twin [1, 2, 3]) :
      OnDevice (Bytes × MessageKeys)) device = (.ok second, device') := by
  have opens := Sample.meeting_opens
  have keyed := Sample.meeting_keyed opens.start_entropy
  have differs : Sample.meeting.baseKey.publicKey.twin ≠ Sample.meeting.baseKey.publicKey := by
    decide +kernel
  have point : Curve.Coordinate.ofBytes Sample.meeting.baseKey.publicKey.twin.raw.bytes =
      Curve.Coordinate.ofBytes Sample.meeting.baseKey.publicKey.raw.bytes := by
    decide +kernel
  have same : ∀ key : PrivateKey, key.agree Sample.meeting.baseKey.publicKey.twin =
      key.agree Sample.meeting.baseKey.publicKey := by
    intro key
    rw [PrivateKey.agree, point, PrivateKey.agree]
  obtain ⟨state, plaintext, keys, device, used, first, after, baseKey⟩ := opens.reads_opening keyed opens.start_entropy
    (Nat.le_refl 2)
  have accepted := opens.reads_opening_again keyed opens.start_entropy (Nat.le_refl 2) rfl after baseKey differs same
  have orderly : Sample.meeting.responder.stores.Orderly (Sample.meeting.peer .responder) := by
    intro record stored
    have sessions : Sample.meeting.responder.stores.sessions = ∅ := opens.sessions .responder
    rw [sessions] at stored
    cases stored
  have bounded : (Sample.meeting.opening Sample.meeting.baseKey.publicKey [1, 2, 3]).message.counter ≠ 0xffffffff := by
    decide +kernel
  obtain ⟨record, stored, replays⟩ := replay_iff Sample.meeting.responder device [] (Sample.meeting.peer .responder) _
    (Sample.meeting.opening Sample.meeting.baseKey.publicKey.twin [1, 2, 3]) plaintext keys orderly nofun bounded first
    ((Sample.meeting.opening_message _ _).trans (Sample.meeting.opening_message _ _).symm)
  have alone : record = .alone state := by
    rw [after, Stores.afterPreKey_sessions] at stored
    exact (Option.some.inj stored).symm
  subst alone
  obtain ⟨second, device', again⟩ := replays.mpr accepted
  exact ⟨_, second, device, device', first, again⟩

end DoubleRatchet
