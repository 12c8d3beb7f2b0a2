import DoubleRatchet.Proofs.Session.Handshake
import DoubleRatchet.Proofs.Session.Requests

/-! Handshakes that come again. A record knows the handshakes that it has answered by their version and base key. What is
looked for is the version that the message names, and what is kept is the version of the sessions, whatever the message says;
so only a message of that version is known again. -/
namespace DoubleRatchet

open Session

variable {stores : Stores} {peer : Address} {record record' : SessionRecord} {message : PreKeyMessage} {used : Option UInt32}

/-! ## One answer -/

namespace Stores

/-- The handshake of a message from a trusted identity, answered on a record: what comes of it, and the stores after it. -/
def accept (stores : Stores) (peer : Address) (record : SessionRecord) (message : PreKeyMessage) :
    (SessionRecord × Except Fault (Option UInt32)) × Stores :=
  match (do stores.trusts peer message.identityKey .receiving; stores.respond record message) with
  | .error fault => ((record, .error fault), stores)
  | .ok (record, used) => ((record, .ok used), stores.afterHandshake peer message)

theorem accept_of_answers (trusted : stores.isTrusted peer message.identityKey .receiving)
    (answers : stores.Answers record message record' used) :
    stores.accept peer record message = ((record', .ok used), stores.afterHandshake peer message) := by
  have answered : (do stores.trusts peer message.identityKey .receiving; stores.respond record message) = .ok (record', used) :=
    bind_eq_ok.mpr ⟨(), trusts_eq_ok.mpr trusted, respond_eq_ok.mpr answers⟩
  rw [accept, answered]

theorem accept_eq_ok (accepted : (stores.accept peer record message).1 = (record', .ok used)) :
    stores.isTrusted peer message.identityKey .receiving ∧ stores.Answers record message record' used := by
  unfold accept at accepted
  split at accepted
  · cases accepted
  · rename_i answered
    cases accepted
    obtain ⟨_, trusted, answers⟩ := bind_eq_ok.mp answered
    exact ⟨trusts_eq_ok.mp trusted, respond_eq_ok.mp answers⟩

/-- An identity that has been saved stays trusted. -/
theorem isTrusted_afterHandshake (trusted : stores.isTrusted peer message.identityKey .receiving) :
    (stores.afterHandshake peer message).isTrusted peer message.identityKey .receiving := by
  simp only [isTrusted, Bool.and_eq_true] at trusted ⊢
  exact ⟨by simp [afterHandshake], trusted.2⟩

end Stores

theorem Session.accept_yields (stores : Stores) (e : Entropy) (peer : Address) (record : SessionRecord) (message : PreKeyMessage) :
    OnDevice.Yields (acceptMessage peer record message) (stores, e) (.ok (stores.accept peer record message).1)
      ((stores.accept peer record message).2, e) := by
  have answered : OnDevice.Yields (do requireTrusted peer message.identityKey .receiving; respond peer record message)
      (stores, e) (do stores.trusts peer message.identityKey .receiving; stores.respond record message) (stores, e) :=
    .bind_same (requireTrusted_yields stores peer e _ _) fun _ => respond_yields stores peer e record message
  unfold acceptMessage Stores.accept
  refine .bind (.observe answered) ?_
  cases (do stores.trusts peer message.identityKey .receiving; stores.respond record message) with
  | error fault => exact .pure _ _
  | ok found => exact .bind (.observe (OnDevice.call_yields _ _ _)) (.pure _ _)

/-! ## Answers to the same message -/

namespace SessionRecord

theorem hasStateFor_install (record : SessionRecord) (state : SessionState) (version : UInt32) (baseKey : PublicKey)
    (unknown : record.hasStateFor version baseKey = false) :
    (record.install state).hasStateFor version baseKey = (state.version == version && state.baseKey == baseKey.serialize) := by
  obtain ⟨kept, sublist, states⟩ := record.install_states state
  rw [hasStateFor, List.any_eq_false] at unknown
  rw [hasStateFor, states, List.any_cons, Bool.or_eq_left_iff_imp]
  intro found
  obtain ⟨other, member, matching⟩ := List.any_eq_true.mp found
  exact absurd matching (unknown other (sublist.mem member))

end SessionRecord

/-- The record with the responder's state knows the handshake if the message names the version of the sessions. -/
theorem Stores.hasStateFor_responderState (stores : Stores) (record : SessionRecord) (message : PreKeyMessage)
    (signedPreKey : KeyPair) (oneTimePreKey : Option KeyPair)
    (unknown : record.hasStateFor message.version.toUInt32 message.baseKey = false) :
    (record.install (stores.responderState message signedPreKey oneTimePreKey)).hasStateFor message.version.toUInt32
      message.baseKey = (message.version == Frame.currentVersion) := by
  have version : (stores.responderState message signedPreKey oneTimePreKey).version = Frame.currentVersion.toUInt32 := rfl
  have baseKey : (stores.responderState message signedPreKey oneTimePreKey).baseKey = message.baseKey.serialize := rfl
  rw [SessionRecord.hasStateFor_install _ _ _ _ unknown, version, baseKey, beq_self_eq_true, Bool.and_true, Bool.eq_iff_iff,
    beq_iff_eq, beq_iff_eq]
  constructor
  · intro same
    exact UInt8.toUInt32_inj.mp same.symm
  · intro same
    rw [same]

/-! ## Answers again and again -/

/-- A handshake is answered once, and as many times more as `times` says, each time on the record that has come of the time
before. -/
def Session.acceptAgain (peer : Address) (message : PreKeyMessage) :
    (times : Nat) → SessionRecord → OnDevice (SessionRecord × Except Fault (Option UInt32))
  | 0, record => acceptMessage peer record message
  | times + 1, record => do
    let (record, _) ← acceptMessage peer record message
    acceptAgain peer message times record

/-- The same state is made current as often as `times` says. -/
def SessionRecord.installs (record : SessionRecord) (state : SessionState) : (times : Nat) → SessionRecord
  | 0 => record
  | times + 1 => (record.install state).installs state times

/-- A handshake that is known is answered again without a change. -/
theorem Session.acceptAgain_of_known (stores : Stores) (e : Entropy)
    (trusted : stores.isTrusted peer message.identityKey .receiving)
    (known : record.hasStateFor message.version.toUInt32 message.baseKey) (times : Nat) :
    ∃ after, OnDevice.Yields (acceptAgain peer message times record) (stores, e) (.ok (record, .ok none)) (after, e) := by
  induction times generalizing stores with
  | zero =>
    have once := accept_yields stores e peer record message
    rw [Stores.accept_of_answers trusted (.known known)] at once
    exact ⟨_, once⟩
  | succ times ih =>
    have once := accept_yields stores e peer record message
    rw [Stores.accept_of_answers trusted (.known known)] at once
    obtain ⟨after, again⟩ := ih (stores.afterHandshake peer message) (Stores.isTrusted_afterHandshake trusted)
    exact ⟨after, .bind once again⟩

/-- A handshake of another version than that of the sessions is answered anew each time, by the same state. -/
theorem Session.acceptAgain_of_other_version (stores : Stores) (e : Entropy)
    (trusted : stores.isTrusted peer message.identityKey .receiving)
    (unknown : record.hasStateFor message.version.toUInt32 message.baseKey = false)
    (other : message.version ≠ Frame.currentVersion) {signedPreKey : SignedPreKeyRecord} {oneTimePreKey : Option KeyPair}
    (signed : stores.signedPreKeys[message.signedPreKeyId]? = some signedPreKey)
    (oneTime : stores.oneTimeKey message.preKeyId = .ok oneTimePreKey) (times : Nat) :
    ∃ after, OnDevice.Yields (acceptAgain peer message times record) (stores, e)
      (.ok (record.installs (stores.responderState message signedPreKey.keyPair oneTimePreKey) (times + 1),
        .ok (message.preKeyId.filter (· != noPreKey)))) (after, e) := by
  induction times generalizing stores record with
  | zero =>
    have once := accept_yields stores e peer record message
    rw [Stores.accept_of_answers trusted (.built unknown signedPreKey oneTimePreKey signed oneTime)] at once
    exact ⟨_, once⟩
  | succ times ih =>
    have once := accept_yields stores e peer record message
    rw [Stores.accept_of_answers trusted (.built unknown signedPreKey oneTimePreKey signed oneTime)] at once
    have still := stores.hasStateFor_responderState record message signedPreKey.keyPair oneTimePreKey unknown
    rw [beq_false_of_ne other] at still
    obtain ⟨after, again⟩ := ih (stores.afterHandshake peer message) (Stores.isTrusted_afterHandshake trusted) still signed oneTime
    exact ⟨after, .bind once again⟩

/-- The handshake of a message has been accepted on a record, and is answered again on the record that has come of it, any
number of times. If the message names the version of the sessions, or its handshake was known before, each of these answers
leaves the record as it is and uses no key. If not, each of them makes the same state current once more, archives the one
before, and reports the same one-time key as used. -/
theorem repeated_handshake_known_by_version (peer : Address) (device : Device) (record record' : SessionRecord)
    (message : PreKeyMessage) (used : Option UInt32)
    (accepted : ((Session.acceptMessage peer record message : OnDevice (SessionRecord × Except Fault (Option UInt32))) device).1 =
      .ok (record', .ok used)) :
    if message.version = 3 ∨ record.hasStateFor message.version.toUInt32 message.baseKey then
      ∀ times, (Session.acceptAgain peer message (times + 1) record device).1 = .ok (record', .ok none)
    else
      ∃ state, record'.current = some state ∧
        ∀ times, (Session.acceptAgain peer message times record device).1 = .ok (record.installs state (times + 1), .ok used) := by
  rcases run : (Session.acceptMessage peer record message : OnDevice (SessionRecord × Except Fault (Option UInt32))) device
    with ⟨result, device'⟩
  have once := Session.accept_yields device.stores device.ambient.entropy peer record message
  obtain ⟨result_eq, -⟩ := Yields.of_run once run
  rw [run] at accepted
  have answered : (device.stores.accept peer record message).1 = (record', .ok used) := by
    rw [show result = .ok (record', .ok used) from accepted] at result_eq
    exact (Except.ok.inj result_eq).symm
  obtain ⟨trusted, answers⟩ := Stores.accept_eq_ok answered
  rw [Stores.accept_of_answers trusted answers] at once
  have result_of {times : Nat} {found : Except Fault (SessionRecord × Except Fault (Option UInt32))}
      (yields : ∃ after, OnDevice.Yields (Session.acceptAgain peer message times record)
        (device.stores, device.ambient.entropy) found (after, device.ambient.entropy)) :
      (Session.acceptAgain peer message times record device).1 = found := by
    obtain ⟨after, yields⟩ := yields
    exact (Yields.of_run yields rfl).1
  -- Once the record knows the handshake, the first answer is followed by answers that change nothing.
  have known_again (known : record'.hasStateFor message.version.toUInt32 message.baseKey) (times : Nat) :
      (Session.acceptAgain peer message (times + 1) record device).1 = .ok (record', .ok none) := by
    obtain ⟨after, again⟩ := Session.acceptAgain_of_known (device.stores.afterHandshake peer message) device.ambient.entropy
      (Stores.isTrusted_afterHandshake trusted) known times
    exact result_of ⟨after, .bind once again⟩
  cases answers with
  | known has =>
    rw [if_pos (.inr has)]
    exact known_again has
  | built unknown signedPreKey oneTimePreKey signed oneTime =>
    have after := device.stores.hasStateFor_responderState record message signedPreKey.keyPair oneTimePreKey unknown
    by_cases current : message.version = 3
    · rw [if_pos (.inl current)]
      exact known_again (after.trans (beq_iff_eq.mpr current))
    · rw [if_neg (by simp [current, unknown])]
      refine ⟨_, rfl, fun times => result_of ?_⟩
      exact Session.acceptAgain_of_other_version device.stores device.ambient.entropy trusted unknown current signed oneTime times

/-- A message that opens a session, in the given version. -/
def Sample.hello (version : UInt8) : PreKeyMessage :=
  .create version 1 none 1 Sample.identity.publicKey Sample.identity.publicKey Sample.outdated

/-- Answered twice on a fresh record, a message of the version of the sessions leaves one state, and one of the version before
leaves the same state twice. -/
theorem repeated_handshake_known_by_version_only :
    (∃ state, (Session.acceptAgain Sample.initiator (Sample.hello 3) 1 .fresh Sample.responding).1 =
      .ok (⟨some state, []⟩, .ok none)) ∧
    ∃ state, (Session.acceptAgain Sample.initiator (Sample.hello 2) 1 .fresh Sample.responding).1 =
      .ok (⟨some state, [state]⟩, .ok none) := by
  have trusted (version : UInt8) :
      Sample.responding.stores.isTrusted Sample.initiator (Sample.hello version).identityKey .receiving := by
    simp [Stores.isTrusted, Sample.responding]
  have signed (version : UInt8) : Sample.responding.stores.signedPreKeys[(Sample.hello version).signedPreKeyId]? =
      some ⟨1, 0, Sample.signedPreKey, Sample.signature⟩ := by
    simp [Sample.responding, Sample.hello, PreKeyMessage.create]
  have accepted (version : UInt8) := Session.accept_yields Sample.responding.stores Sample.responding.ambient.entropy
    Sample.initiator .fresh (Sample.hello version)
  have answers (version : UInt8) := Stores.Answers.built
    (rfl : SessionRecord.fresh.hasStateFor (Sample.hello version).version.toUInt32 (Sample.hello version).baseKey = false)
    _ none (signed version) rfl
  have answered (version : UInt8) := Stores.accept_of_answers (trusted version) (answers version)
  constructor
  · have once := accepted 3
    rw [answered] at once
    have again := repeated_handshake_known_by_version Sample.initiator Sample.responding .fresh _ (Sample.hello 3) none
      (Yields.of_run once rfl).1
    rw [if_pos (.inl rfl)] at again
    exact ⟨_, again 0⟩
  · have once := accepted 2
    rw [answered] at once
    have again := repeated_handshake_known_by_version Sample.initiator Sample.responding .fresh _ (Sample.hello 2) none
      (Yields.of_run once rfl).1
    rw [if_neg (by simp [Sample.hello, PreKeyMessage.create, SessionRecord.hasStateFor, SessionRecord.states, SessionRecord.fresh])]
      at again
    obtain ⟨state, -, repeated⟩ := again
    exact ⟨state, repeated 1⟩

end DoubleRatchet
