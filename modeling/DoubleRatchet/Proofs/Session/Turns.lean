import DoubleRatchet.Proofs.Session.Requests

/-! What requests do to the records of sessions. One that is answered turns the record of its peer into another, in one
of four ways; one that is refused leaves all records alone. So a property that the four ways keep holds of every record
a device stores, whatever is asked of it. -/
namespace DoubleRatchet

namespace Stores

/-- How an answered request turns the record of its peer into another. -/
inductive Turns (stores : Stores) (record : SessionRecord) : Request → SessionRecord → Prop
  | begins (peer : Address) (bundle : PreKeyBundle) (signedPreKey : PublicKey) (base ratchet : KeyPair) :
    Turns stores record (.acceptBundle peer bundle)
      (record.install (stores.initiatorState bundle signedPreKey base ratchet))
  | sends (peer : Address) (plaintext : Bytes) {state : SessionState} {chain : ChainKey}
    (current : record.current = some state) (placed : state.sendingChainKey = .ok chain) :
    Turns stores record (.encrypt peer plaintext) { record with current := some (state.withSendingChainKey chain.next) }
  | reads (peer : Address) (message : RatchetMessage) {state : SessionState} {fresh : KeyPair} {opened : Opened}
    {record' : SessionRecord} (opens : state.read message fresh = .ok opened)
    (replaces : record.Replaces state opened.state record') : Turns stores record (.decryptRatchet peer message) record'
  | answers (peer : Address) (message : PreKeyMessage) {accepted : SessionRecord} {used : Option UInt32}
    {state : SessionState} {fresh : KeyPair} {opened : Opened} {record' : SessionRecord}
    (answers : stores.Answers record message accepted used) (opens : state.read message.message fresh = .ok opened)
    (replaces : accepted.Replaces state opened.state record') : Turns stores record (.decryptPreKey peer message) record'

variable {stores : Stores} {e : Entropy} {request : Request}

theorem serve_ok {reply : Reply} (run : (stores.serve e request).1 = .ok reply) :
    ∃ record, stores.Turns (stores.recordOrFresh request.peer) request record ∧
      (stores.serve e request).2.1.sessions = stores.sessions.insert request.peer record := by
  cases request with
  | acceptBundle peer bundle =>
    cases made : stores.acceptBundle peer bundle (e.pair 0) (e.pair 1) with
    | error fault =>
      simp only [serve, made] at run
      cases run
    | ok stores' =>
      simp only [serve, made]
      obtain ⟨_, signedPreKey, _, rfl⟩ := acceptBundle_eq_ok.mp made
      exact ⟨_, .begins peer bundle signedPreKey _ _, rfl⟩
  | encrypt peer plaintext =>
    cases made : stores.encrypt peer plaintext with
    | error fault =>
      simp only [serve, made] at run
      cases run
    | ok sent =>
      simp only [serve, made]
      obtain ⟨record, state, chain, _, _, _, _, sends, _, after⟩ := encrypt_eq_ok.mp made
      refine ⟨{ record with current := some (state.withSendingChainKey chain.next) }, ?_, by rw [after]; rfl⟩
      rw [Request.peer, recordOrFresh_eq sends.loaded]
      exact .sends peer plaintext sends.current sends.makes.place
  | decryptRatchet peer message =>
    rcases made : stores.decryptRatchet peer message e with ⟨_ | ⟨plaintext, keys⟩, stores', e'⟩
    · simp only [serve, made] at run
      cases run
    · simp only [serve, made]
      obtain ⟨record, record', opened, _, loaded, read, _, _, _, _, rfl⟩ := decryptRatchet_eq_ok.mp made
      obtain ⟨_, state, opens, _, replaces⟩ := SessionRecord.read_eq_ok read
      refine ⟨record', ?_, rfl⟩
      rw [Request.peer, recordOrFresh_eq loaded]
      exact .reads peer message opens replaces
  | decryptPreKey peer message =>
    rcases made : stores.decryptPreKey peer message e with ⟨_ | ⟨plaintext, keys⟩, stores', e'⟩
    · simp only [serve, made] at run
      cases run
    · simp only [serve, made]
      obtain ⟨accepted, used, record, opened, _, answers, read, _, _, rfl⟩ := decryptPreKey_eq_ok.mp made
      obtain ⟨_, state, opens, _, replaces⟩ := SessionRecord.read_eq_ok read
      exact ⟨record, .answers peer message answers opens replaces, rfl⟩

theorem serve_error {fault : Fault} (run : (stores.serve e request).1 = .error fault) :
    (stores.serve e request).2.1.sessions = stores.sessions := by
  cases request with
  | acceptBundle peer bundle =>
    simp only [serve] at run ⊢
    split at run
    · cases run
    · rfl
  | encrypt peer plaintext =>
    simp only [serve] at run ⊢
    split at run
    · cases run
    · rfl
  | decryptRatchet peer message =>
    rcases made : stores.decryptRatchet peer message e with ⟨_ | _, stores', e'⟩
    · simp only [serve, made]
      rw [decryptRatchet_error made]
    · simp only [serve, made] at run
      cases run
  | decryptPreKey peer message =>
    rcases made : stores.decryptPreKey peer message e with ⟨_ | _, stores', e'⟩
    · simp only [serve, made]
      rcases decryptPreKey_error made with ⟨_, rfl⟩ | ⟨_, rfl⟩
      · rfl
      · rfl
    · simp only [serve, made] at run
      cases run

/-- A request leaves what is stored for other peers. -/
theorem serve_sessions_other (stores : Stores) (e : Entropy) {other : Address} (apart : request.peer ≠ other) :
    (stores.serve e request).2.1.sessions[other]? = stores.sessions[other]? := by
  cases run : (stores.serve e request).1 with
  | error fault => rw [serve_error run]
  | ok reply =>
    obtain ⟨record, -, sessions⟩ := serve_ok run
    rw [sessions, Std.ExtTreeMap.getElem?_insert, if_neg (mt Std.LawfulEqCmp.compare_eq_iff_eq.mp apart)]

/-- What a request leaves of the stores: all that there was, or a record and an identity of its peer, and perhaps one
key less, or no more than the identity that a handshake has saved. -/
inductive Leaves (stores : Stores) : Request → Stores → Prop
  | all (request : Request) : Leaves stores request stores
  | session {request : Request} {identity : PublicKey} {direction : Direction} (record : SessionRecord)
    (trusted : stores.isTrusted request.peer identity direction) :
    Leaves stores request (stores.withSession request.peer identity record)
  | opening {peer : Address} {message : PreKeyMessage} {accepted : SessionRecord} {used : Option UInt32}
    (record : SessionRecord) (trusted : stores.isTrusted peer message.identityKey .receiving)
    (answers : stores.Answers (stores.recordOrFresh peer) message accepted used) :
    Leaves stores (.decryptPreKey peer message) (stores.afterPreKey peer message record used)
  | handshake {peer : Address} {message : PreKeyMessage} (trusted : stores.isTrusted peer message.identityKey .receiving) :
    Leaves stores (.decryptPreKey peer message) (stores.afterHandshake peer message)

theorem serve_leaves (stores : Stores) (e : Entropy) (request : Request) :
    stores.Leaves request (stores.serve e request).2.1 := by
  cases request with
  | acceptBundle peer bundle =>
    cases made : stores.acceptBundle peer bundle (e.pair 0) (e.pair 1) with
    | error fault =>
      simp only [serve, made]
      exact .all _
    | ok after =>
      simp only [serve, made]
      obtain ⟨trusted, _, _, rfl⟩ := acceptBundle_eq_ok.mp made
      exact .session _ trusted
  | encrypt peer plaintext =>
    cases made : stores.encrypt peer plaintext with
    | error fault =>
      simp only [serve, made]
      exact .all _
    | ok sent =>
      obtain ⟨message, after⟩ := sent
      simp only [serve, made]
      obtain ⟨_, _, _, _, _, _, _, sends, _, rfl⟩ := encrypt_eq_ok.mp made
      exact .session _ sends.trusted
  | decryptRatchet peer message =>
    rcases made : stores.decryptRatchet peer message e with ⟨_ | ⟨plaintext, keys⟩, after, e'⟩
    · simp only [serve, made]
      rw [decryptRatchet_error made]
      exact .all _
    · simp only [serve, made]
      obtain ⟨_, _, _, _, _, _, _, trusted, _, _, rfl⟩ := decryptRatchet_eq_ok.mp made
      exact .session _ trusted
  | decryptPreKey peer message =>
    rcases made : stores.decryptPreKey peer message e with ⟨_ | ⟨plaintext, keys⟩, after, e'⟩
    · simp only [serve, made]
      rcases decryptPreKey_error made with ⟨_, rfl⟩ | ⟨⟨_, _, accept, _⟩, rfl⟩
      · exact .all _
      · exact .handshake (acceptMessage_eq_ok.mp accept).1
    · simp only [serve, made]
      obtain ⟨_, _, _, _, trusted, answers, _, _, _, rfl⟩ := decryptPreKey_eq_ok.mp made
      exact .opening _ trusted answers

theorem Leaves.denied {after : Stores} (leaves : stores.Leaves request after) : after.denied = stores.denied := by
  cases leaves <;> rfl

theorem Leaves.registrationId {after : Stores} (leaves : stores.Leaves request after) :
    after.registrationId = stores.registrationId := by
  cases leaves <;> rfl

end Stores

/-! ## What endures -/

/-- No message with the last number of all has been read: no chain has come to its end. -/
def Unexhausted (history : List (Request × Except Fault Reply)) : Prop :=
  ∀ served ∈ history, served.2.isOk → served.1.counter? ≠ some 0xffffffff

theorem Device.serveAll_unexhausted {requests : List Request}
    (bounded : ∀ request ∈ requests, request.counter? ≠ some 0xffffffff) (device : Device) :
    Unexhausted (device.serveAll requests).1 := by
  intro served member _
  apply bounded
  rw [← device.serveAll_requests requests]
  exact List.mem_map_of_mem member

/-- A property of records that every answered request keeps, also on the record it begins with. -/
structure SessionRecord.Enduring (Q : SessionRecord → Prop) : Prop where
  turned {stores : Stores} {record record' : SessionRecord} {request : Request} (before : record = .fresh ∨ Q record)
    (turns : stores.Turns record request record') (bounded : request.counter? ≠ some 0xffffffff) : Q record'

/-- The record of a peer, if there is one, has a property. -/
def Stores.Holds (stores : Stores) (peer : Address) (Q : SessionRecord → Prop) : Prop :=
  ∀ record, stores.sessions[peer]? = some record → Q record

namespace Stores.Holds

variable {stores stores' : Stores} {peer other : Address} {record : SessionRecord} {Q : SessionRecord → Prop}

theorem insert (holds : stores.Holds peer Q) (sessions : stores'.sessions = stores.sessions.insert other record)
    (new : other = peer → Q record) : stores'.Holds peer Q := by
  intro found stored
  rw [sessions, Std.ExtTreeMap.getElem?_insert] at stored
  split at stored
  · rename_i same
    cases stored
    exact new (Std.LawfulEqCmp.compare_eq_iff_eq.mp same)
  · exact holds found stored

theorem of_sessions (holds : stores.Holds peer Q) (sessions : stores'.sessions = stores.sessions) : stores'.Holds peer Q := by
  intro found stored
  rw [sessions] at stored
  exact holds found stored

end Stores.Holds

namespace SessionRecord.Enduring

variable {Q : SessionRecord → Prop} (enduring : Enduring Q) {peer : Address}

include enduring

theorem serve {stores : Stores} (holds : stores.Holds peer Q) (e : Entropy) (request : Request)
    (bounded : (stores.serve e request).1.isOk → request.counter? ≠ some 0xffffffff) :
    (stores.serve e request).2.1.Holds peer Q := by
  cases run : (stores.serve e request).1 with
  | error fault => exact holds.of_sessions (Stores.serve_error run)
  | ok reply =>
    rw [run] at bounded
    obtain ⟨record, turns, sessions⟩ := Stores.serve_ok run
    refine holds.insert sessions ?_
    rintro rfl
    refine enduring.turned ?_ turns (bounded rfl)
    rw [Stores.recordOrFresh]
    cases before : stores.sessions[request.peer]? with
    | none => exact .inl rfl
    | some old => exact .inr (holds old before)

theorem serveAll {device : Device} {requests : List Request} (holds : device.stores.Holds peer Q)
    (unexhausted : Unexhausted (device.serveAll requests).1) : (device.serveAll requests).2.stores.Holds peer Q := by
  induction requests generalizing device with
  | nil => exact holds
  | cons request rest ih =>
    have ⟨answer, contents⟩ := device.serve_eq request
    refine ih ?_ fun served member => unexhausted served (List.mem_cons_of_mem _ member)
    have served := enduring.serve holds device.ambient.entropy request
      (answer ▸ unexhausted _ List.mem_cons_self)
    rw [← contents] at served
    exact served

end SessionRecord.Enduring

/-- A property of states that both sides' new states have, and that sending and reading keep. -/
structure SessionState.Enduring (P : SessionState → Prop) : Prop where
  initiator (stores : Stores) (bundle : PreKeyBundle) (signedPreKey : PublicKey) (base ratchet : KeyPair) :
    P (stores.initiatorState bundle signedPreKey base ratchet)
  responder (stores : Stores) (message : PreKeyMessage) (signedPreKey : KeyPair) (oneTimePreKey : Option KeyPair) :
    P (stores.responderState message signedPreKey oneTimePreKey)
  sends {state : SessionState} {chain : ChainKey} (holds : P state) (placed : state.sendingChainKey = .ok chain) :
    P (state.withSendingChainKey chain.next)
  reads {state : SessionState} {message : RatchetMessage} {fresh : KeyPair} {opened : Opened} (holds : P state)
    (bounded : message.counter ≠ 0xffffffff) (opens : state.read message fresh = .ok opened) : P opened.state

namespace SessionRecord

/-- All states of a record have a property. -/
def All (P : SessionState → Prop) (record : SessionRecord) : Prop := ∀ state ∈ record.states, P state

variable {P : SessionState → Prop} {record record' : SessionRecord} {state state' : SessionState}

theorem All.fresh : fresh.All P := fun _ member => nomatch member

theorem All.install (all : record.All P) (holds : P state) : (record.install state).All P := by
  obtain ⟨kept, sub, made⟩ := record.install_states state
  intro other member
  rw [made] at member
  rcases List.mem_cons.mp member with rfl | member
  · exact holds
  · exact all other (sub.subset member)

theorem All.replace (all : record.All P) (replaces : record.Replaces state state' record') (holds : P state') :
    record'.All P := by
  obtain ⟨others, kept, states, sub, made⟩ := replaces.states
  intro other member
  rw [made] at member
  rcases List.mem_cons.mp member with rfl | member
  · exact holds
  · exact all other (states.mem_iff.mpr (List.mem_cons_of_mem _ (sub.subset member)))

end SessionRecord

theorem Stores.Answers.all {P : SessionState → Prop} {stores : Stores} {record accepted : SessionRecord}
    {message : PreKeyMessage} {used : Option UInt32} (answers : stores.Answers record message accepted used)
    (all : record.All P)
    (responder : ∀ signedPreKey oneTimePreKey, P (stores.responderState message signedPreKey oneTimePreKey)) :
    accepted.All P := by
  cases answers with
  | known _ => exact all
  | built _ signedPreKey oneTimePreKey _ _ => exact all.install (responder signedPreKey.keyPair oneTimePreKey)

theorem Stores.Holds.recordOrFresh {P : SessionState → Prop} {stores : Stores} {peer : Address}
    (holds : stores.Holds peer (·.All P)) : (stores.recordOrFresh peer).All P := by
  unfold Stores.recordOrFresh
  cases stored : stores.sessions[peer]? with
  | none => exact .fresh
  | some record => exact holds record stored

theorem SessionState.Enduring.all {P : SessionState → Prop} (enduring : Enduring P) : SessionRecord.Enduring (·.All P) := by
  constructor
  intro stores record record' request before turns bounded
  have all : record.All P := by
    rcases before with rfl | all
    · exact .fresh
    · exact all
  cases turns with
  | begins peer bundle signedPreKey base ratchet => exact all.install (enduring.initiator ..)
  | @sends peer plaintext state chain current placed =>
    have replaces : record.Replaces state (state.withSendingChainKey chain.next) _ := .current current
    exact all.replace replaces (enduring.sends (all state replaces.member) placed)
  | reads peer message opens replaces =>
    have bounded : message.counter ≠ 0xffffffff := fun last => bounded (congrArg some last)
    exact all.replace replaces (enduring.reads (all _ replaces.member) bounded opens)
  | answers peer message answers opens replaces =>
    have bounded : message.message.counter ≠ 0xffffffff := fun last => bounded (congrArg some last)
    have accepted := answers.all all (enduring.responder stores message)
    exact accepted.replace replaces (enduring.reads (accepted _ replaces.member) bounded opens)

end DoubleRatchet
