import DoubleRatchet.Proofs.Conversation.Opening
import DoubleRatchet.Proofs.OneTimeKeys
import DoubleRatchet.Proofs.Session.Lives
import DoubleRatchet.Proofs.Session.Sound
import DoubleRatchet.Proofs.StoredKeys

/-! How long messages repeat the handshake. What is sent in a session opens it, with the same keys and numbers, from when a
bundle began it until the first message is read in it, and never again; however often the session is archived and restored
meanwhile, and whatever failed in between. -/
namespace DoubleRatchet

theorem SessionState.pendingPreKey?_of_stored {state : SessionState} {pending : PendingPreKey}
    (stored : state.pendingPreKey = some (.ofPending pending)) :
    state.pendingPreKey? = .ok (some { pending with preKeyId := pending.preKeyId.filter (· != noPreKey) }) := by
  rw [SessionState.pendingPreKey?, stored]
  dsimp only
  rw [StoredPendingPreKey.load_ofPending]
  rfl

/-- A bundle began the session, and nothing has been read in it. -/
def Life.Waiting (life : Life) : Prop := (∃ bundle, life.origin = .bundle bundle) ∧ life.read = []

/-- A message that opens a session names the base key of its state, the device, and the numbers of the bundle's keys. -/
structure PreKeyMessage.Repeats (message : PreKeyMessage) (bundle : PreKeyBundle) (registrationId : UInt32)
    (baseKey : Bytes) : Prop where
  baseKey : message.baseKey.serialize = baseKey
  registrationId : message.registrationId = registrationId
  signedPreKeyId : message.signedPreKeyId = bundle.signedPreKeyId
  preKeyId : message.preKeyId = (bundle.preKey.map (·.1)).filter (· != noPreKey)

/-- How a state repeats the handshake of its session, and has repeated it. -/
structure Life.Wraps (registrationId : UInt32) (life : Life) (state : SessionState) : Prop where
  pending : state.pendingPreKey.isSome ↔ life.Waiting
  repeats : ∀ message, .preKey message ∈ life.sent →
    ∃ bundle, life.origin = .bundle bundle ∧ message.Repeats bundle registrationId state.baseKey
  once : life.sent.Pairwise fun earlier later => (∃ message, later = .preKey message) → ∃ message, earlier = .preKey message

/-- What a state has of its life. -/
structure Life.Of (registrationId : UInt32) (life : Life) (state : SessionState) : Prop where
  registered : state.localRegistrationId = registrationId
  waiting : ∀ bundle, life.origin = .bundle bundle → life.read = [] → ∃ base : PublicKey, state.baseKey = base.serialize ∧
    state.pendingPreKey = some (.ofPending ⟨bundle.preKey.map (·.1), bundle.signedPreKeyId, base⟩)
  quiet : ¬ life.Waiting → state.pendingPreKey = none
  repeats : ∀ message, .preKey message ∈ life.sent →
    ∃ bundle, life.origin = .bundle bundle ∧ message.Repeats bundle registrationId state.baseKey
  opening : life.Waiting → ∀ message ∈ life.sent, ∃ inner, message = .preKey inner
  once : life.sent.Pairwise fun earlier later => (∃ message, later = .preKey message) → ∃ message, earlier = .preKey message

namespace Life.Of

variable {registrationId : UInt32} {life : Life} {state : SessionState}

theorem wraps (lived : life.Of registrationId state) : life.Wraps registrationId state where
  pending := by
    constructor
    · intro pending
      by_contra quiet
      rw [lived.quiet quiet] at pending
      cases pending
    · rintro ⟨⟨bundle, origin⟩, unread⟩
      obtain ⟨base, -, pending⟩ := lived.waiting bundle origin unread
      rw [pending]
      rfl
  repeats := lived.repeats
  once := lived.once

theorem begun_by_bundle (stores : Stores) (bundle : PreKeyBundle) (signedPreKey : PublicKey) (base ratchet : KeyPair) :
    Life.Of stores.registrationId { origin := .bundle bundle } (stores.initiatorState bundle signedPreKey base ratchet) where
  registered := rfl
  waiting other same _ := by
    cases same
    exact ⟨base.publicKey, rfl, rfl⟩
  quiet other := absurd ⟨⟨bundle, rfl⟩, rfl⟩ other
  repeats := nofun
  opening := nofun
  once := .nil

theorem begun_by_message (stores : Stores) (message : PreKeyMessage) (signedPreKey : KeyPair) (oneTimePreKey : Option KeyPair) :
    Life.Of stores.registrationId { origin := .message message }
      (stores.responderState message signedPreKey oneTimePreKey) where
  registered := rfl
  waiting := nofun
  quiet _ := rfl
  repeats := nofun
  opening := nofun
  once := .nil

theorem reads (lived : life.Of registrationId state) {message : RatchetMessage} {fresh : KeyPair} {opened : Opened}
    (opens : state.read message fresh = .ok opened) :
    Life.Of registrationId { life with read := life.read ++ [message] } opened.state where
  registered := (SessionState.read_keeps opens).localRegistrationId.trans lived.registered
  waiting _ _ unread := by simp at unread
  quiet _ := SessionState.read_acknowledges opens
  repeats inner member := by
    obtain ⟨bundle, origin, repeats⟩ := lived.repeats inner member
    have baseKey := (SessionState.read_keeps opens).baseKey
    exact ⟨bundle, origin, repeats.baseKey.trans baseKey.symm, repeats.registrationId, repeats.signedPreKeyId, repeats.preKeyId⟩
  opening waiting := by simp [Life.Waiting] at waiting
  once := lived.once

/-- What a state sends repeats the handshake if and only if it waits. -/
theorem wrapped (lived : life.Of registrationId state) {chain : ChainKey} {ratchetKey own remote : PublicKey}
    {pending : Option PendingPreKey} (makes : state.Makes chain ratchetKey own remote pending) (inner : RatchetMessage) :
    life.Waiting ∧ (∃ bundle message, life.origin = .bundle bundle ∧ message.Repeats bundle registrationId state.baseKey ∧
      state.wrapped own inner pending = .preKey message) ∨
    ¬ life.Waiting ∧ state.wrapped own inner pending = .ratchet inner := by
  by_cases waiting : life.Waiting
  · obtain ⟨bundle, origin⟩ := waiting.1
    obtain ⟨base, baseKey, stored⟩ := lived.waiting bundle origin waiting.2
    have announced := SessionState.pendingPreKey?_of_stored stored
    cases announced.symm.trans makes.pending
    exact .inl ⟨waiting, bundle, _, origin, ⟨baseKey.symm, lived.registered, rfl, rfl⟩, rfl⟩
  · have announced : state.pendingPreKey? = .ok none := by rw [SessionState.pendingPreKey?, lived.quiet waiting]
    cases announced.symm.trans makes.pending
    exact .inr ⟨waiting, rfl⟩

theorem sends (lived : life.Of registrationId state) {chain : ChainKey} {ratchetKey own remote : PublicKey}
    {pending : Option PendingPreKey} (makes : state.Makes chain ratchetKey own remote pending) (inner : RatchetMessage) :
    Life.Of registrationId { life with sent := life.sent ++ [state.wrapped own inner pending] }
      (state.withSendingChainKey chain.next) := by
  have wrapped := lived.wrapped makes inner
  refine ⟨lived.registered, lived.waiting, lived.quiet, fun message member => ?_, fun waiting message member => ?_, ?_⟩
  · rcases List.mem_append.mp member with old | new
    · exact lived.repeats message old
    · have now := List.mem_singleton.mp new
      rcases wrapped with ⟨_, bundle, same, origin, repeats, made⟩ | ⟨_, made⟩
      · cases now.trans made
        exact ⟨bundle, origin, repeats⟩
      · cases now.trans made
  · rcases List.mem_append.mp member with old | new
    · exact lived.opening waiting message old
    · rcases wrapped with ⟨_, _, same, _, _, made⟩ | ⟨quiet, _⟩
      · exact ⟨same, (List.mem_singleton.mp new).trans made⟩
      · exact absurd waiting quiet
  · refine List.pairwise_append.mpr ⟨lived.once, List.pairwise_singleton _ _, fun earlier member later now opens => ?_⟩
    obtain ⟨message, opens⟩ := opens
    -- The new message opens the session, so that the session still waits, and all before do as well.
    rcases wrapped with ⟨waiting, _⟩ | ⟨_, made⟩
    · exact lived.opening waiting earlier member
    · cases (opens.symm.trans (List.mem_singleton.mp now)).trans made

/-- Deeds keep lives and states together. -/
theorem moves {stores : Stores} {lives : List Life} {deed : Deed} {before after : List SessionState}
    (lived : List.Forall₂ (Life.Of stores.registrationId) lives before) (moved : deed.Moves stores before after) :
    List.Forall₂ (Life.Of stores.registrationId) (deed.tell lives) after := by
  cases moved with
  | bundle bundle signedPreKey base ratchet =>
    exact forall₂_begun lived (begun_by_bundle stores bundle signedPreKey base ratchet)
  | message message signedPreKey oneTimePreKey =>
    exact forall₂_begun lived (begun_by_message stores message signedPreKey oneTimePreKey)
  | sends makes plaintext rest =>
    cases lived with
    | cons first others => exact .cons (first.sends makes _) others
  | reads found opens =>
    obtain ⟨life, here, reader⟩ := forall₂_getElem? lived found
    rw [Deed.tell, recalled_of_some _ here]
    exact .cons (reader.reads opens) (forall₂_eraseIdx lived _)

theorem movesAll {stores : Stores} {lives : List Life} {deeds : List Deed} {before after : List SessionState}
    (lived : List.Forall₂ (Life.Of stores.registrationId) lives before) (moved : Deed.MovesAll stores deeds before after) :
    List.Forall₂ (Life.Of stores.registrationId) (deeds.foldl (fun lives deed => deed.tell lives) lives) after := by
  induction moved generalizing lives with
  | nil => exact lived
  | cons now _ ih => exact ih (moves lived now)

end Life.Of

/-- The states of the record of a peer have the lives that are told of them. -/
structure Stores.Lived (stores : Stores) (peer : Address) (registrationId : UInt32) (lives : List Life) : Prop where
  registered : stores.registrationId = registrationId
  few : (stores.recordOrFresh peer).archived.length ≤ maxArchivedStates
  lived : List.Forall₂ (Life.Of registrationId) lives (stores.recordOrFresh peer).states

namespace Stores.Lived

variable {stores : Stores} {peer : Address} {registrationId : UInt32} {lives : List Life}

theorem serve (lived : stores.Lived peer registrationId lives) (e : Entropy) (request : Request) :
    (stores.serve e request).2.1.Lived peer registrationId
      ((if request.peer = peer then stores.deeds e request else []).foldl (fun lives deed => deed.tell lives) lives) := by
  have registered := (stores.serve_leaves e request).registrationId.trans lived.registered
  by_cases own : request.peer = peer
  · obtain ⟨few, moves⟩ := Stores.serve_moved lived.few e request own
    refine ⟨registered, few, ?_⟩
    have together := lived.lived
    rw [← lived.registered] at together ⊢
    rw [if_pos own]
    exact Life.Of.movesAll together moves
  · have same := stores.serve_recordOrFresh_other e own
    rw [if_neg own]
    exact ⟨registered, same ▸ lived.few, same ▸ lived.lived⟩

theorem serveAll {device : Device} (lived : device.stores.Lived peer registrationId lives) (requests : List Request) :
    (device.serveAll requests).2.stores.Lived peer registrationId (device.lives peer lives requests) := by
  induction requests generalizing device lives with
  | nil => exact lived
  | cons request rest ih =>
    have served := lived.serve device.ambient.entropy request
    rw [← congrArg Prod.fst (device.serve_eq request).2] at served
    exact ih served

end Stores.Lived

/-- A current session sends as its life says. -/
theorem Stores.Lived.sends {stores stores' : Stores} {peer : Address} {registrationId : UInt32} {lives : List Life}
    (lived : stores.Lived peer registrationId lives) {plaintext : Bytes} {message : Message}
    (sent : stores.encrypt peer plaintext = .ok (message, stores')) :
    ∃ life state, lives.head? = some life ∧ (stores.recordOrFresh peer).current = some state ∧
      (life.Waiting ∧ (∃ bundle inner, life.origin = .bundle bundle ∧ inner.Repeats bundle registrationId state.baseKey ∧
          message = .preKey inner) ∨
        ¬ life.Waiting ∧ ∃ inner, message = .ratchet inner) := by
  obtain ⟨record, state, chain, ratchetKey, own, remote, pending, sends, rfl, rfl⟩ := encrypt_eq_ok.mp sent
  have states := lived.lived
  rw [recordOrFresh_eq sends.loaded] at states ⊢
  rw [SessionRecord.states_of_current sends.current] at states
  cases states with
  | cons first others =>
    refine ⟨_, state, rfl, sends.current, ?_⟩
    exact (first.wrapped sends.makes _).imp_right (And.imp_right fun plain => ⟨_, plain⟩)

/-- In any run from stores without sessions, and wherever a session stands in the record of its peer: it has a handshake to
repeat if and only if a bundle began it and nothing has been read in it; all that has opened it names the same keys and
numbers; and nothing that opens it has been sent after anything else. What is sent next opens the current session if and
only if that still waits. -/
theorem wraps_until_first_read (device : Device) (without : device.stores.sessions = ∅) (requests : List Request)
    (peer : Address) :
    let reached := (device.serveAll requests).2
    let record := reached.stores.recordOrFresh peer
    let lives := device.lives peer [] requests
    List.Forall₂ (Life.Wraps device.stores.registrationId) lives record.states ∧
    ∀ plaintext message device', (Session.encrypt peer plaintext : OnDevice Message) reached = (.ok message, device') →
      ∃ life state, lives.head? = some life ∧ record.current = some state ∧
        (life.Waiting ∧ (∃ bundle inner, life.origin = .bundle bundle ∧
            inner.Repeats bundle device.stores.registrationId state.baseKey ∧ message = .preKey inner) ∨
          ¬ life.Waiting ∧ ∃ inner, message = .ratchet inner) := by
  intro reached record lives
  have fresh : device.stores.recordOrFresh peer = .fresh := by
    rw [Stores.recordOrFresh, without]
    rfl
  have begins : device.stores.Lived peer device.stores.registrationId [] := by
    refine ⟨rfl, ?_, ?_⟩
    · rw [fresh]
      exact Nat.zero_le _
    · rw [fresh]
      exact .nil
  have lived := begins.serveAll requests
  refine ⟨lived.lived.imp fun _ _ => Life.Of.wraps, fun plaintext message device' sent => ?_⟩
  exact lived.sends (Session.encrypt_run sent).1

/-- A session that announces no handshake does not wait. -/
theorem Life.not_waiting {registrationId : UInt32} {lives : List Life} {life : Life} {state : SessionState}
    {others : List SessionState} (wraps : List.Forall₂ (Life.Wraps registrationId) lives (state :: others))
    (first : lives.head? = some life) (acknowledged : state.pendingPreKey = none) : ¬ life.Waiting := by
  cases wraps with
  | cons now _ =>
    cases first
    rw [← now.pending, acknowledged]
    exact nofun

/-! ## A session that is answered -/

namespace Device

variable {device : Device} {peer : Address} {identity own : PublicKey} {state : SessionState} {pair : KeyPair} {root : RootKey}
  {place : ChainKey} (trusting : device.stores.Trusting peer identity)

include trusting

/-- A request that saves a session with the peer is answered, and the device keeps that session. -/
theorem serve_of_saves {request : Request} {reply : Reply} {left : Entropy}
    (saves : device.stores.serve device.ambient.entropy request =
      (.ok reply, device.stores.withSession peer identity (.alone state), left)) :
    (device.serve request).1 = .ok reply ∧ device.stores.Keeps (device.serve request).2.stores peer state identity := by
  obtain ⟨answer, contents⟩ := device.serve_eq request
  rw [saves] at answer contents
  have stores : (device.serve request).2.stores = _ := congrArg Prod.fst contents
  rw [stores]
  exact ⟨answer, Stores.keeps_withSession trusting state⟩

theorem serve_acceptBundle_fresh {bundle : PreKeyBundle} {signedPreKey : PublicKey}
    (fresh : device.stores.recordOrFresh peer = .fresh) (same : bundle.identityKey = identity)
    (verified : bundle.verified = .ok signedPreKey) :
    (device.serve (.acceptBundle peer bundle)).1 = .ok .accepted ∧
      device.stores.Keeps (device.serve (.acceptBundle peer bundle)).2.stores peer
        (device.stores.initiatorState bundle signedPreKey (device.ambient.entropy.pair 0) (device.ambient.entropy.pair 1))
        identity := by
  subst same
  have run : device.stores.acceptBundle peer bundle (device.ambient.entropy.pair 0) (device.ambient.entropy.pair 1) = .ok _ :=
    Stores.acceptBundle_eq_ok.mpr ⟨trusting.isTrusted .sending, signedPreKey, verified, rfl⟩
  rw [fresh] at run
  apply serve_of_saves trusting
  rw [Stores.serve, run]
  rfl

variable (kept : device.stores.sessions[peer]? = some (.alone state))

include kept

theorem serve_encrypt_alone (formed : state.Formed own identity pair root place) {pending : Option PendingPreKey}
    (announces : state.pendingPreKey? = .ok pending) (plaintext : Bytes) :
    (device.serve (.encrypt peer plaintext)).1 = .ok (.sent
        (state.wrapped own (state.sealed place pair.publicKey own identity plaintext) pending)) ∧
      device.stores.Keeps (device.serve (.encrypt peer plaintext)).2.stores peer (state.withSendingChainKey place.next)
        identity := by
  have makes : state.Makes place pair.publicKey own identity pending :=
    ⟨formed.sendingChainKey, formed.ratchetKey, formed.localIdentityKey, formed.remoteIdentityKey?, announces⟩
  have run : device.stores.encrypt peer plaintext = .ok _ := Stores.encrypt_eq_ok.mpr
    ⟨_, state, place, pair.publicKey, own, identity, pending, ⟨kept, rfl, makes, trusting.isTrusted .sending⟩, rfl, rfl⟩
  apply serve_of_saves trusting
  rw [Stores.serve, run]
  rfl

theorem encrypt_alone (formed : state.Formed own identity pair root place) {pending : Option PendingPreKey}
    (announces : state.pendingPreKey? = .ok pending) (plaintext : Bytes) :
    ∃ message device', (Session.encrypt peer plaintext : OnDevice Message) device = (.ok message, device') := by
  have sends := (serve_encrypt_alone trusting kept formed announces plaintext).1
  rw [serve, Request.ask, bind_apply] at sends
  rcases run : (Session.encrypt peer plaintext : OnDevice Message) device with ⟨fault | message, device'⟩
  · rw [run] at sends
    cases sends
  · exact ⟨message, device', rfl⟩

theorem serve_decryptRatchet_alone {message : RatchetMessage} {opened : Opened}
    (reads : state.read message (device.ambient.entropy.pair 0) = .ok opened)
    (remote : opened.state.remoteIdentityKey = .ok identity) :
    (device.serve (.decryptRatchet peer message)).1 = .ok (.read opened.plaintext opened.keys) ∧
      device.stores.Keeps (device.serve (.decryptRatchet peer message)).2.stores peer opened.state identity := by
  have read := SessionRecord.alone_read state peer message device.ambient.entropy
  rw [reads] at read
  have run := Stores.decryptRatchet_eq_ok.mpr ⟨_, _, opened, identity, kept, read, remote, trusting.isTrusted .receiving, rfl,
    rfl, rfl⟩
  apply serve_of_saves trusting
  rw [Stores.serve, run]
  rfl

end Device

/-- The first message of the other side: its chain begins with a new ratchet key and the key pair of the session. -/
def RootKey.answer (root : RootKey) (pair : KeyPair) (ratchetKey own remote : PublicKey) (plaintext : Bytes) : RatchetMessage :=
  let place := (root.derive ratchetKey pair.privateKey).2
  .create 3 place.messageKeys.macKey ratchetKey place.index 0
    (Cipher.encrypt place.messageKeys.cipherKey place.messageKeys.iv plaintext) remote own

/-- The root key and the sending chain with which a bundle begins a session. -/
def Stores.begun (stores : Stores) (bundle : PreKeyBundle) (signedPreKey : PublicKey) (base ratchet : KeyPair) :
    RootKey × ChainKey :=
  (RootKey.ofAgreements (stores.initiator bundle signedPreKey base).agreements).1.derive signedPreKey ratchet.privateKey

/-- A session that a bundle begins, its first message, and an answer to it. -/
def Device.exchange (device : Device) (peer : Address) (bundle : PreKeyBundle) (signedPreKey ratchetKey : PublicKey)
    (first second : Bytes) : List Request :=
  let base := device.ambient.entropy.pair 0
  let ratchet := device.ambient.entropy.pair 1
  let root := (device.stores.begun bundle signedPreKey base ratchet).1
  [.acceptBundle peer bundle, .encrypt peer first,
    .decryptRatchet peer (root.answer ratchet ratchetKey device.stores.identity.publicKey bundle.identityKey second)]

/-- The answer is read, and nothing is left to announce. -/
theorem Device.exchange_served {device : Device} {peer : Address} {bundle : PreKeyBundle} {signedPreKey ratchetKey : PublicKey}
    (fresh : device.stores.recordOrFresh peer = .fresh) (trusting : device.stores.Trusting peer bundle.identityKey)
    (verified : bundle.verified = .ok signedPreKey) (other : signedPreKey ≠ ratchetKey) (first second : Bytes) :
    let served := device.serveAll (device.exchange peer bundle signedPreKey ratchetKey first second)
    (∀ answer ∈ served.1, answer.2.isOk) ∧ ∃ state pair root place,
      device.stores.Keeps served.2.stores peer state bundle.identityKey ∧
      state.Formed device.stores.identity.publicKey bundle.identityKey pair root place ∧ state.pendingPreKey = none := by
  intro served
  let base := device.ambient.entropy.pair 0
  let ratchet := device.ambient.entropy.pair 1
  let begun := device.stores.begun bundle signedPreKey base ratchet
  let answer := begun.1.answer ratchet ratchetKey device.stores.identity.publicKey bundle.identityKey second
  let state := device.stores.initiatorState bundle signedPreKey base ratchet
  have formed : state.Formed _ _ ratchet begun.1 begun.2 := SessionState.initiatorState_formed ..
  obtain ⟨accepted, began⟩ := device.serve_acceptBundle_fresh trusting fresh rfl verified
  obtain ⟨sent, went⟩ :=
    serve_encrypt_alone began.trusting began.kept formed (SessionState.pendingPreKey?_of_stored rfl) first
  have formed := formed.withSendingChainKey begun.2.next
  have missing : (state.withSendingChainKey begun.2.next).receivingChain? ratchetKey = none := by
    refine List.find?_eq_none.mpr fun chain member same => ?_
    cases List.mem_singleton.mp member
    exact other (PublicKey.serialize_injective (beq_iff_eq.mp same))
  have reads : ∀ fresh, (state.withSendingChainKey begun.2.next).read answer fresh = .ok _ :=
    SessionState.Formed.read_created_new rfl formed missing rfl
  have stepped (fresh : KeyPair) :=
    (formed.stepped ratchetKey fresh).afterRead answer (begun.1.derive ratchetKey ratchet.privateKey).2
  obtain ⟨read, last⟩ := serve_decryptRatchet_alone went.trusting went.kept (reads _) (stepped _).remoteIdentityKey
  refine ⟨?_, _, _, _, _, ⟨last.kept, last.trusting⟩, stepped _, SessionState.read_acknowledges (reads _)⟩
  intro served member
  rcases List.mem_cons.mp member with rfl | member
  · exact congrArg Except.isOk accepted
  rcases List.mem_cons.mp member with rfl | member
  · exact congrArg Except.isOk sent
  rcases List.mem_singleton.mp member with rfl
  exact congrArg Except.isOk read

namespace Sample

/-- A session that a bundle begins, and its first message. -/
def begins : List Request := [.acceptBundle responder bundle, .encrypt responder [1, 2, 3]]

/-- The same, and an answer. -/
def answered : List Request := initiating.exchange responder bundle signedPreKey.publicKey (publicKey 9) [1, 2, 3] [4]

theorem bundle_verified : bundle.verified = .ok signedPreKey.publicKey := meeting_opens.begun.1

end Sample

/-- What follows a first message is wrapped as well, as nothing has been read. Once an answer has been read, it is not. -/
theorem wraps_until_first_read_after_first_message : Sample.initiating.stores.sessions = ∅ ∧
    (∃ inner device', (Session.encrypt Sample.responder [] : OnDevice Message) (Sample.initiating.serveAll Sample.begins).2 =
      (.ok (.preKey inner), device') ∧ inner.signedPreKeyId = Sample.bundle.signedPreKeyId) ∧
    (∀ answer ∈ (Sample.initiating.serveAll Sample.answered).1, answer.2.isOk) ∧
    ∃ inner device', (Session.encrypt Sample.responder [] : OnDevice Message) (Sample.initiating.serveAll Sample.answered).2 =
      (.ok (.ratchet inner), device') := by
  have none : Sample.initiating.stores.sessions = ∅ := rfl
  refine ⟨none, ?_, ?_⟩
  · have evaluated : (Sample.initiating.lives Sample.responder [] Sample.begins).map (fun life => (life.origin, life.read)) =
          [(.bundle Sample.bundle, [])] ∧
        ((Session.encrypt Sample.responder [] : OnDevice Message) (Sample.initiating.serveAll Sample.begins).2).1.isOk := by
      decide +kernel
    obtain ⟨told, answered⟩ := evaluated
    rcases sent : (Session.encrypt Sample.responder [] : OnDevice Message) (Sample.initiating.serveAll Sample.begins).2 with
      ⟨fault | message, device'⟩
    · rw [sent] at answered
      cases answered
    · obtain ⟨life, state, first, -, sends⟩ :=
        (wraps_until_first_read Sample.initiating none _ Sample.responder).2 [] message device' sent
      have same := congrArg List.head? told
      rw [List.head?_map, first] at same
      obtain ⟨began, unread⟩ := Prod.mk.inj (Option.some.inj same)
      obtain ⟨-, bundle, inner, origin, repeats, rfl⟩ | ⟨quiet, -⟩ := sends
      · cases origin.symm.trans began
        exact ⟨inner, device', rfl, repeats.signedPreKeyId⟩
      · exact absurd ⟨⟨_, began⟩, unread⟩ quiet
  · have trusting : Sample.initiating.stores.Trusting Sample.responder Sample.bundle.identityKey :=
      Sample.meeting_opens.trusting .initiator _ _
    have other : Sample.signedPreKey.publicKey ≠ Sample.publicKey 9 := by decide
    have exchanged := Device.exchange_served rfl trusting Sample.bundle_verified other [1, 2, 3] [4]
    rw [← Sample.answered] at exchanged
    obtain ⟨answered, state, _, _, _, keeps, formed, acknowledged⟩ := exchanged
    have announces : state.pendingPreKey? = .ok .none := by rw [SessionState.pendingPreKey?, acknowledged]
    obtain ⟨message, device', sent⟩ := Device.encrypt_alone keeps.trusting keeps.kept formed announces []
    obtain ⟨wraps, next⟩ := wraps_until_first_read Sample.initiating none Sample.answered Sample.responder
    obtain ⟨life, _, first, current, ⟨waiting, -⟩ | ⟨-, inner, rfl⟩⟩ := next [] message device' sent
    · -- The session would announce its handshake if it still waited.
      rw [Stores.recordOrFresh_eq keeps.kept] at wraps
      exact absurd waiting (Life.not_waiting wraps first acknowledged)
    · exact ⟨answered, inner, device', sent⟩

end DoubleRatchet
