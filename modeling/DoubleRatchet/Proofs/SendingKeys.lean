import DoubleRatchet.Proofs.Session.Requests
import DoubleRatchet.Proofs.StoredKeys
import Mathlib.Data.List.Nodup

/-! No sending key is used twice. A state sends only after a step of the ratchet, under a key pair that it drew then;
of the states that are kept for a peer no two send under the same one, and each stands ahead of all that has been sent
under its own. Reading, archiving and restoring move states but never copy one or set one back. -/
namespace DoubleRatchet

namespace SessionState

/-- The ratchet key that a state sends under. The responder's state of a handshake has one, but does not send before
it has received. -/
def sendingKey? (state : SessionState) : Option Bytes :=
  if state.receivers = [] then none else state.sender.map (·.ratchetKey)

def sendingIndex (state : SessionState) : UInt32 := ((state.sender.bind (·.chainKey)).map (·.index)).getD 0

theorem sendingKey?_initiator (stores : Stores) (bundle : PreKeyBundle) (signedPreKey : PublicKey)
    (base ratchet : KeyPair) : (stores.initiatorState bundle signedPreKey base ratchet).sendingKey? =
      some ratchet.publicKey.serialize := rfl

theorem sendingKey?_responder (stores : Stores) (message : PreKeyMessage) (signedPreKey : KeyPair)
    (oneTimePreKey : Option KeyPair) : (stores.responderState message signedPreKey oneTimePreKey).sendingKey? = none := rfl

theorem afterRead_sender (state : SessionState) (message : RatchetMessage) (key : ChainKey) :
    (state.afterRead message key).sender = state.sender := rfl

theorem afterRead_receivers_ne_nil {state : SessionState} {message : RatchetMessage} {chain : Chain} (key : ChainKey)
    (found : state.receivingChain? message.ratchetKey = some chain) :
    (state.afterRead message key).receivers ≠ [] ∧ state.receivers ≠ [] := by
  have member := List.mem_of_find?_eq_some found
  have length : (state.afterRead message key).receivers.length = state.receivers.length := List.length_modify ..
  have some_chain : state.receivers ≠ [] := List.ne_nil_of_mem member
  refine ⟨fun none => some_chain ?_, some_chain⟩
  rw [none] at length
  exact List.length_eq_zero_iff.mp length.symm

/-- A state that has read a message sends as it did before, or as no one before it. -/
theorem read_sending {state : SessionState} {message : RatchetMessage} {fresh : KeyPair} {opened : Opened}
    (run : state.read message fresh = .ok opened) : opened.state.sendingKey?.isSome ∧
      ((opened.state.sendingKey? = state.sendingKey? ∧ opened.state.sendingIndex = state.sendingIndex) ∨
        (state.draws message = 1 ∧ opened.state.sendingKey? = some fresh.publicKey.serialize)) := by
  obtain ⟨takes, run | ⟨ours, root, place, needs, placed, run⟩⟩ := read_eq_ok.mp run
  · obtain ⟨chain, key, sender, receiver, opens⟩ := readOnChain_eq_ok.mp run
    obtain ⟨after, before⟩ := afterRead_receivers_ne_nil key opens.found
    rw [opens.after]
    refine ⟨?_, .inl ⟨?_, rfl⟩⟩
    · rw [sendingKey?, if_neg after, afterRead_sender, Option.isSome_map]
      exact Option.isSome_iff_ne_none.mpr takes.1
    · rw [sendingKey?, sendingKey?, if_neg after, if_neg before, afterRead_sender]
  · obtain ⟨chain, key, sender, receiver, opens⟩ := readOnChain_eq_ok.mp run
    obtain ⟨after, before⟩ := afterRead_receivers_ne_nil key opens.found
    have sending : opened.state.sendingKey? = some fresh.publicKey.serialize := by
      rw [opens.after, sendingKey?, if_neg after, afterRead_sender, stepped_sender]
      rfl
    exact ⟨by rw [sending]; rfl, .inr ⟨draws_eq_one takes needs, sending⟩⟩

/-- A message bears the ratchet key that its state sends under and the number that was next, and the number goes on. -/
theorem Makes.sending {state : SessionState} {chain : ChainKey} {ratchetKey own remote : PublicKey}
    {pending : Option PendingPreKey} (makes : state.Makes chain ratchetKey own remote pending)
    (sends : state.sendingKey?.isSome) : state.sendingKey? = some ratchetKey.serialize ∧ state.sendingIndex = chain.index ∧
      (state.withSendingChainKey chain.next).sendingKey? = state.sendingKey? ∧
      (state.withSendingChainKey chain.next).sendingIndex = chain.index + 1 := by
  have place := makes.place
  have key := makes.ratchetKey
  unfold sendingChainKey sendingChain at place
  unfold SessionState.ratchetKey sendingChain at key
  cases sender : state.sender with
  | none => rw [sender] at place; cases place
  | some sending =>
    rw [sender] at place key
    have key := PublicKey.deserialize_eq_ok.mp key
    have receives : state.receivers ≠ [] := by
      intro none
      rw [sendingKey?, if_pos none] at sends
      cases sends
    have next : (state.withSendingChainKey chain.next).sender = some { sending with chainKey := some (.ofKey chain.next) } := by
      rw [withSendingChainKey, sender]
      rfl
    have receives' : (state.withSendingChainKey chain.next).receivers ≠ [] := receives
    refine ⟨?_, ?_, ?_, ?_⟩
    · rw [sendingKey?, if_neg receives, sender, ← key]
      rfl
    · change sending.key = .ok chain at place
      unfold Chain.key at place
      rw [sendingIndex, sender]
      cases stored : sending.chainKey with
      | none => rw [stored] at place; cases place
      | some stored' =>
        rw [stored] at place
        obtain ⟨block, _, made⟩ := bind_eq_ok.mp place
        cases made
        simp [stored]
    · rw [sendingKey?, sendingKey?, if_neg receives, if_neg receives', next, sender]
      rfl
    · rw [sendingIndex, next]
      rfl

end SessionState

/-! ## The states kept for one peer -/

/-- Of the key pairs drawn first, the public halves differ. -/
def Entropy.DrawsApart (e : Entropy) (limit : Nat) : Prop :=
  ∀ i < limit, ∀ j < limit, (e.pair i).publicKey = (e.pair j).publicKey → i = j

/-- States that can all go on sending after `sent` has been sent: each sends under a key pair of its own from the
first `n`, and is ahead of what has been sent under it. -/
structure SendApart (e : Entropy) (n : Nat) (sent : List (PublicKey × UInt32)) (states : List SessionState) : Prop where
  drawn : ∀ state ∈ states, ∀ key, state.sendingKey? = some key → ∃ i < n, key = (e.pair i).publicKey.serialize
  apart : states.Pairwise fun a b => ∀ key, a.sendingKey? = some key → b.sendingKey? ≠ some key
  ahead : ∀ state ∈ states, ∀ heading ∈ sent, state.sendingKey? = some heading.1.serialize →
    heading.2 < state.sendingIndex

namespace SendApart

variable {e : Entropy} {n m limit : Nat} {sent : List (PublicKey × UInt32)} {states others : List SessionState}
  {state state' : SessionState}

theorem mono (sound : SendApart e n sent states) (le : n ≤ m) : SendApart e m sent states where
  drawn state member key sends := by
    obtain ⟨i, lt, made⟩ := sound.drawn state member key sends
    exact ⟨i, by omega, made⟩
  apart := sound.apart
  ahead := sound.ahead

theorem sublist (sound : SendApart e n sent states) (sub : others.Sublist states) : SendApart e n sent others where
  drawn state member := sound.drawn state (sub.subset member)
  apart := sound.apart.sublist sub
  ahead state member := sound.ahead state (sub.subset member)

theorem perm (sound : SendApart e n sent states) (same : states.Perm others) : SendApart e n sent others where
  drawn state member := sound.drawn state (same.mem_iff.mpr member)
  apart := sound.apart.perm same fun apart key sends sends' => apart key sends' sends
  ahead state member := sound.ahead state (same.mem_iff.mpr member)

theorem cons_silent (sound : SendApart e n sent states) (silent : state.sendingKey? = none) :
    SendApart e n sent (state :: states) where
  drawn state' member key sends := by
    rcases List.mem_cons.mp member with rfl | member
    · rw [silent] at sends; cases sends
    · exact sound.drawn state' member key sends
  apart := by
    refine List.pairwise_cons.mpr ⟨fun _ _ key sends => ?_, sound.apart⟩
    rw [silent] at sends
    cases sends
  ahead state' member heading was_sent sends := by
    rcases List.mem_cons.mp member with rfl | member
    · rw [silent] at sends; cases sends
    · exact sound.ahead state' member heading was_sent sends

theorem cons_fresh (sound : SendApart e n sent states) (differ : e.DrawsApart limit) (le : n ≤ m) (lt : m < limit)
    (past : ∀ heading ∈ sent, ∃ i < n, heading.1 = (e.pair i).publicKey)
    (sends : state.sendingKey? = some (e.pair m).publicKey.serialize) : SendApart e (m + 1) sent (state :: states) where
  drawn state' member key sends' := by
    rcases List.mem_cons.mp member with rfl | member
    · rw [sends] at sends'
      cases sends'
      exact ⟨m, by omega, rfl⟩
    · obtain ⟨i, lt', made⟩ := sound.drawn state' member key sends'
      exact ⟨i, by omega, made⟩
  apart := by
    refine List.pairwise_cons.mpr ⟨fun state' member key sends' sends'' => ?_, sound.apart⟩
    rw [sends] at sends'
    cases sends'
    obtain ⟨i, lt', made⟩ := sound.drawn state' member _ sends''
    have := differ m lt i (by omega) (PublicKey.serialize_injective made)
    omega
  ahead state' member heading was_sent sends' := by
    rcases List.mem_cons.mp member with rfl | member
    · obtain ⟨i, lt', made⟩ := past heading was_sent
      rw [sends, Option.some.injEq] at sends'
      have := differ m lt i (by omega) ((PublicKey.serialize_injective sends').trans made)
      omega
    · exact sound.ahead state' member heading was_sent sends'

theorem cons_same (sound : SendApart e n sent (state :: states)) (key : state'.sendingKey? = state.sendingKey?)
    (index : state'.sendingIndex = state.sendingIndex) : SendApart e n sent (state' :: states) where
  drawn other member := by
    rcases List.mem_cons.mp member with rfl | member
    · rw [key]
      exact sound.drawn state List.mem_cons_self
    · exact sound.drawn other (List.mem_cons_of_mem _ member)
  apart := by
    obtain ⟨first, rest⟩ := List.pairwise_cons.mp sound.apart
    refine List.pairwise_cons.mpr ⟨fun other member => ?_, rest⟩
    rw [key]
    exact first other member
  ahead other member := by
    rcases List.mem_cons.mp member with rfl | member
    · rw [key, index]
      exact sound.ahead state List.mem_cons_self
    · exact sound.ahead other (List.mem_cons_of_mem _ member)

/-- What a state sends has not been sent before, and it goes on to the next number. -/
theorem send (sound : SendApart e n sent (state :: states)) {ratchetKey : PublicKey}
    (key : state.sendingKey? = some ratchetKey.serialize) (bounded : state.sendingIndex ≠ 0xffffffff)
    (key' : state'.sendingKey? = state.sendingKey?) (index' : state'.sendingIndex = state.sendingIndex + 1) :
    (ratchetKey, state.sendingIndex) ∉ sent ∧
      SendApart e n (sent ++ [(ratchetKey, state.sendingIndex)]) (state' :: states) := by
  have lt : state.sendingIndex < state.sendingIndex + 1 := by grind
  obtain ⟨first, rest⟩ := List.pairwise_cons.mp sound.apart
  refine ⟨fun was_sent => ?_, ?_, ?_, ?_⟩
  · have := sound.ahead state List.mem_cons_self _ was_sent key
    grind
  · intro other member
    rcases List.mem_cons.mp member with rfl | member
    · rw [key']
      exact sound.drawn state List.mem_cons_self
    · exact sound.drawn other (List.mem_cons_of_mem _ member)
  · refine List.pairwise_cons.mpr ⟨fun other member => ?_, rest⟩
    rw [key']
    exact first other member
  · intro other member heading was_sent sends
    rcases List.mem_cons.mp member with rfl | member
    · rw [key'] at sends
      rw [index']
      rcases List.mem_append.mp was_sent with was_sent | now
      · have := sound.ahead state List.mem_cons_self heading was_sent sends
        grind
      · cases List.mem_singleton.mp now
        exact lt
    · rcases List.mem_append.mp was_sent with was_sent | now
      · exact sound.ahead other (List.mem_cons_of_mem _ member) heading was_sent sends
      · cases List.mem_singleton.mp now
        exact absurd sends (first other member _ key)

/-- However a record reads a message, its states can go on sending, and the current one sends. -/
theorem read {accepted record : SessionRecord} {peer : Address} {message : RatchetMessage} {opened : Opened}
    (sound : SendApart e n sent accepted.states) (differ : e.DrawsApart limit)
    (past : ∀ heading ∈ sent, ∃ i < n, heading.1 = (e.pair i).publicKey) (bound : m ≤ limit)
    (run : accepted.read peer message (e.skip n) = (.ok (record, opened), e.skip m)) :
    SendApart e m sent record.states ∧ ∀ state, record.current = some state → state.sendingKey?.isSome := by
  obtain ⟨k, state, reads, left, replaces⟩ := SessionRecord.read_eq_ok run
  obtain ⟨others, kept, states, sub, made⟩ := replaces.states
  obtain ⟨sends, how⟩ := SessionState.read_sending reads
  rw [Entropy.skip_skip] at left
  have count := e.skip_injective left
  refine ⟨?_, ?_⟩
  · rw [made]
    have before := sound.perm states
    rcases how with ⟨key, index⟩ | ⟨draws, key⟩
    · exact ((before.cons_same key index).sublist (sub.cons_cons _)).mono (by omega)
    · have rest := before.sublist (sub.cons state)
      rw [Entropy.pair_skip] at key
      exact (rest.cons_fresh differ (by omega) (by omega) past key).mono (by omega)
  · intro state' current
    rw [replaces.current_eq] at current
    cases current
    exact sends

end SendApart

/-- What holds of a device at all times: no message to the peer has had the heading of an earlier one, and the states
kept for the peer can go on sending. -/
structure SendsOnce (peer : Address) (e : Entropy) (n : Nat) (sent : List (PublicKey × UInt32)) (stores : Stores) :
    Prop where
  nodup : sent.Nodup
  past : ∀ heading ∈ sent, ∃ i < n, heading.1 = (e.pair i).publicKey
  kept : ∀ record, stores.sessions[peer]? = some record → SendApart e n sent record.states ∧
    ∀ state, record.current = some state → state.sendingKey?.isSome

namespace SendsOnce

variable {peer target : Address} {e e' : Entropy} {n m limit : Nat} {sent : List (PublicKey × UInt32)}
  {stores stores' : Stores}

theorem mono (once : SendsOnce peer e n sent stores) (le : n ≤ m) (same : stores'.sessions[peer]? = stores.sessions[peer]?) :
    SendsOnce peer e m sent stores' where
  nodup := once.nodup
  past heading was_sent := by
    obtain ⟨i, lt, made⟩ := once.past heading was_sent
    exact ⟨i, by omega, made⟩
  kept record stored := by
    rw [same] at stored
    obtain ⟨sound, current⟩ := once.kept record stored
    exact ⟨sound.mono le, current⟩

theorem store (once : SendsOnce peer e n sent stores) (le : n ≤ m) {record : SessionRecord}
    (stored : stores'.sessions[peer]? = if target = peer then some record else stores.sessions[peer]?)
    (sound : target = peer → SendApart e m sent record.states ∧
      ∀ state, record.current = some state → state.sendingKey?.isSome) : SendsOnce peer e m sent stores' := by
  by_cases same : target = peer
  · refine ⟨once.nodup, (once.mono le rfl).past, fun record' stored' => ?_⟩
    rw [stored, if_pos same] at stored'
    cases stored'
    exact sound same
  · exact once.mono le (by rw [stored, if_neg same])

theorem recordOrFresh (once : SendsOnce peer e n sent stores) : SendApart e n sent (stores.recordOrFresh peer).states := by
  unfold Stores.recordOrFresh
  cases stored : stores.sessions[peer]? with
  | some record => exact (once.kept record stored).1
  | none => exact ⟨nofun, List.Pairwise.nil, nofun⟩

theorem acceptBundle (once : SendsOnce peer e n sent stores) (differ : e.DrawsApart limit) {bundle : PreKeyBundle}
    (bound : n + 2 ≤ limit)
    (run : stores.acceptBundle target bundle ((e.skip n).pair 0) ((e.skip n).pair 1) = .ok stores') :
    SendsOnce peer e (n + 2) sent stores' := by
  obtain ⟨_, signedPreKey, _, rfl⟩ := Stores.acceptBundle_eq_ok.mp run
  refine once.store (by omega) (stores.withSession_sessions target peer _ _) ?_
  rintro rfl
  obtain ⟨kept, sub, made⟩ := SessionRecord.install_states (stores.recordOrFresh target)
    (stores.initiatorState bundle signedPreKey ((e.skip n).pair 0) ((e.skip n).pair 1))
  have key := SessionState.sendingKey?_initiator stores bundle signedPreKey ((e.skip n).pair 0) ((e.skip n).pair 1)
  refine ⟨?_, fun state current => ?_⟩
  · rw [made]
    refine (once.recordOrFresh.sublist sub).cons_fresh differ (by omega) (by omega) once.past ?_
    rw [key, Entropy.pair_skip]
  · cases current
    rw [key]
    rfl

theorem encrypt (once : SendsOnce peer e n sent stores) {plaintext : Bytes} {message : Message}
    (run : stores.encrypt peer plaintext = .ok (message, stores')) :
    ∃ inner, message.inner? = some inner ∧
      (inner.counter ≠ 0xffffffff → SendsOnce peer e n (sent ++ [inner.heading]) stores') := by
  obtain ⟨record, state, chain, ratchetKey, own, remote, pending, sends, rfl, rfl⟩ := Stores.encrypt_eq_ok.mp run
  refine ⟨_, SessionState.wrapped_inner? .., fun bounded => ?_⟩
  obtain ⟨sound, current⟩ := once.kept record sends.loaded
  have states : record.states = state :: record.archived := by rw [SessionRecord.states, sends.current]; rfl
  obtain ⟨key, index, key', index'⟩ := sends.makes.sending (current state sends.current)
  rw [states] at sound
  rw [← index] at index'
  have bounded : state.sendingIndex ≠ 0xffffffff := by rw [index]; exact bounded
  obtain ⟨unsent, sound'⟩ := sound.send key bounded key' index'
  have heading : (state.sealed chain ratchetKey own remote plaintext).heading = (ratchetKey, state.sendingIndex) := by
    rw [index]; rfl
  rw [heading]
  refine ⟨?_, ?_, ?_⟩
  · refine List.nodup_append.mpr ⟨once.nodup, List.pairwise_singleton _ _, fun _ was_sent _ now same => unsent ?_⟩
    cases List.mem_singleton.mp now
    exact same ▸ was_sent
  · intro other was_sent
    rcases List.mem_append.mp was_sent with was_sent | now
    · exact once.past other was_sent
    · cases List.mem_singleton.mp now
      obtain ⟨i, lt, made⟩ := sound.drawn state List.mem_cons_self _ key
      exact ⟨i, lt, PublicKey.serialize_injective made⟩
  · intro record' stored
    rw [Stores.withSession_sessions, if_pos rfl] at stored
    cases stored
    refine ⟨sound', fun state' current' => ?_⟩
    cases current'
    rw [key', key]
    rfl

theorem decryptRatchet (once : SendsOnce peer e n sent stores) (differ : e.DrawsApart limit) (le : n ≤ m)
    (bound : m ≤ limit) {message : RatchetMessage} {result : Except Fault (Bytes × MessageKeys)}
    (run : stores.decryptRatchet target message (e.skip n) = (result, stores', e.skip m)) :
    SendsOnce peer e m sent stores' := by
  cases result with
  | error fault =>
    rw [Stores.decryptRatchet_error run]
    exact once.mono le rfl
  | ok read =>
    obtain ⟨record, record', opened, remote, loaded, reads, _, _, _, _, rfl⟩ := Stores.decryptRatchet_eq_ok.mp run
    refine once.store le (stores.withSession_sessions target peer remote record') ?_
    rintro rfl
    exact (once.kept record loaded).1.read differ once.past bound reads

theorem decryptPreKey (once : SendsOnce peer e n sent stores) (differ : e.DrawsApart limit) (le : n ≤ m)
    (bound : m ≤ limit) {message : PreKeyMessage} {result : Except Fault (Bytes × MessageKeys)}
    (run : stores.decryptPreKey target message (e.skip n) = (result, stores', e.skip m)) :
    SendsOnce peer e m sent stores' := by
  cases result with
  | error fault =>
    rcases Stores.decryptPreKey_error run with ⟨_, rfl⟩ | ⟨_, rfl⟩
    · exact once.mono le rfl
    · exact once.mono le rfl
  | ok read =>
    obtain ⟨accepted, used, record, opened, _, answers, reads, _, _, rfl⟩ := Stores.decryptPreKey_eq_ok.mp run
    refine once.store le (stores.withSession_sessions target peer message.identityKey record) ?_
    rintro rfl
    -- The responder's state of a new handshake does not send, so it may join the others before any step.
    have joined : SendApart e n sent accepted.states := by
      cases answers with
      | known _ => exact once.recordOrFresh
      | built _ signedPreKey oneTimePreKey _ _ =>
        obtain ⟨kept, sub, made⟩ := SessionRecord.install_states (stores.recordOrFresh target)
          (stores.responderState message signedPreKey.keyPair oneTimePreKey)
        rw [made]
        exact (once.recordOrFresh.sublist sub).cons_silent (SessionState.sendingKey?_responder ..)
    exact joined.read differ once.past bound reads

theorem serve (once : SendsOnce peer e n sent stores) (differ : e.DrawsApart limit) (le : n ≤ m) (bound : m ≤ limit)
    {request : Request} {answer : Except Fault Reply} (run : stores.serve (e.skip n) request = (answer, stores', e.skip m))
    (bounded : ∀ message ∈ sent? peer (request, answer), message.counter ≠ 0xffffffff) :
    SendsOnce peer e m (sent ++ (sent? peer (request, answer)).toList.map RatchetMessage.heading) stores' := by
  cases request with
  | acceptBundle target bundle =>
    refine (List.append_nil sent).symm ▸ ?_
    simp only [Stores.serve] at run
    split at run
    · rename_i accepted
      simp only [Prod.mk.injEq, Entropy.skip_skip] at run
      obtain ⟨_, rfl, left⟩ := run
      have count := e.skip_injective left
      exact (once.acceptBundle differ (by omega) accepted).mono (by omega) rfl
    · simp only [Prod.mk.injEq] at run
      obtain ⟨_, rfl, _⟩ := run
      exact once.mono le rfl
  | encrypt target plaintext =>
    simp only [Stores.serve] at run
    split at run
    · rename_i message stores'' made
      simp only [Prod.mk.injEq] at run
      obtain ⟨rfl, rfl, _⟩ := run
      by_cases same : target = peer
      · subst same
        obtain ⟨inner, is_inner, step⟩ := once.encrypt made
        simp only [sent?, if_pos, is_inner] at bounded ⊢
        exact (step (bounded inner rfl)).mono le rfl
      · obtain ⟨_, _, _, _, _, _, _, _, _, rfl⟩ := Stores.encrypt_eq_ok.mp made
        simp only [sent?, if_neg same]
        refine (List.append_nil sent).symm ▸ once.mono le ?_
        rw [Stores.withSession_sessions, if_neg same]
    · simp only [Prod.mk.injEq] at run
      obtain ⟨rfl, rfl, _⟩ := run
      exact (List.append_nil sent).symm ▸ once.mono le rfl
  | decryptRatchet target message =>
    refine (List.append_nil sent).symm ▸ ?_
    simp only [Stores.serve, Prod.mk.injEq] at run
    obtain ⟨_, rfl, left⟩ := run
    exact once.decryptRatchet differ le bound (Prod.ext rfl (Prod.ext rfl left))
  | decryptPreKey target message =>
    refine (List.append_nil sent).symm ▸ ?_
    simp only [Stores.serve, Prod.mk.injEq] at run
    obtain ⟨_, rfl, left⟩ := run
    exact once.decryptPreKey differ le bound (Prod.ext rfl (Prod.ext rfl left))

theorem serveAll {device : Device} {requests : List Request} (once : SendsOnce peer e n sent device.stores)
    (differ : e.DrawsApart limit) (left : device.ambient.entropy = e.skip n)
    (final : (device.serveAll requests).2.ambient.entropy = e.skip limit)
    (bounded : ∀ message ∈ sentTo peer (device.serveAll requests).1, message.counter ≠ 0xffffffff) :
    SendsOnce peer e limit (sent ++ (sentTo peer (device.serveAll requests).1).map RatchetMessage.heading)
      (device.serveAll requests).2.stores := by
  induction requests generalizing device n sent with
  | nil =>
    have count := e.skip_injective (left.symm.trans final)
    rw [← count]
    exact (List.append_nil sent).symm ▸ once
  | cons request rest ih =>
    obtain ⟨k, drawn⟩ := device.serve_skips request
    obtain ⟨later, left'⟩ := (device.serve request).2.serveAll_skips rest
    have left'' : (device.serve request).2.ambient.entropy = e.skip (n + k) := by rw [drawn, left, Entropy.skip_skip]
    have count : limit = n + k + later := by
      rw [left'', Entropy.skip_skip] at left'
      exact e.skip_injective (final.symm.trans left')
    have cons : (device.serveAll (request :: rest)).1 = (request, (device.serve request).1) ::
      ((device.serve request).2.serveAll rest).1 := rfl
    rw [cons, sentTo_cons] at bounded ⊢
    obtain ⟨answer_eq, contents_eq⟩ := device.serve_eq request
    have run : device.stores.serve (e.skip n) request =
        ((device.serve request).1, (device.serve request).2.stores, e.skip (n + k)) := by
      rw [← left, ← left'', answer_eq]
      exact Prod.ext rfl contents_eq.symm
    have now := once.serve differ (by omega) (by omega) run fun message is_sent =>
      bounded message (List.mem_append_left _ (Option.mem_toList.mpr is_sent))
    have all := ih now left'' final fun message is_sent => bounded message (List.mem_append_right _ is_sent)
    rw [List.map_append, ← List.append_assoc]
    exact all

end SendsOnce

/-- Whatever is asked of a device that begins without sessions, in whatever order and with whatever outcome, no two of
the messages that it returns for a peer have the same ratchet key and number, as long as the key pairs it draws differ
and no chain is used up. -/
theorem headings_nodup (device : Device) (requests : List Request) (peer : Address)
    (empty : device.stores.sessions = ∅)
    (differ : ((device.ambient.entropy.drawn (device.serveAll requests).2.ambient.entropy).map KeyPair.publicKey).Nodup)
    (bounded : ∀ message ∈ sentTo peer (device.serveAll requests).1, message.counter ≠ 0xffffffff) :
    ((sentTo peer (device.serveAll requests).1).map RatchetMessage.heading).Nodup := by
  obtain ⟨limit, final⟩ := device.serveAll_skips requests
  have apart : device.ambient.entropy.DrawsApart limit := by
    rw [final, Entropy.drawn_skip, List.map_map] at differ
    intro i lt j lt' same
    exact List.inj_on_of_nodup_map differ (List.mem_range.mpr lt) (List.mem_range.mpr lt') same
  have start : SendsOnce peer device.ambient.entropy 0 [] device.stores := by
    refine ⟨List.nodup_nil, nofun, fun record stored => ?_⟩
    rw [empty] at stored
    cases stored
  exact (start.serveAll apart rfl final bounded).nodup

theorem headings_nodup_two_messages :
    let history := (Sample.initiating.serveAll [.acceptBundle Sample.responder Sample.bundle,
      .encrypt Sample.responder [1, 2, 3], .encrypt Sample.responder []]).1
    (sentTo Sample.responder history).length = 2 ∧
      ((sentTo Sample.responder history).map RatchetMessage.heading).Nodup := by
  intro history
  have evaluated : (sentTo Sample.responder history).length = 2 ∧
      ((Sample.initiating.ambient.entropy.drawn (Sample.initiating.serveAll
        [.acceptBundle Sample.responder Sample.bundle, .encrypt Sample.responder [1, 2, 3],
          .encrypt Sample.responder []]).2.ambient.entropy).map KeyPair.publicKey).Nodup ∧
      ∀ message ∈ sentTo Sample.responder history, message.counter ≠ 0xffffffff := by
    decide +kernel
  obtain ⟨count, differ, bounded⟩ := evaluated
  exact ⟨count, headings_nodup Sample.initiating _ Sample.responder rfl differ bounded⟩

end DoubleRatchet
