import DoubleRatchet.Proofs.Session.Trying
import DoubleRatchet.Proofs.Session.Turns
import Mathlib.Data.List.Forall2

/-! The lives of the sessions with a peer, told from what has been asked of a device: how each session began, what was sent
in it and what was read in it. The lives are kept beside the states of the peer's record, in the same order: a session that
begins comes first, one that a message is sent in stays first, and one that has read a message becomes first. -/
namespace DoubleRatchet

/-- How a session began. -/
inductive Origin where
  | bundle (bundle : PreKeyBundle)
  | message (message : PreKeyMessage)
  deriving DecidableEq

/-- What has become of a session: how it began, and what has been sent and read in it since. -/
structure Life where
  origin : Origin
  sent : List Message := []
  read : List RatchetMessage := []

/-! ## Places -/

section Places

variable {A B : Type} {R : A → B → Prop} {as : List A} {bs : List B} {a : A} {b : B}

/-- A new entry comes first; the last is given up if there are then too many. -/
def begun (new : A) (entries : List A) : List A := (new :: entries).take (maxArchivedStates + 1)

/-- The entry at a place comes first, in a new form. -/
def recalled (place : Nat) (change : A → A) (entries : List A) : List A :=
  (entries[place]?.map change).toList ++ entries.eraseIdx place

theorem recalled_of_some {place : Nat} (change : A → A) (found : as[place]? = some a) :
    recalled place change as = change a :: as.eraseIdx place := by
  rw [recalled, found]
  rfl

theorem forall₂_begun (all : List.Forall₂ R as bs) (new : R a b) : List.Forall₂ R (begun a as) (begun b bs) :=
  List.forall₂_take _ (.cons new all)

theorem forall₂_eraseIdx (all : List.Forall₂ R as bs) (place : Nat) :
    List.Forall₂ R (as.eraseIdx place) (bs.eraseIdx place) := by
  induction all generalizing place with
  | nil => exact .nil
  | cons first rest ih =>
    cases place with
    | zero => exact rest
    | succ place => exact .cons first (ih place)

theorem forall₂_getElem? (all : List.Forall₂ R as bs) {place : Nat} (found : bs[place]? = some b) :
    ∃ a, as[place]? = some a ∧ R a b := by
  induction all generalizing place with
  | nil => cases found
  | cons first rest ih =>
    cases place with
    | zero =>
      cases found
      exact ⟨_, rfl, first⟩
    | succ place => exact ih found

end Places

/-! ## Deeds -/

/-- What an answered request does to the sessions with its peer. -/
inductive Deed where
  | begins (origin : Origin)
  | sends (message : Message)
  /-- The session at a place reads a message. -/
  | reads (place : Nat) (message : RatchetMessage)

/-- The lives of the sessions after a deed. -/
def Deed.tell : Deed → List Life → List Life
  | begins origin, lives => begun { origin } lives
  | sends message, lives => recalled 0 (fun life => { life with sent := life.sent ++ [message] }) lives
  | reads place message, lives => recalled place (fun life => { life with read := life.read ++ [message] }) lives

/-- The place of the first state that can read a message. -/
def SessionState.readerPlace (states : List SessionState) (message : RatchetMessage) (fresh : KeyPair) : Nat :=
  states.findIdx fun state => (state.read message fresh).isOk

/-- What a message that opens a session does: the session begins, unless it has begun before, and one reads the message. -/
def Stores.openingDeeds (stores : Stores) (peer : Address) (message : PreKeyMessage) (fresh : KeyPair) : List Deed :=
  match stores.acceptMessage peer message with
  | .error _ => []
  | .ok (accepted, _) =>
    let known := (stores.recordOrFresh peer).hasStateFor message.version.toUInt32 message.baseKey
    let begins := if known then [] else [.begins (.message message)]
    begins ++ [.reads (SessionState.readerPlace accepted.states message.message fresh) message.message]

/-- What a request does to the sessions with its peer, in turn. -/
def Stores.deeds (stores : Stores) (e : Entropy) (request : Request) : List Deed :=
  match request, (stores.serve e request).1 with
  | .acceptBundle _ bundle, .ok _ => [.begins (.bundle bundle)]
  | .encrypt _ _, .ok (.sent message) => [.sends message]
  | .decryptRatchet peer message, .ok _ =>
    [.reads (SessionState.readerPlace (stores.recordOrFresh peer).states message (e.pair 0)) message]
  | .decryptPreKey peer message, .ok _ => stores.openingDeeds peer message (e.pair 0)
  | _, _ => []

/-- The lives of the sessions with a peer after requests, from those before. -/
def Device.lives (peer : Address) : Device → List Life → List Request → List Life
  | _, lives, [] => lives
  | device, lives, request :: rest =>
    let deeds := if request.peer = peer then device.stores.deeds device.ambient.entropy request else []
    (device.serve request).2.lives peer (deeds.foldl (fun lives deed => deed.tell lives) lives) rest

/-- What a deed makes of the states of a record. -/
inductive Deed.Moves (stores : Stores) : Deed → List SessionState → List SessionState → Prop
  | bundle (bundle : PreKeyBundle) (signedPreKey : PublicKey) (base ratchet : KeyPair) (states : List SessionState) :
    Moves stores (.begins (.bundle bundle)) states (begun (stores.initiatorState bundle signedPreKey base ratchet) states)
  | message (message : PreKeyMessage) (signedPreKey : KeyPair) (oneTimePreKey : Option KeyPair) (states : List SessionState) :
    Moves stores (.begins (.message message)) states (begun (stores.responderState message signedPreKey oneTimePreKey) states)
  | sends {state : SessionState} {chain : ChainKey} {ratchetKey own remote : PublicKey} {pending : Option PendingPreKey}
    (makes : state.Makes chain ratchetKey own remote pending) (plaintext : Bytes) (rest : List SessionState) :
    Moves stores (.sends (state.wrapped own (state.sealed chain ratchetKey own remote plaintext) pending)) (state :: rest)
      (state.withSendingChainKey chain.next :: rest)
  | reads {states : List SessionState} {place : Nat} {state : SessionState} {message : RatchetMessage} {fresh : KeyPair}
    {opened : Opened} (found : states[place]? = some state) (opens : state.read message fresh = .ok opened) :
    Moves stores (.reads place message) states (opened.state :: states.eraseIdx place)

/-- What deeds in turn make of the states of a record. -/
inductive Deed.MovesAll (stores : Stores) : List Deed → List SessionState → List SessionState → Prop
  | nil (states : List SessionState) : MovesAll stores [] states states
  | cons {deed : Deed} {rest : List Deed} {before after final : List SessionState} (now : deed.Moves stores before after)
    (later : MovesAll stores rest after final) : MovesAll stores (deed :: rest) before final

theorem Deed.Moves.only {stores : Stores} {deed : Deed} {before after : List SessionState}
    (moves : deed.Moves stores before after) : MovesAll stores [deed] before after := .cons moves (.nil after)

namespace SessionRecord

variable {record record' : SessionRecord} {message : RatchetMessage} {opened : Opened} {peer : Address} {e e' : Entropy}

theorem install_of_few (few : record.archived.length ≤ maxArchivedStates) (state : SessionState) :
    (record.install state).states = begun state record.states ∧ (record.install state).archived.length ≤ maxArchivedStates := by
  unfold install archive
  cases present : record.current with
  | none =>
    have all : begun state record.states = state :: record.archived := by
      rw [states, present, begun, Option.toList_none, List.nil_append, List.take_succ_cons, List.take_of_length_le few]
    exact ⟨all.symm, few⟩
  | some current =>
    rw [states_of_current present, begun, List.take_succ_cons]
    dsimp only
    split
    · rename_i many
      have full : (current :: record.archived).length = maxArchivedStates + 1 := by
        rw [List.length_cons] at many ⊢
        omega
      rw [List.dropLast_eq_take, full]
      exact ⟨rfl, List.length_take_le _ _⟩
    · rename_i room
      rw [List.take_of_length_le (Nat.le_of_not_lt room)]
      exact ⟨rfl, Nat.le_of_not_lt room⟩

/-- A record that reads a message does so with the first state that can, which becomes current. -/
theorem read_recalls (few : record.archived.length ≤ maxArchivedStates)
    (run : record.read peer message e = (.ok (record', opened), e')) :
    ∃ state fresh, record.states[SessionState.readerPlace record.states message (e.pair 0)]? = some state ∧
      state.read message fresh = .ok opened ∧
      record'.states = opened.state :: record.states.eraseIdx (SessionState.readerPlace record.states message (e.pair 0)) ∧
      record'.archived.length ≤ maxArchivedStates := by
  obtain ⟨before, reader, behind, reads_first, rfl⟩ := (record.read_ok_iff few).mp (congrArg Prod.fst run)
  have opens := SessionState.opens_iff.mp reads_first.opens
  obtain ⟨_, able, -⟩ := SessionState.read_with_any opens (e.pair 0)
  have place : SessionState.readerPlace record.states message (e.pair 0) = before.length := by
    have unable : before.findIdx (fun state => (state.read message (e.pair 0)).isOk) = before.length := by
      refine List.findIdx_eq_length.mpr fun earlier member => ?_
      obtain ⟨fault, fails⟩ := reads_first.tried earlier member
      rw [fails.read]
      rfl
    rw [SessionState.readerPlace, reads_first.states, List.findIdx_append, unable, if_neg (Nat.lt_irrefl _), List.findIdx_cons,
      able]
    exact Nat.zero_add _
  have few' : (before ++ behind).length ≤ maxArchivedStates := by
    have count := congrArg List.length reads_first.states
    have current : record.current.toList.length ≤ 1 := by cases record.current <;> simp
    rw [SessionRecord.states, List.length_append, List.length_append, List.length_cons] at count
    rw [List.length_append]
    omega
  rw [place, reads_first.states]
  refine ⟨reader, _, ?_, opens, ?_, few'⟩
  · rw [List.getElem?_append_right (Nat.le_refl _), Nat.sub_self]
    rfl
  · rw [List.eraseIdx_append_of_length_le (Nat.le_refl _), Nat.sub_self]
    rfl

end SessionRecord

namespace Stores

variable {stores stores' : Stores} {peer : Address} {record : SessionRecord} {e : Entropy} {request : Request}

theorem recordOrFresh_of_insert (stores : Stores) (sessions : stores'.sessions = stores.sessions.insert peer record) :
    stores'.recordOrFresh peer = record := by
  rw [recordOrFresh, sessions, Std.ExtTreeMap.getElem?_insert_self]
  rfl

theorem serve_recordOrFresh_other (stores : Stores) (e : Entropy) {other : Address} (apart : request.peer ≠ other) :
    (stores.serve e request).2.1.recordOrFresh other = stores.recordOrFresh other := by
  rw [recordOrFresh, recordOrFresh, stores.serve_sessions_other e apart]

/-- The record of the peer is not too long, and its states have moved as the deeds say. -/
def Moved (stores : Stores) (peer : Address) (deeds : List Deed) (stores' : Stores) : Prop :=
  (stores'.recordOrFresh peer).archived.length ≤ maxArchivedStates ∧
    Deed.MovesAll stores deeds (stores.recordOrFresh peer).states (stores'.recordOrFresh peer).states

section

variable (few : (stores.recordOrFresh peer).archived.length ≤ maxArchivedStates)

include few

theorem acceptBundle_moved {bundle : PreKeyBundle} {base ratchet : KeyPair}
    (made : stores.acceptBundle peer bundle base ratchet = .ok stores') :
    stores.Moved peer [.begins (.bundle bundle)] stores' := by
  obtain ⟨_, signedPreKey, _, rfl⟩ := acceptBundle_eq_ok.mp made
  obtain ⟨states, few'⟩ := SessionRecord.install_of_few few (stores.initiatorState bundle signedPreKey base ratchet)
  rw [Moved, recordOrFresh_of_insert stores rfl, states]
  exact ⟨few', (Deed.Moves.bundle bundle signedPreKey base ratchet _).only⟩

theorem encrypt_moved {plaintext : Bytes} {message : Message} (made : stores.encrypt peer plaintext = .ok (message, stores')) :
    stores.Moved peer [.sends message] stores' := by
  obtain ⟨record, state, chain, ratchetKey, own, remote, pending, sends, rfl, rfl⟩ := encrypt_eq_ok.mp made
  rw [recordOrFresh_eq sends.loaded] at few
  rw [Moved, recordOrFresh_of_insert stores rfl, recordOrFresh_eq sends.loaded,
    SessionRecord.states_of_current sends.current]
  exact ⟨few, (Deed.Moves.sends sends.makes plaintext record.archived).only⟩

theorem decryptRatchet_moved {message : RatchetMessage} {e' : Entropy} {result : Bytes × MessageKeys}
    (made : stores.decryptRatchet peer message e = (.ok result, stores', e')) :
    stores.Moved peer [.reads (SessionState.readerPlace (stores.recordOrFresh peer).states message (e.pair 0)) message]
      stores' := by
  obtain ⟨record, record', opened, remote, loaded, read, _, _, _, _, rfl⟩ := decryptRatchet_eq_ok.mp made
  rw [recordOrFresh_eq loaded] at few
  obtain ⟨state, fresh, found, opens, states, few'⟩ := SessionRecord.read_recalls few read
  rw [Moved, recordOrFresh_of_insert stores rfl, recordOrFresh_eq loaded, states]
  exact ⟨few', (Deed.Moves.reads found opens).only⟩

theorem decryptPreKey_moved {message : PreKeyMessage} {e' : Entropy} {result : Bytes × MessageKeys}
    (made : stores.decryptPreKey peer message e = (.ok result, stores', e')) :
    stores.Moved peer (stores.openingDeeds peer message (e.pair 0)) stores' := by
  obtain ⟨accepted, used, record, opened, trusted, answers, read, _, _, rfl⟩ := decryptPreKey_eq_ok.mp made
  have accept := acceptMessage_eq_ok.mpr ⟨trusted, answers⟩
  have sessions : (stores.afterPreKey peer message record used).recordOrFresh peer = record :=
    recordOrFresh_of_insert stores rfl
  rw [Moved, openingDeeds, accept, sessions]
  cases answers with
  | known has =>
    obtain ⟨state, fresh, found, opens, states, few'⟩ := SessionRecord.read_recalls few read
    simp only [has, if_true, List.nil_append]
    exact ⟨few', states ▸ (Deed.Moves.reads found opens).only⟩
  | built unknown signedPreKey oneTimePreKey _ _ =>
    obtain ⟨begun_states, few⟩ :=
      SessionRecord.install_of_few few (stores.responderState message signedPreKey.keyPair oneTimePreKey)
    obtain ⟨state, fresh, found, opens, states, few'⟩ := SessionRecord.read_recalls few read
    simp only [unknown, Bool.false_eq_true, if_false]
    refine ⟨few', .cons (.message message signedPreKey.keyPair oneTimePreKey _) ?_⟩
    rw [states, ← begun_states]
    exact (Deed.Moves.reads found opens).only

/-- The states of a record move as the deeds of a request say. -/
theorem serve_moved (e : Entropy) (request : Request) (own : request.peer = peer) :
    stores.Moved peer (stores.deeds e request) (stores.serve e request).2.1 := by
  have stays : stores.Moved peer [] stores := ⟨few, .nil _⟩
  subst own
  cases request with
  | acceptBundle peer bundle =>
    cases made : stores.acceptBundle peer bundle (e.pair 0) (e.pair 1) with
    | error fault =>
      simp only [deeds, serve, made]
      exact stays
    | ok stores' =>
      simp only [deeds, serve, made]
      exact acceptBundle_moved few made
  | encrypt peer plaintext =>
    cases made : stores.encrypt peer plaintext with
    | error fault =>
      simp only [deeds, serve, made]
      exact stays
    | ok sent =>
      simp only [deeds, serve, made]
      exact encrypt_moved few made
  | decryptRatchet peer message =>
    rcases made : stores.decryptRatchet peer message e with ⟨_ | result, stores', e'⟩
    · simp only [deeds, serve, made, Except.map]
      exact decryptRatchet_error made ▸ stays
    · simp only [deeds, serve, made, Except.map]
      exact decryptRatchet_moved few made
  | decryptPreKey peer message =>
    rcases made : stores.decryptPreKey peer message e with ⟨_ | result, stores', e'⟩
    · simp only [deeds, serve, made, Except.map]
      rcases decryptPreKey_error made with ⟨_, rfl⟩ | ⟨_, rfl⟩ <;> exact stays
    · simp only [deeds, serve, made, Except.map]
      exact decryptPreKey_moved few made

end

end Stores

end DoubleRatchet
