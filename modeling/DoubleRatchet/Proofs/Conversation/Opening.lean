import DoubleRatchet.Proofs.Conversation.Steps
import DoubleRatchet.Proofs.Session.Requests

/-! How a conversation begins: one device accepts a bundle that the other holds the private keys of. -/
namespace DoubleRatchet

/-- Two devices that know nothing of each other, and a bundle. -/
structure Meeting where
  initiator : Device
  responder : Device
  /-- The address under which each side knows the other. -/
  peer : Side → Address
  bundle : PreKeyBundle
  signedPreKey : SignedPreKeyRecord
  oneTimePreKey : Option (UInt32 × PreKeyRecord)

namespace Meeting

def device (m : Meeting) : Side → Device
  | .initiator => m.initiator
  | .responder => m.responder

def stores (m : Meeting) (side : Side) : Stores := (m.device side).stores

def entropy (m : Meeting) (side : Side) : Entropy := (m.device side).ambient.entropy

def begin (m : Meeting) : Except Fault Unit × Device :=
  (Session.acceptBundle (m.peer .initiator) m.bundle : OnDevice Unit) m.initiator

def start (m : Meeting) : Conversation where
  ends
    | .initiator => { device := m.begin.2, peer := m.peer .initiator }
    | .responder => { device := m.responder, peer := m.peer .responder }

/-- The bundle is the responder's, who holds the keys that it offers; the initiator accepts it; and neither device has
had to do with the other. -/
structure Opens (m : Meeting) : Prop where
  accepted : m.begin.1 = .ok ()
  identityKey : m.bundle.identityKey = (m.stores .responder).identity.publicKey
  signedPreKey : m.bundle.signedPreKey = some m.signedPreKey.keyPair.publicKey
  signedPreKey_held : (m.stores .responder).signedPreKeys[m.bundle.signedPreKeyId]? = some m.signedPreKey
  oneTimePreKey : m.bundle.preKey = m.oneTimePreKey.map fun (id, record) => (id, record.keyPair.publicKey)
  oneTimePreKey_held : ∀ offer ∈ m.oneTimePreKey, offer.1 ≠ noPreKey ∧ (m.stores .responder).preKeys[offer.1]? = some offer.2
  sessions : ∀ side, (m.stores side).sessions = ∅
  identities : ∀ side, (m.stores side).identities = ∅
  denied : ∀ side, (m.stores side).denied = []

def held (m : Meeting) : Side → List KeyPair
  | .initiator => [m.initiator.stores.identity]
  | .responder => m.responder.stores.identity :: m.signedPreKey.keyPair :: (m.oneTimePreKey.map (·.2.keyPair)).toList

/-- The initiator's key pair for the handshake, and its first for the ratchet. -/
def baseKey (m : Meeting) : KeyPair := (m.entropy .initiator).pair 0

def ratchetKey (m : Meeting) : KeyPair := (m.entropy .initiator).pair 1

def handshake (m : Meeting) : Handshake.Initiator :=
  (m.stores .initiator).initiator m.bundle m.signedPreKey.keyPair.publicKey m.baseKey

def base (m : Meeting) : Rung where
  pair := m.signedPreKey.keyPair
  root := (RootKey.ofAgreements m.handshake.agreements).1
  seed := (RootKey.ofAgreements m.handshake.agreements).2.key

def first (m : Meeting) : Rung := m.base.next m.ratchetKey

def initiatorState (m : Meeting) : SessionState :=
  (m.stores .initiator).initiatorState m.bundle m.signedPreKey.keyPair.publicKey m.baseKey m.ratchetKey

def firstMessage (m : Meeting) (plaintext : Bytes) : RatchetMessage :=
  m.initiatorState.sealed (m.first.start.advance 0) m.first.key (m.stores .initiator).identity.publicKey
    (m.stores .responder).identity.publicKey plaintext

/-- What the initiator announces until it is answered. -/
def offer (m : Meeting) : PendingPreKey := ⟨m.bundle.preKey.map (·.1), m.bundle.signedPreKeyId, m.baseKey.publicKey⟩

def responderState (m : Meeting) (stores : Stores) (message : PreKeyMessage) : SessionState :=
  stores.responderState message m.signedPreKey.keyPair (m.oneTimePreKey.map (·.2.keyPair))

/-- The terms of a conversation in which each side draws no more key pairs than its limit. -/
def terms (m : Meeting) (limit : Side → Nat) : Terms where
  identity side := (m.stores side).identity.publicKey
  entropy := m.entropy
  limit
  keys side pair := pair ∈ m.held side ++ (List.range (limit side)).map (m.entropy side).pair
  base := m.base
  offer := m.offer

/-- The initiator has climbed above the responder's signed key. -/
def standing (m : Meeting) : Standing where
  own
    | .initiator => m.first
    | .responder => m.base
  rungs
    | .initiator => [m.first]
    | .responder => []
  place _ := 0
  count
    | .initiator => 2
    | .responder => 0
  leader := .initiator

/-- The key pairs that a side has used once the conversation has come to `c`. -/
def keyPairs (m : Meeting) (c : Conversation) (side : Side) : List KeyPair :=
  m.held side ++ (m.entropy side).drawn (c.ends side).entropy

/-- The public keys among them that a side may ratchet with. -/
def ratchetKeys (m : Meeting) (c : Conversation) (side : Side) : List PublicKey :=
  (match side with
    | .initiator => []
    | .responder => [m.signedPreKey.keyPair.publicKey]) ++
  ((m.entropy side).drawn (c.ends side).entropy).map KeyPair.publicKey

/-- Key pairs of the two sides agree, and no side meets a ratchet key twice. -/
structure Keyed (m : Meeting) (c : Conversation) : Prop where
  agrees : ∀ a ∈ m.keyPairs c .initiator, ∀ b ∈ m.keyPairs c .responder, a.Agrees b
  apart : ∀ side, (m.ratchetKeys c side).Nodup

variable {m : Meeting} {limit : Side → Nat} {c : Conversation}

namespace Opens

theorem offer_stored (opens : m.Opens) : (StoredPendingPreKey.ofPending m.offer).load = .ok m.offer := by
  have numbered : (m.bundle.preKey.map (·.1)).filter (· != noPreKey) = m.bundle.preKey.map (·.1) := by
    rw [opens.oneTimePreKey]
    cases offered : m.oneTimePreKey with
    | none => rfl
    | some key =>
      have other := (opens.oneTimePreKey_held key offered).1
      simp [other]
  simp only [StoredPendingPreKey.load, StoredPendingPreKey.ofPending, offer, numbered, PublicKey.deserialize_serialize]
  rfl

theorem oneTimeKey (opens : m.Opens) : (m.stores .responder).oneTimeKey m.offer.preKeyId =
    .ok (m.oneTimePreKey.map (·.2.keyPair)) := by
  rw [offer, opens.oneTimePreKey]
  cases offered : m.oneTimePreKey with
  | none => rfl
  | some key =>
    have held := (opens.oneTimePreKey_held key offered).2
    simp only [Option.map_some, Stores.oneTimeKey, held]
    rfl

end Opens

theorem tracks_new {state : SessionState} {own remote : PublicKey} {rung : Rung} {place : ChainKey} (known : List Rung)
    (formed : state.Formed own remote rung.pair rung.root place) (start : rung.start = place)
    (receivers : state.receivers = known.map fun peer => .receiving peer.key peer.start)
    (few : known.length ≤ 1) : state.Tracks own remote rung 0 known [] := by
  refine ⟨start.symm ▸ formed, ?_, ?_, nofun, nofun⟩
  · match known, few with
    | [], _ => exact receivers
    | [peer], _ => exact receivers
  · match known, few with
    | [], _ => exact List.nodup_nil
    | [peer], _ => exact List.nodup_singleton _

namespace Keyed

variable (keyed : m.Keyed c) (final : ∀ side, (c.ends side).entropy = (m.entropy side).skip (limit side))

include keyed final

theorem sound (opens : m.Opens) : (m.terms limit).Sound where
  agrees side a b ours theirs := by
    have agrees := keyed.agrees
    simp only [keyPairs, final, Entropy.drawn_skip] at agrees
    cases side with
    | initiator => exact agrees a ours b theirs
    | responder => exact (agrees b theirs a ours).symm
  drawn side n lt := List.mem_append_right _ (List.mem_map_of_mem (List.mem_range.mpr lt))
  apart side i j i_lt j_lt same := by
    have apart := (List.nodup_append.mp (keyed.apart side)).2.1
    rw [final, Entropy.drawn_skip, List.map_map] at apart
    exact List.inj_on_of_nodup_map apart (List.mem_range.mpr i_lt) (List.mem_range.mpr j_lt) same
  offer := opens.offer_stored

theorem first_agrees (began : 2 ≤ limit .initiator) : m.base.pair.Agrees m.first.pair := by
  refine (keyed.agrees m.ratchetKey ?_ m.signedPreKey.keyPair ?_).symm
  · rw [keyPairs, final, Entropy.drawn_skip]
    exact List.mem_append_right _ (List.mem_map_of_mem (List.mem_range.mpr began))
  · exact List.mem_append_left _ (List.mem_cons_of_mem _ List.mem_cons_self)

theorem climbed (began : 2 ≤ limit .initiator) : m.standing.Climbed (m.terms limit) where
  above := rfl
  agrees := keyed.first_agrees final began
  top := ⟨[], rfl⟩
  apart side := by cases side <;> exact List.nodup_singleton _
  fresh side rung member n le lt same := by
    have apart := keyed.apart side
    simp only [ratchetKeys, final, Entropy.drawn_skip, List.map_map] at apart
    cases side with
    | initiator =>
      cases List.mem_singleton.mp member
      have number := List.inj_on_of_nodup_map apart (List.mem_range.mpr began) (List.mem_range.mpr lt) same
      subst number
      exact absurd le (Nat.not_succ_le_self 1)
    | responder =>
      cases List.mem_singleton.mp member
      exact (List.nodup_cons.mp apart).1 (List.mem_map.mpr ⟨n, List.mem_range.mpr lt, same.symm⟩)
  keys side := by
    cases side with
    | initiator => exact List.mem_append_right _ (List.mem_map_of_mem (List.mem_range.mpr began))
    | responder => exact List.mem_append_left _ (List.mem_cons_of_mem _ List.mem_cons_self)

theorem agreements (opens : m.Opens) (began : 2 ≤ limit .initiator) {stores : Stores}
    (identity : stores.identity = (m.stores .responder).identity) {message : PreKeyMessage}
    (sender : message.identityKey = (m.stores .initiator).identity.publicKey)
    (baseKey : ∀ key : PrivateKey, key.agree message.baseKey = key.agree m.baseKey.publicKey) :
    (stores.responder message m.signedPreKey.keyPair (m.oneTimePreKey.map (·.2.keyPair))).agreements =
      m.handshake.agreements := by
  have initiator : (m.stores .initiator).identity ∈ m.keyPairs c .initiator := List.mem_append_left _ List.mem_cons_self
  have base : m.baseKey ∈ m.keyPairs c .initiator := by
    rw [keyPairs, final, Entropy.drawn_skip]
    exact List.mem_append_right _ (List.mem_map_of_mem (List.mem_range.mpr (Nat.lt_of_succ_lt began)))
  have held : ∀ pair ∈ m.held .responder, pair ∈ m.keyPairs c .responder := fun _ => List.mem_append_left _
  have responder : stores.identity ∈ m.keyPairs c .responder := identity ▸ held _ List.mem_cons_self
  have signedPreKey := held m.signedPreKey.keyPair (List.mem_cons_of_mem _ List.mem_cons_self)
  refine Handshake.agreements_eq _ _ rfl ?_ ?_ sender baseKey (keyed.agrees _ initiator _ signedPreKey)
    (keyed.agrees _ base _ responder) (keyed.agrees _ base _ signedPreKey) ?_
  · exact opens.identityKey.trans (congrArg KeyPair.publicKey identity.symm)
  · simp only [handshake, Stores.initiator, Stores.responder, opens.oneTimePreKey, Option.map_map]
    rfl
  · intro pair member
    refine keyed.agrees _ base _ (held _ (List.mem_cons_of_mem _ (List.mem_cons_of_mem _ ?_)))
    exact Option.mem_toList.mpr member

/-- The responder's state for a message of the initiator, whose base key may come in other bytes. -/
theorem responderState_tracks (opens : m.Opens) (began : 2 ≤ limit .initiator) {stores : Stores}
    (identity : stores.identity = (m.stores .responder).identity) {message : PreKeyMessage}
    (sender : message.identityKey = (m.stores .initiator).identity.publicKey)
    (baseKey : ∀ key : PrivateKey, key.agree message.baseKey = key.agree m.baseKey.publicKey) :
    (m.responderState stores message).Tracks (m.stores .responder).identity.publicKey
      (m.stores .initiator).identity.publicKey m.base 0 [] [] := by
  have formed := SessionState.responderState_formed stores message m.signedPreKey.keyPair (m.oneTimePreKey.map (·.2.keyPair))
  rw [keyed.agreements final opens began identity sender baseKey, identity, sender] at formed
  exact tracks_new [] formed rfl rfl (Nat.zero_le 1)

end Keyed

namespace Opens

variable (opens : m.Opens)

include opens

theorem recordOrFresh (side : Side) (peer : Address) : (m.stores side).recordOrFresh peer = .fresh := by
  rw [Stores.recordOrFresh, opens.sessions side]
  rfl

theorem begun : m.bundle.verified = .ok m.signedPreKey.keyPair.publicKey ∧
    m.begin.2.stores = (m.stores .initiator).withSession (m.peer .initiator) m.bundle.identityKey (.alone m.initiatorState) ∧
    m.begin.2.ambient.entropy = (m.entropy .initiator).skip 2 := by
  obtain ⟨run, left⟩ := Session.acceptBundle_run (Prod.ext opens.accepted rfl : m.begin = (.ok (), m.begin.2))
  obtain ⟨_, signedPreKey, verified, made⟩ := Stores.acceptBundle_eq_ok.mp run
  have signed : signedPreKey = m.signedPreKey.keyPair.publicKey :=
    Option.some.inj ((PreKeyBundle.verified_eq_ok.mp verified).1.symm.trans opens.signedPreKey)
  have fresh : m.initiator.stores.recordOrFresh (m.peer .initiator) = .fresh := opens.recordOrFresh .initiator _
  rw [signed] at verified
  rw [fresh, signed] at made
  exact ⟨verified, made, left⟩

theorem trusting (side : Side) (peer : Address) (identity : PublicKey) : (m.stores side).Trusting peer identity := by
  refine ⟨opens.denied side, fun other saved => ?_⟩
  rw [opens.identities side] at saved
  cases saved

theorem initiatorState_tracks : m.initiatorState.Tracks (m.stores .initiator).identity.publicKey
    (m.stores .responder).identity.publicKey m.first 0 [m.base] [] := by
  have formed := SessionState.initiatorState_formed (m.stores .initiator) m.bundle m.signedPreKey.keyPair.publicKey m.baseKey
    m.ratchetKey
  rw [opens.identityKey] at formed
  exact tracks_new [m.base] formed rfl (SessionState.initiatorState_receivers ..) (Nat.le_refl 1)

theorem initiator_stands : (m.start.ends .initiator).Stands (m.terms limit) m.standing .initiator := by
  obtain ⟨-, stores, left⟩ := opens.begun
  have keeps := Stores.keeps_withSession (opens.trusting .initiator (m.peer .initiator) m.bundle.identityKey) m.initiatorState
  rw [← stores] at keeps
  rw [opens.identityKey] at keeps
  exact ⟨left, keeps.trusting, rfl, Nat.succ_pos _, .engaged m.initiatorState keeps.kept
    ⟨opens.initiatorState_tracks, rfl⟩ List.mem_cons_self (.inr ⟨rfl, rfl⟩)⟩

theorem responder_stands (keyed : m.Keyed c) (final : ∀ side, (c.ends side).entropy = (m.entropy side).skip (limit side))
    (began : 2 ≤ limit .initiator) : (m.start.ends .responder).Stands (m.terms limit) m.standing .responder := by
  refine ⟨rfl, opens.trusting .responder _ _, rfl, Nat.succ_pos _, .awaiting rfl (fun answered => answered rfl) rfl ?_ ?_⟩
  · have sessions : (m.start.ends .responder).stores.sessions = ∅ := opens.sessions .responder
    rw [sessions]
    rfl
  · intro registrationId inner
    have answers : (m.stores .responder).Answers .fresh ((m.terms limit).opening registrationId inner) _ _ :=
      .built rfl m.signedPreKey _ opens.signedPreKey_held opens.oneTimeKey
    refine ⟨_, _, ⟨?_, rfl⟩, Stores.respond_eq_ok.mpr answers⟩
    exact keyed.responderState_tracks final opens began rfl rfl fun _ => rfl

end Opens

theorem Keyed.reads_first (keyed : m.Keyed c) (final : ∀ side, (c.ends side).entropy = (m.entropy side).skip (limit side))
    (opens : m.Opens) (began : 2 ≤ limit .initiator) (stores : Stores)
    (identity : stores.identity = (m.stores .responder).identity) (message : PreKeyMessage)
    (sender : message.identityKey = (m.stores .initiator).identity.publicKey)
    (baseKey : ∀ key : PrivateKey, key.agree message.baseKey = key.agree m.baseKey.publicKey) (plaintext : Bytes)
    (fresh : KeyPair) :
    ∃ opened, (m.responderState stores message).read (m.firstMessage plaintext) fresh = .ok opened := by
  have written := opens.initiatorState_tracks.sealed_written (by decide) plaintext
  have tracks := keyed.responderState_tracks final opens began identity sender baseKey
  obtain ⟨opened, run, _⟩ := tracks.reads_above rfl (keyed.first_agrees final began) List.not_mem_nil written
    (Nat.zero_le _) fresh
  exact ⟨opened, run⟩

theorem Opens.stands (opens : m.Opens) (keyed : m.Keyed c)
    (final : ∀ side, (c.ends side).entropy = (m.entropy side).skip (limit side)) (began : 2 ≤ limit .initiator) :
    m.start.Stands (m.terms limit) m.standing where
  climbed := keyed.climbed final began
  ends side := by
    cases side with
    | initiator => exact opens.initiator_stands
    | responder => exact opens.responder_stands keyed final began
  posted := nofun
  apart := List.Pairwise.nil
  read side heading member := by cases side <;> cases member

theorem Opens.start_entropy (opens : m.Opens) (side : Side) :
    (m.start.ends side).entropy = (m.entropy side).skip (m.standing.count side) := by
  cases side with
  | initiator => exact opens.begun.2.2
  | responder => rfl

theorem Opens.run_skips (opens : m.Opens) (events : List Conversation.Event) : ∃ limit : Side → Nat, 2 ≤ limit .initiator ∧
    ∀ side, ((m.start.run events).ends side).entropy = (m.entropy side).skip (limit side) := by
  choose more skips using m.start.run_skips events
  refine ⟨fun side => m.standing.count side + more side, Nat.le_add_right 2 _, fun side => ?_⟩
  rw [skips, opens.start_entropy, Entropy.skip_skip]

end Meeting

/-! ## The two devices meet -/

def Sample.meeting : Meeting where
  initiator := initiating
  responder := responding
  peer
    | .initiator => responder
    | .responder => initiator
  bundle
  signedPreKey := ⟨1, 0, signedPreKey, signature⟩
  oneTimePreKey := none

theorem Sample.meeting_opens : meeting.Opens where
  accepted := by
    have ok : meeting.begin.1.isOk := by decide +kernel
    cases result : meeting.begin.1 with
    | ok u => rfl
    | error fault =>
      rw [result] at ok
      cases ok
  identityKey := rfl
  signedPreKey := rfl
  signedPreKey_held := Std.ExtTreeMap.getElem?_insert_self
  oneTimePreKey := rfl
  oneTimePreKey_held := nofun
  sessions side := by cases side <;> rfl
  identities side := by cases side <;> rfl
  denied side := by cases side <;> rfl

theorem Sample.meeting_keyed {c : Conversation}
    (entropy : ∀ side, (c.ends side).entropy = (meeting.entropy side).skip (meeting.standing.count side)) :
    meeting.Keyed c := by
  constructor
  · rw [Meeting.keyPairs, Meeting.keyPairs, entropy, entropy, Entropy.drawn_skip, Entropy.drawn_skip]
    unfold KeyPair.Agrees
    decide +kernel
  · intro side
    unfold Meeting.ratchetKeys
    rw [entropy, Entropy.drawn_skip]
    cases side with
    | initiator => decide +kernel
    | responder => exact List.nodup_singleton _

end DoubleRatchet
