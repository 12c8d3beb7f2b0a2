import DoubleRatchet.Proofs.Delivery
import DoubleRatchet.Proofs.Sessions.Records

/-! One of the sessions of a correspondence. Of its two parties one has begun it; what both have of it at first follows
from their identities, the offer and the key pairs that the one who began it has drawn. -/
namespace DoubleRatchet

/-- What a correspondence begins from: for each party its identity, its randomness and how much of it is drawn, the key
pairs that it may use, and its offers. -/
structure Setting where
  identity : Party → KeyPair
  entropy : Party → Entropy
  limit : Party → Nat
  keys : Party → KeyPair → Prop
  offered : Party → Offer → Prop

/-- The key pairs of one party agree with those of the other, and those that are drawn differ from one another and from
the keys that are offered. -/
structure Setting.Sound (w : Setting) : Prop where
  agrees : ∀ party a b, w.keys party a → w.keys party.other b → a.Agrees b
  identity : ∀ party, w.keys party (w.identity party)
  drawn : ∀ party n, n < w.limit party → w.keys party ((w.entropy party).pair n)
  offer : ∀ party offer, w.offered party offer → (∀ pair ∈ offer.pairs, w.keys party pair) ∧
    ∀ key ∈ offer.oneTimePreKey, key.1 ≠ noPreKey
  apart : ∀ a b m n, m < w.limit a → n < w.limit b →
    ((w.entropy a).pair m).publicKey = ((w.entropy b).pair n).publicKey → a = b ∧ m = n
  unoffered : ∀ party offer n, w.offered party offer → n < w.limit party →
    ((w.entropy party).pair n).publicKey ≠ offer.signedPreKey.publicKey

namespace Thread

variable (thread : Thread)

/-! ## The two parties -/

def role (party : Party) : Side := if party = thread.starter then .initiator else .responder

def party : Side → Party
  | .initiator => thread.starter
  | .responder => thread.starter.other

@[simp] theorem role_starter : thread.role thread.starter = .initiator := if_pos rfl

@[simp] theorem role_answerer : thread.role thread.starter.other = .responder := if_neg (Party.other_ne _)

@[simp] theorem party_role (party : Party) : thread.party (thread.role party) = party := by
  rcases Party.eq_or_eq_other party thread.starter with rfl | rfl
  · rw [role_starter]
    rfl
  · rw [role_answerer]
    rfl

@[simp] theorem role_party (side : Side) : thread.role (thread.party side) = side := by
  cases side with
  | initiator => exact thread.role_starter
  | responder => exact thread.role_answerer

theorem party_other (side : Side) : thread.party side.other = (thread.party side).other := by
  cases side with
  | initiator => rfl
  | responder => exact (Party.other_other _).symm

theorem role_other (party : Party) : thread.role party.other = (thread.role party).other := by
  have same := thread.role_party (thread.role party).other
  rwa [party_other, party_role] at same

theorem starter_of_role {party : Party} (begins : thread.role party = .initiator) : party = thread.starter := by
  rw [← thread.party_role party, begins]
  rfl

theorem answerer_of_role {party : Party} (responds : thread.role party = .responder) : party = thread.starter.other := by
  rw [← thread.party_role party, responds]
  rfl

/-! ## The handshake -/

variable (w : Setting)

def handshake : Handshake.Initiator where
  identity := w.identity thread.starter
  base := thread.base
  peerIdentity := (w.identity thread.starter.other).publicKey
  peerSignedPreKey := thread.offer.signedPreKey.publicKey
  peerOneTimePreKey := thread.offer.oneTimePreKey.map (·.2.publicKey)
  peerRatchetKey := thread.offer.signedPreKey.publicKey

/-- The rung that the offer stands for. -/
def floor : Rung where
  pair := thread.offer.signedPreKey
  root := (RootKey.ofAgreements (thread.handshake w).agreements).1
  seed := (RootKey.ofAgreements (thread.handshake w).agreements).2.key

/-- What the party that has begun the session announces until it is answered. -/
def pending : PendingPreKey where
  preKeyId := thread.offer.oneTimePreKey.map (·.1)
  signedPreKeyId := thread.offer.signedPreKeyId
  baseKey := thread.base.publicKey

def terms : Terms where
  identity side := (w.identity (thread.party side)).publicKey
  entropy side := w.entropy (thread.party side)
  limit side := w.limit (thread.party side)
  keys side := w.keys (thread.party side)
  base := thread.floor w
  offer := thread.pending

/-- Where the session stands when the starter has drawn `count` key pairs before it. -/
def begun (count : Nat) : Standing where
  own
    | .initiator => (thread.floor w).next ((w.entropy thread.starter).pair (count + 1))
    | .responder => thread.floor w
  rungs
    | .initiator => [(thread.floor w).next ((w.entropy thread.starter).pair (count + 1))]
    | .responder => []
  place _ := 0
  count
    | .initiator => count + 2
    | .responder => 0
  leader := .initiator

@[simp] theorem terms_identity (party : Party) :
    (thread.terms w).identity (thread.role party) = (w.identity party).publicKey := by
  simp only [terms, party_role]

@[simp] theorem terms_identity_other (party : Party) :
    (thread.terms w).identity (thread.role party).other = (w.identity party.other).publicKey := by
  rw [← role_other, terms_identity]

variable {thread w}

theorem terms_sound (sound : w.Sound) (offered : w.offered thread.starter.other thread.offer) :
    (thread.terms w).Sound where
  agrees side a b ours theirs := by
    refine sound.agrees (thread.party side) a b ours ?_
    rw [← party_other]
    exact theirs
  drawn side n lt := sound.drawn _ n lt
  apart side m n m_lt n_lt same := (sound.apart _ _ m n m_lt n_lt same).2
  offer := by
    have numbered : (thread.offer.oneTimePreKey.map (·.1)).filter (· != noPreKey) = thread.offer.oneTimePreKey.map (·.1) := by
      cases kept : thread.offer.oneTimePreKey with
      | none => rfl
      | some key =>
        have other := (sound.offer _ _ offered).2 key kept
        simp [other]
    simp only [StoredPendingPreKey.load, StoredPendingPreKey.ofPending, terms, pending, numbered,
      PublicKey.deserialize_serialize]
    rfl

theorem begun_climbed (sound : w.Sound) (offered : w.offered thread.starter.other thread.offer) {count : Nat}
    (drawn : count + 1 < w.limit thread.starter) : (thread.begun w count).Climbed (thread.terms w) := by
  have keys := sound.drawn thread.starter _ drawn
  have held := (sound.offer _ _ offered).1 thread.offer.signedPreKey List.mem_cons_self
  refine ⟨rfl, ?_, ⟨[], rfl⟩, fun side => ?_, fun side rung member n le lt same => ?_, fun side => ?_⟩
  · exact (sound.agrees thread.starter _ _ keys held).symm
  · cases side <;> exact List.nodup_singleton _
  · cases side with
    | initiator =>
      cases List.mem_singleton.mp member
      have number := (sound.apart thread.starter thread.starter _ n drawn lt same).2
      subst number
      exact absurd le (Nat.not_succ_le_self _)
    | responder =>
      cases List.mem_singleton.mp member
      exact sound.unoffered _ _ n offered lt same.symm
  · cases side with
    | initiator => exact keys
    | responder => exact held

/-! ## The first states -/

theorem initiatorState_stands {stores : Stores} (identity : stores.identity = w.identity thread.starter) (count : Nat) :
    (stores.initiatorState (thread.offer.bundle (w.identity thread.starter.other).publicKey)
      thread.offer.signedPreKey.publicKey thread.base ((w.entropy thread.starter).pair (count + 1))).Stands (thread.terms w)
      (thread.begun w count) .initiator [] := by
  have keys : stores.initiator (thread.offer.bundle (w.identity thread.starter.other).publicKey)
      thread.offer.signedPreKey.publicKey thread.base = thread.handshake w := by
    rw [Stores.initiator, identity, handshake, Offer.bundle, Option.map_map]
    rfl
  have formed := SessionState.initiatorState_formed stores
    (thread.offer.bundle (w.identity thread.starter.other).publicKey) thread.offer.signedPreKey.publicKey thread.base
    ((w.entropy thread.starter).pair (count + 1))
  have receivers := SessionState.initiatorState_receivers stores
    (thread.offer.bundle (w.identity thread.starter.other).publicKey) thread.offer.signedPreKey.publicKey thread.base
    ((w.entropy thread.starter).pair (count + 1))
  rw [keys] at formed receivers
  rw [identity] at formed
  exact ⟨Meeting.tracks_new [thread.floor w] formed rfl receivers (Nat.le_refl 1), rfl⟩

theorem initiatorState_pending (stores : Stores) (identity signedPreKey : PublicKey) (ratchet : KeyPair) :
    (stores.initiatorState (thread.offer.bundle identity) signedPreKey thread.base ratchet).pendingPreKey =
      some (.ofPending thread.pending) := by
  have announced : (thread.offer.bundle identity).preKey.map (·.1) = thread.offer.oneTimePreKey.map (·.1) :=
    Option.map_map ..
  rw [pending, ← announced]
  rfl

/-- Both sides compute the same agreements while the offer is held. -/
theorem agreements_eq (sound : w.Sound) (offered : w.offered thread.starter.other thread.offer)
    (base : w.keys thread.starter thread.base) {stores : Stores} (identity : stores.identity = w.identity thread.starter.other)
    {message : PreKeyMessage} (sender : message.identityKey = (w.identity thread.starter).publicKey)
    (baseKey : message.baseKey = thread.base.publicKey) :
    (stores.responder message thread.offer.signedPreKey (thread.offer.oneTimePreKey.map (·.2))).agreements =
      (thread.handshake w).agreements := by
  have held := (sound.offer _ _ offered).1
  have agrees := sound.agrees thread.starter
  have signedPreKey := held thread.offer.signedPreKey List.mem_cons_self
  have own : w.keys thread.starter.other stores.identity := identity ▸ sound.identity _
  refine Handshake.agreements_eq _ _ rfl ?_ ?_ sender (fun key => congrArg key.agree baseKey)
    (agrees _ _ (sound.identity _) signedPreKey) (agrees _ _ base own) (agrees _ _ base signedPreKey) ?_
  · exact congrArg KeyPair.publicKey identity.symm
  · rw [handshake, Stores.responder, Option.map_map]
    rfl
  · intro pair member
    exact agrees _ _ base (held _ (List.mem_cons_of_mem _ (Option.mem_toList.mpr member)))

/-- The responder's state for a message that announces the session, as long as it has neither sent nor received there. -/
theorem responderState_stands (sound : w.Sound) (offered : w.offered thread.starter.other thread.offer)
    (base : w.keys thread.starter thread.base) {stores : Stores} (identity : stores.identity = w.identity thread.starter.other)
    {g : Standing} (ground : g.own .responder = thread.floor w) (start : g.place .responder = 0)
    (unheard : g.heard .responder = []) (registrationId : UInt32) (inner : RatchetMessage) :
    (stores.responderState ((thread.terms w).opening registrationId inner) thread.offer.signedPreKey
      (thread.offer.oneTimePreKey.map (·.2))).Stands (thread.terms w) g .responder [] := by
  have formed := SessionState.responderState_formed stores ((thread.terms w).opening registrationId inner)
    thread.offer.signedPreKey (thread.offer.oneTimePreKey.map (·.2))
  rw [agreements_eq sound offered base identity rfl rfl, identity] at formed
  refine ⟨?_, rfl⟩
  have known : g.known (thread.terms w) .responder = [] := by
    rw [Standing.known, unheard]
    rfl
  rw [known, ground, start]
  exact Meeting.tracks_new [] formed rfl rfl (Nat.zero_le 1)

end Thread

end DoubleRatchet
