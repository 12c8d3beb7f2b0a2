import DoubleRatchet.Proofs.Conversation.Opening

/-! Both ends of a session derive the same keys: those of the handshake, and those of every step of the ratchet that
follows it. The sides climb rungs in turn, and the one that waits stands a rung above the one that steps. -/
namespace DoubleRatchet

namespace Handshake

theorem Initiator.state_receivingChainKey? (keys : Initiator) (ratchet : KeyPair) :
    (keys.state ratchet).receivingChainKey? keys.peerRatchetKey = .ok (some (RootKey.ofAgreements keys.agreements).2) := by
  refine SessionState.receivingChainKey?_eq_some.mpr ⟨.receiving keys.peerRatchetKey _, ?_, SessionState.receiving_key _ _⟩
  exact List.find?_cons_of_pos (by simp [Chain.receiving])

/-- The key pairs of both sides. -/
structure Parties where
  initiatorIdentity : KeyPair
  base : KeyPair
  responderIdentity : KeyPair
  signedPreKey : KeyPair
  oneTimePreKey : Option KeyPair
  /-- The responder's first pair for the ratchet, often its signed one. -/
  ratchet : KeyPair

namespace Parties

def initiator (parties : Parties) : Initiator where
  identity := parties.initiatorIdentity
  base := parties.base
  peerIdentity := parties.responderIdentity.publicKey
  peerSignedPreKey := parties.signedPreKey.publicKey
  peerOneTimePreKey := parties.oneTimePreKey.map (·.publicKey)
  peerRatchetKey := parties.ratchet.publicKey

def responder (parties : Parties) : Responder where
  identity := parties.responderIdentity
  signedPreKey := parties.signedPreKey
  oneTimePreKey := parties.oneTimePreKey
  ratchet := parties.ratchet
  peerIdentity := parties.initiatorIdentity.publicKey
  peerBaseKey := parties.base.publicKey

/-- The pairs that the sides ratchet with in turn: the responder's first, then those that are drawn. -/
def ratchetPair (parties : Parties) (e : Entropy) : Nat → KeyPair
  | 0 => parties.ratchet
  | n + 1 => e.pair n

/-- The pairs that meet in the handshake agree, and so do any two that meet in the first steps of the ratchet. -/
structure Agree (parties : Parties) (e : Entropy) (steps : Nat) : Prop where
  identity_signed : parties.initiatorIdentity.Agrees parties.signedPreKey
  base_identity : parties.base.Agrees parties.responderIdentity
  base_signed : parties.base.Agrees parties.signedPreKey
  base_oneTime : ∀ pair ∈ parties.oneTimePreKey, parties.base.Agrees pair
  ratchets : ∀ k < steps, (parties.ratchetPair e k).Agrees (parties.ratchetPair e (k + 1))

theorem Agree.agreements {parties : Parties} {e : Entropy} {steps : Nat} (agree : parties.Agree e steps) :
    parties.responder.agreements = parties.initiator.agreements :=
  agreements_eq parties.initiator parties.responder rfl rfl rfl rfl (fun _ => rfl) agree.identity_signed agree.base_identity
    agree.base_signed agree.base_oneTime

def rung (parties : Parties) (e : Entropy) : Nat → Rung
  | 0 =>
    let (root, start) := RootKey.ofAgreements parties.initiator.agreements
    ⟨parties.ratchet, root, start.key⟩
  | n + 1 => (parties.rung e n).next (e.pair n)

theorem rung_pair (parties : Parties) (e : Entropy) (n : Nat) : (parties.rung e n).pair = parties.ratchetPair e n := by
  cases n <;> rfl

end Parties

end Handshake

/-! ## Steps in turn -/

/-- Two sides of a session, and which of them takes the next step of the ratchet. -/
structure Turn where
  stepping : SessionState
  waiting : SessionState

namespace Turn

/-- One side takes a step on the other's ratchet key, and then it is the other's turn. -/
def step (turn : Turn) : Act Turn := do
  let peer ← turn.waiting.ratchetKey
  return ⟨turn.waiting, ← turn.stepping.stepRatchet peer⟩

def steps : Nat → Turn → Act Turn
  | 0, turn => return turn
  | n + 1, turn => do (← steps n turn).step

/-- A step of the ratchet that brings one side to what the other has: it derives the other's root key and a chain to
receive on, which is the one the other sends on, and goes on from that root key with a new pair. -/
structure StepsTo (turn next : Turn) (peer : PublicKey) (root : RootKey) (chain : ChainKey) (fresh : KeyPair) : Prop where
  others : next.stepping = turn.waiting
  peerKey : turn.waiting.ratchetKey = .ok peer
  peerRoot : turn.waiting.root = .ok root
  peerChain : turn.waiting.sendingChainKey = .ok chain
  passes : ∃ ours old, turn.stepping.ratchetBase = .ok (ours, old) ∧ old.derive peer ours = (root, chain)
  receiving : next.waiting.receivers.getLast? = some (.receiving peer chain)
  /-- A side that knows no older chain for the other's key finds the new one. -/
  found : turn.stepping.receivingChain? peer = none → next.waiting.receivingChainKey? peer = .ok (some chain)
  continues : next.waiting.root = .ok (root.derive peer fresh.privateKey).1 ∧
    next.waiting.sendingChainKey = .ok (root.derive peer fresh.privateKey).2 ∧
    next.waiting.ratchetKey = .ok fresh.publicKey

/-- The sides stand on neighbouring rungs, and the one that waits has climbed above the other. -/
structure Stands (turn : Turn) (below above : Rung) : Prop where
  stepping : ∃ own remote, turn.stepping.Formed own remote below.pair below.root below.start
  waiting : ∃ own remote, turn.waiting.Formed own remote above.pair above.root above.start
  climbed : above = below.next above.pair

variable {turn : Turn} {below above : Rung}

theorem Stands.step (stands : turn.Stands below above) (agrees : below.pair.Agrees above.pair) (e : Entropy) :
    ∃ next, Act.Yields turn.step e (.ok next) (e.skip 1) ∧ next.Stands above (above.next (e.pair 0)) ∧
      turn.StepsTo next above.key above.root above.start (e.pair 0) := by
  obtain ⟨_, _, ours⟩ := stands.stepping
  obtain ⟨_, _, theirs⟩ := stands.waiting
  have derived := above.derive_of_above stands.climbed agrees
  have stepped := ours.stepped above.key (e.pair 0)
  rw [derived] at stepped
  refine ⟨⟨turn.waiting, turn.stepping.stepped below.pair.privateKey below.root above.key (e.pair 0) below.start⟩, ?_,
    ⟨stands.waiting, ⟨_, _, stepped⟩, rfl⟩, ?_⟩
  · unfold Turn.step
    rw [theirs.ratchetKey]
    exact .bind (.lift _ _) (.bind (ours.stepRatchet_yields above.key e) (.pure _ _))
  · exact {
      others := rfl
      peerKey := theirs.ratchetKey
      peerRoot := theirs.root_eq
      peerChain := theirs.sendingChainKey
      passes := ⟨_, _, ours.ratchetBase, derived⟩
      receiving := by rw [SessionState.stepped_receivers_eq, List.getLast?_concat, derived]
      found := fun missing => SessionState.receivingChainKey?_eq_some.mpr
        ⟨_, SessionState.stepped_receivingChain? missing _ _ _ _, by rw [derived, SessionState.receiving_key]⟩
      continues := ⟨stepped.root_eq, stepped.sendingChainKey, stepped.ratchetKey⟩ }

theorem Stands.steps {rungs : Nat → Rung} {e : Entropy} (climbs : ∀ k, rungs (k + 1) = (rungs k).next (e.pair k))
    (stands : turn.Stands (rungs 0) (rungs 1)) (n : Nat) (agrees : ∀ k < n, (rungs k).pair.Agrees (rungs (k + 1)).pair) :
    ∃ last, Act.Yields (steps n turn) (e.skip 1) (.ok last) (e.skip (n + 1)) ∧ last.Stands (rungs n) (rungs (n + 1)) := by
  induction n with
  | zero => exact ⟨turn, .pure _ _, stands⟩
  | succ n ih =>
    obtain ⟨last, run, stands⟩ := ih fun k lt => agrees k (Nat.lt_succ_of_lt lt)
    obtain ⟨next, stepped, stands, _⟩ := stands.step (agrees n (Nat.lt_succ_self n)) (e.skip (n + 1))
    rw [Entropy.skip_skip] at stepped
    rw [Entropy.pair_skip, Nat.add_zero, ← climbs (n + 1)] at stands
    exact ⟨next, .bind run stepped, stands⟩

end Turn

/-! ## From the handshake on -/

namespace Handshake.Parties

variable {parties : Parties} {e : Entropy} {steps : Nat}

theorem Agree.stands (agree : parties.Agree e steps) :
    Turn.Stands ⟨parties.responder.state, parties.initiator.state (e.pair 0)⟩ (parties.rung e 0) (parties.rung e 1) where
  stepping := by
    have formed := parties.responder.state_formed
    rw [agree.agreements] at formed
    exact ⟨_, _, formed⟩
  waiting := ⟨_, _, parties.initiator.state_formed (e.pair 0)⟩
  climbed := rfl

end Handshake.Parties

/-- The initiator receives on the chain that the responder sends on; and in any number of steps that the sides then take
in turn, the responder first, each step brings a side to the root key and the chain that the other has. -/
theorem handshake_and_ratchet_agree (parties : Handshake.Parties) (e : Entropy) (steps : Nat) (agree : parties.Agree e steps) :
    ∃ initiator responder chain, Act.Yields parties.initiator.run e (.ok initiator) (e.skip 1) ∧
      Act.Yields parties.responder.run (e.skip 1) (.ok responder) (e.skip 1) ∧
      initiator.receivingChainKey? parties.ratchet.publicKey = .ok (some chain) ∧ responder.sendingChainKey = .ok chain ∧
      ∀ n < steps, ∃ turn next, Act.Yields (Turn.steps n ⟨responder, initiator⟩) (e.skip 1) (.ok turn) (e.skip (n + 1)) ∧
        Act.Yields turn.step (e.skip (n + 1)) (.ok next) (e.skip (n + 2)) ∧
        ∃ root chain, turn.StepsTo next (e.pair n).publicKey root chain (e.pair (n + 1)) := by
  refine ⟨parties.initiator.state (e.pair 0), parties.responder.state, _, Session.initiator_run_yields _ _,
    Session.responder_run_yields _ _, parties.initiator.state_receivingChainKey? (e.pair 0), ?_, ?_⟩
  · rw [← agree.agreements]
    exact parties.responder.state_formed.sendingChainKey
  · intro n lt
    have agrees : ∀ k < steps, (parties.rung e k).pair.Agrees (parties.rung e (k + 1)).pair := by
      simpa only [parties.rung_pair] using agree.ratchets
    obtain ⟨turn, run, stands⟩ := agree.stands.steps (fun _ => rfl) n fun k before => agrees k (before.trans lt)
    obtain ⟨next, stepped, _, steps_to⟩ := stands.step (agrees n lt) (e.skip (n + 1))
    rw [Entropy.skip_skip] at stepped
    rw [Entropy.pair_skip] at steps_to
    exact ⟨turn, next, run, stepped, _, _, steps_to⟩

/-- The key pairs of a meeting; the responder's first ratchet key is not its signed one. -/
def Sample.parties : Handshake.Parties where
  initiatorIdentity := initiating.stores.identity
  base := meeting.baseKey
  responderIdentity := identity
  signedPreKey
  oneTimePreKey := none
  ratchet := identity

/-- What is drawn after the base key. -/
def Sample.draws : Entropy := (meeting.entropy .initiator).skip 1

theorem Sample.parties_agree : parties.Agree draws 2 := by
  have agrees : ∀ a ∈ [initiating.stores.identity, meeting.baseKey, meeting.ratchetKey], ∀ b ∈ [identity, signedPreKey],
      a.Agrees b := by
    have agrees := (meeting_keyed meeting_opens.start_entropy).agrees
    simp only [Meeting.keyPairs, meeting_opens.start_entropy, Entropy.drawn_skip] at agrees
    exact agrees
  have ratchets : ∀ k < 2, (parties.ratchetPair draws k).Agrees (parties.ratchetPair draws (k + 1)) := by
    intro k lt
    obtain rfl | rfl : k = 0 ∨ k = 1 := by omega
    · exact (agrees meeting.ratchetKey (by simp) identity (by simp)).symm
    · change KeyPair.Agrees (draws.pair 0) (draws.pair 1)
      unfold KeyPair.Agrees
      decide +kernel
  exact ⟨agrees initiating.stores.identity (by simp) signedPreKey (by simp),
    agrees meeting.baseKey (by simp) identity (by simp), agrees meeting.baseKey (by simp) signedPreKey (by simp),
    fun pair member => absurd member (Option.not_mem_none pair), ratchets⟩

theorem handshake_and_ratchet_agree_twice : Sample.parties.Agree Sample.draws 2 ∧
    ∃ initiator responder turn next root chain,
      Act.Yields Sample.parties.initiator.run Sample.draws (.ok initiator) (Sample.draws.skip 1) ∧
      Act.Yields Sample.parties.responder.run (Sample.draws.skip 1) (.ok responder) (Sample.draws.skip 1) ∧
      Act.Yields (Turn.steps 1 ⟨responder, initiator⟩) (Sample.draws.skip 1) (.ok turn) (Sample.draws.skip 2) ∧
      Act.Yields turn.step (Sample.draws.skip 2) (.ok next) (Sample.draws.skip 3) ∧
      turn.StepsTo next (Sample.draws.pair 1).publicKey root chain (Sample.draws.pair 2) := by
  obtain ⟨initiator, responder, _, begun, answered, _, _, steps⟩ :=
    handshake_and_ratchet_agree Sample.parties Sample.draws 2 Sample.parties_agree
  obtain ⟨turn, next, run, stepped, root, chain, steps_to⟩ := steps 1 Nat.one_lt_two
  exact ⟨Sample.parties_agree, initiator, responder, turn, next, root, chain, begun, answered, run, stepped, steps_to⟩

end DoubleRatchet
