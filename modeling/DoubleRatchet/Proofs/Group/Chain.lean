import DoubleRatchet.Proofs.Group.Operations
import DoubleRatchet.Proofs.Progress
import DoubleRatchet.Proofs.Signatures
import DoubleRatchet.Proofs.Wire

/-! The chain of a sender to a group, and what its members keep of it. A member that was given the chain at some message
and has read some of those that follow keeps a state that is determined by the chain and by its progress there. -/
namespace DoubleRatchet.Group

namespace ChainKey

theorem advance_advance (chain : ChainKey) (m n : Nat) : (chain.advance m).advance n = chain.advance (m + n) := by
  induction m generalizing chain with
  | zero => rw [advance, Nat.zero_add]
  | succ m ih => rw [advance, ih, Nat.succ_add, advance]

theorem advance_iteration (chain : ChainKey) (n : Nat) : (chain.advance n).iteration = chain.iteration + .ofNat n := by
  induction n generalizing chain with
  | zero => exact (UInt32.add_zero _).symm
  | succ n ih => rw [advance, ih, next, UInt32.ofNat_add, UInt32.add_assoc, UInt32.add_comm 1]; rfl

theorem messageKeysUpTo_eq (chain : ChainKey) (n : Nat) :
    chain.messageKeysUpTo n = (List.range n).map fun i => (chain.advance i).messageKey := by
  induction n generalizing chain with
  | zero => rfl
  | succ n ih =>
    rw [messageKeysUpTo, ih, List.range_succ_eq_map, List.map_cons, List.map_map]
    rfl

end ChainKey

@[simp] theorem StoredSeed.seed32_ofChainKey (chain : ChainKey) (complaint : String) :
    (ofChainKey chain).seed32 complaint = .ok chain.seed := by
  simp [ofChainKey, seed32]

@[simp] theorem StoredSeed.seed32_ofMessageKey (key : MessageKey) (complaint : String) :
    (ofMessageKey key).seed32 complaint = .ok key.seed := by
  simp [ofMessageKey, seed32]

/-- A chain as its sender began it, or from where it is first looked at: its number, the seed there and the key that
its messages are signed with. -/
structure SenderChain where
  keyId : UInt32
  origin : ChainKey
  signingKey : PublicKey

namespace SenderChain

/-- The number of the message that the chain begins at. -/
def first (c : SenderChain) : Nat := c.origin.iteration.toNat

/-- The chain at the message with number `n`. -/
def link (c : SenderChain) (n : Nat) : ChainKey := ⟨.ofNat n, (c.origin.advance (n - c.first)).seed⟩

def key (c : SenderChain) (n : Nat) : MessageKey := (c.link n).messageKey

/-- The key of message `n` as a member keeps it. -/
def stored (c : SenderChain) (n : Nat) : StoredSeed := .ofMessageKey (c.key n)

/-- The message that gives the chain to the members from message `n` on. -/
def distribution (c : SenderChain) (n : Nat) : KeyDistribution :=
  .create Frame.currentVersion c.keyId (.ofNat n) (c.link n).seed.bytes c.signingKey

/-- What a member keeps of the chain. -/
def state (c : SenderChain) (progress : Progress) : SenderKeyState :=
  { SenderKeyState.start c.keyId (c.link progress.index) c.signingKey none with cache := progress.kept.map c.stored }

/-- The message is number `n` of the chain, and was made from the text and signed by the chain's sender. -/
structure Wrote (c : SenderChain) (n : Nat) (plaintext : Bytes) (message : GroupMessage) : Prop where
  version : message.version = Frame.currentVersion
  keyId : message.keyId = c.keyId
  iteration : message.iteration = .ofNat n
  ciphertext : message.ciphertext = Cipher.encrypt (c.key n).cipherKey (c.key n).iv plaintext
  content : message.content = Frame.write message.version GroupMessage.schema
    { keyId := some message.keyId, iteration := some message.iteration, ciphertext := some message.ciphertext }
  signed : ∃ (key : PrivateKey) (e : Entropy), key.publicKey = c.signingKey ∧ message.signature = (key.sign message.content e).1

/-- The state sends on the chain, and message `n` is the next. -/
structure Heads (c : SenderChain) (state : SenderKeyState) (n : Nat) : Prop where
  keyId : state.keyId = c.keyId
  chainKey : state.chainKey = .ok (c.link n)
  signingKey : state.signingKey = .ok c.signingKey
  own : ∃ key : PrivateKey, state.signingPrivateKey? = .ok (some key) ∧ key.publicKey = c.signingKey

variable (c : SenderChain) {progress : Progress} {n : Nat}

/-! ## Links -/

theorem link_first : c.link c.first = c.origin := by
  rw [link, Nat.sub_self, first, UInt32.ofNat_toNat]
  rfl

theorem distribution_first (c : SenderChain) : (c.distribution c.first).iteration.toNat = c.first :=
  UInt32.toNat_ofNat_of_lt' c.origin.iteration.toNat_lt_size

theorem link_eq_advance (after : c.first ≤ n) : c.link n = c.origin.advance (n - c.first) := by
  have iteration : (c.origin.advance (n - c.first)).iteration = .ofNat n := by
    rw [ChainKey.advance_iteration, ← UInt32.ofNat_toNat (x := c.origin.iteration), ← UInt32.ofNat_add]
    exact congrArg UInt32.ofNat (Nat.add_sub_cancel' after)
  rw [link, ← iteration]

theorem link_advance (after : c.first ≤ n) (k : Nat) : (c.link n).advance k = c.link (n + k) := by
  rw [c.link_eq_advance after, c.link_eq_advance (Nat.le_add_right_of_le after), ChainKey.advance_advance,
    Nat.sub_add_comm after]

theorem link_next (after : c.first ≤ n) : (c.link n).next = c.link (n + 1) := c.link_advance after 1

theorem link_messageKeys (after : c.first ≤ n) (k : Nat) :
    ((c.link n).messageKeysUpTo k).map .ofMessageKey = (List.range' n k).map c.stored := by
  rw [ChainKey.messageKeysUpTo_eq, List.range'_eq_map_range, List.map_map, List.map_map]
  refine List.map_congr_left fun i _ => ?_
  rw [Function.comp, c.link_advance after]
  rfl

theorem stored_iteration (n : Nat) : (c.stored n).iteration = .ofNat n := rfl

/-! ## Members -/

@[simp] theorem state_keyId : (c.state progress).keyId = c.keyId := rfl

@[simp] theorem state_chainKey : (c.state progress).chainKey = .ok (c.link progress.index) := by
  simp [SenderKeyState.chainKey, state, SenderKeyState.start, bind, Except.bind, pure, Except.pure]
  rfl

@[simp] theorem state_signingKey : (c.state progress).signingKey = .ok c.signingKey := by
  simp [SenderKeyState.signingKey, state, SenderKeyState.start]

theorem state_cache : (c.state progress).cache = progress.kept.map c.stored := rfl

theorem link_next? (after : c.first ≤ n) (bound : n + 1 < UInt32.size) : (c.link n).next? = .ok (c.link (n + 1)) := by
  rw [← c.link_next after]
  refine if_neg fun last => ?_
  have same : n = 0xffffffff :=
    (UInt32.toNat_ofNat_of_lt' (Nat.lt_of_succ_lt bound)).symm.trans (congrArg UInt32.toNat last)
  exact absurd bound (same ▸ Nat.lt_irrefl UInt32.size)

theorem bound_of_link_next? {next : ChainKey} (bound : n < UInt32.size) (passed : (c.link n).next? = .ok next) :
    n + 1 < UInt32.size := by
  refine Nat.lt_of_le_of_ne bound fun last => ?_
  have same : n = 0xffffffff := Nat.succ.inj last
  rw [same] at passed
  cases passed

theorem behind_iff (bounded : progress.Bounded) (bound : n < UInt32.size) :
    UInt32.ofNat n < (c.link progress.index).iteration ↔ n < progress.index :=
  ofNat_lt_iff bound bounded.index

theorem steps_toNat (bounded : progress.Bounded) (bound : n < UInt32.size) (ahead : progress.index ≤ n) :
    (UInt32.ofNat n - (c.link progress.index).iteration).toNat = n - progress.index :=
  bounded.steps_toNat bound ahead

theorem keyFor_state_of_kept (bounded : progress.Bounded) (behind : n < progress.index) (kept : n ∈ progress.kept) :
    (c.state progress).keyFor (c.link progress.index) (.ofNat n) = .ok (c.key n) := by
  have found := bounded.find_kept c.stored StoredSeed.iteration c.stored_iteration kept
  rw [SenderKeyState.keyFor, if_pos ((c.behind_iff bounded (bounded.numbered n kept)).mpr behind), c.state_cache, found]
  dsimp only
  rw [stored, StoredSeed.seed32_ofMessageKey]
  rfl

theorem keyFor_state_of_ahead (bounded : progress.Bounded) (after : c.first ≤ progress.index) (bound : n + 1 < UInt32.size)
    (ahead : progress.index ≤ n) (near : n ≤ progress.index + maxSkip) :
    (c.state progress).keyFor (c.link progress.index) (.ofNat n) = .ok (c.key n) := by
  have behind_iff := c.behind_iff bounded (Nat.lt_of_succ_lt bound)
  rw [SenderKeyState.keyFor, if_neg (mt behind_iff.mp (Nat.not_lt.mpr ahead))]
  dsimp only
  rw [c.steps_toNat bounded (Nat.lt_of_succ_lt bound) ahead, if_neg (by omega), c.link_advance after, Nat.add_sub_cancel' ahead,
    c.link_next? (Nat.le_trans after ahead) bound]
  rfl

/-- The key of a message is served if it is kept, or the message is not too far ahead. -/
theorem keyFor_state (sound : progress.Sound) (after : c.first ≤ progress.index) (bound : n + 1 < UInt32.size)
    (reachable : n ∈ progress.kept ∨ progress.index ≤ n ∧ n ≤ progress.index + maxSkip) :
    (c.state progress).keyFor (c.link progress.index) (.ofNat n) = .ok (c.key n) := by
  rcases reachable with kept | ⟨ahead, near⟩
  · exact c.keyFor_state_of_kept sound.toBounded (sound.behind n kept) kept
  · exact c.keyFor_state_of_ahead sound.toBounded after bound ahead near

theorem keyFor_state_of_far (bounded : progress.Bounded) (bound : n < UInt32.size) (far : progress.index + maxSkip < n) :
    (c.state progress).keyFor (c.link progress.index) (.ofNat n) =
      .error (.tooFarAhead (.ofNat n - .ofNat progress.index)) := by
  have ahead : progress.index ≤ n := by omega
  have behind_iff := c.behind_iff bounded bound
  rw [SenderKeyState.keyFor, if_neg (mt behind_iff.mp (Nat.not_lt.mpr ahead))]
  dsimp only
  rw [c.steps_toNat bounded bound ahead, if_pos (by omega)]
  rfl

/-- The key of a message that is behind and not kept is refused. -/
theorem keyFor_state_of_spent (bounded : progress.Bounded) (spent : progress.Spent n) :
    (c.state progress).keyFor (c.link progress.index) (.ofNat n) =
      .error (.duplicate (.ofNat progress.index) (.ofNat n)) := by
  have bound : n < UInt32.size := Nat.lt_trans spent.1 bounded.index
  have gone := bounded.find_spent c.stored StoredSeed.iteration c.stored_iteration spent
  rw [SenderKeyState.keyFor, if_pos ((c.behind_iff bounded bound).mpr spent.1), c.state_cache, gone]
  rfl

/-- The last number of all has no key. -/
theorem keyFor_state_of_last (bounded : progress.Bounded) (after : c.first ≤ progress.index)
    (near : 0xffffffff ≤ progress.index + maxSkip) :
    (c.state progress).keyFor (c.link progress.index) (.ofNat 0xffffffff) = .error (corrupt "chain iteration overflowed") := by
  have bound : 0xffffffff < UInt32.size := by decide
  have ahead : progress.index ≤ 0xffffffff := Nat.le_of_lt_succ bounded.index
  have last : (c.link 0xffffffff).next? = .error (corrupt "chain iteration overflowed") := if_pos rfl
  rw [SenderKeyState.keyFor, if_neg (mt (c.behind_iff bounded bound).mp (Nat.not_lt.mpr ahead))]
  dsimp only
  rw [c.steps_toNat bounded bound ahead, if_neg (by omega), c.link_advance after, Nat.add_sub_cancel' ahead, last]
  rfl

theorem near_of_keyFor {key : MessageKey} (bounded : progress.Bounded) (bound : n < UInt32.size)
    (served : (c.state progress).keyFor (c.link progress.index) (.ofNat n) = .ok key) : n ≤ progress.index + maxSkip := by
  refine Nat.le_of_not_lt fun far => ?_
  cases served.symm.trans (c.keyFor_state_of_far bounded bound far)

theorem bound_of_keyFor {key : MessageKey} (bounded : progress.Bounded) (after : c.first ≤ progress.index)
    (bound : n < UInt32.size) (served : (c.state progress).keyFor (c.link progress.index) (.ofNat n) = .ok key) :
    n + 1 < UInt32.size := by
  refine Nat.lt_of_le_of_ne bound fun last => ?_
  cases Nat.succ.inj last
  cases served.symm.trans (c.keyFor_state_of_last bounded after (c.near_of_keyFor bounded bound served))

/-- The seeds that a request for a message ahead makes a member keep. -/
theorem append_passed (bounded : progress.Bounded) (after : c.first ≤ progress.index) (ahead : progress.index ≤ n) :
    Window.append maxCachedKeys (c.state progress).cache
      (((c.link progress.index).messageKeysUpTo (n - progress.index)).map .ofMessageKey) = (progress.read n).kept.map c.stored := by
  rw [c.link_messageKeys after, c.state_cache]
  exact bounded.append_waiting c.stored (Nat.not_lt.mpr ahead)

theorem asked_state (bounded : progress.Bounded) (after : c.first ≤ progress.index) (bound : n + 1 < UInt32.size)
    (near : n ≤ progress.index + maxSkip) :
    (c.state progress).asked (c.link progress.index) (.ofNat n) = c.state (progress.read n) := by
  have behind_iff := c.behind_iff bounded (Nat.lt_of_succ_lt bound)
  by_cases behind : n < progress.index
  · have kept := Progress.erase_kept c.stored StoredSeed.iteration c.stored_iteration bounded.numbered (Nat.lt_of_succ_lt bound)
    rw [SenderKeyState.asked, if_pos (behind_iff.mpr behind), Progress.read_of_behind behind, c.state_cache, kept]
    rfl
  · have ahead : progress.index ≤ n := Nat.le_of_not_lt behind
    rw [SenderKeyState.asked, if_neg (mt behind_iff.mp behind)]
    dsimp only
    rw [c.steps_toNat bounded (Nat.lt_of_succ_lt bound) ahead, if_neg (by omega), c.append_passed bounded after ahead,
      c.link_advance after, Nat.add_sub_cancel' ahead, c.link_next? (Nat.le_trans after ahead) bound,
      ← Progress.read_index_of_ahead behind]
    rfl

theorem request_state_of_ok {key : MessageKey} (bounded : progress.Bounded) (after : c.first ≤ progress.index)
    (bound : n < UInt32.size) (served : (c.state progress).keyFor (c.link progress.index) (.ofNat n) = .ok key) :
    (c.state progress).request (.ofNat n) = .ok (key, c.state (progress.read n)) := by
  have left := c.asked_state bounded after (c.bound_of_keyFor bounded after bound served) (c.near_of_keyFor bounded bound served)
  exact SenderKeyState.request_eq_ok.mpr ⟨_, c.state_chainKey, served, left.symm⟩

theorem request_state_of_error {fault : Fault}
    (refused : (c.state progress).keyFor (c.link progress.index) (.ofNat n) = .error fault) :
    (c.state progress).request (.ofNat n) = .error fault := by
  rw [SenderKeyState.request, SenderKeyState.ask, state_chainKey]
  dsimp only
  rw [refused]
  rfl

/-! ## Messages -/

variable {c} {plaintext : Bytes} {message : GroupMessage}

theorem Wrote.parse (written : c.Wrote n plaintext message) (sendable : plaintext.Sendable) :
    GroupMessage.parse message.serialized = .ok message := by
  refine GroupMessage.parse_serialized (.inr written.version) written.content ?_
  rw [written.ciphertext]
  exact Nat.lt_trans (Cipher.encrypt_fits sendable _ _) (by decide)

theorem Wrote.iteration_toNat (written : c.Wrote n plaintext message) (bound : n < UInt32.size) :
    message.iteration.toNat = n := by
  rw [written.iteration, UInt32.toNat_ofNat_of_lt' bound]

theorem Wrote.verifies (written : c.Wrote n plaintext message) : message.verify c.signingKey := by
  obtain ⟨key, e, belongs, signature⟩ := written.signed
  rw [GroupMessage.verify, signature, ← belongs]
  exact key.verify_sign message.content e

/-- A message whose key is served is read as the text it was made from. -/
theorem Wrote.read (written : c.Wrote n plaintext message) (sound : progress.Sound) (after : c.first ≤ progress.index)
    (bound : n + 1 < UInt32.size)
    (reachable : n ∈ progress.kept ∨ progress.index ≤ n ∧ n ≤ progress.index + maxSkip) :
    (c.state progress).read message = .ok (plaintext, c.state (progress.read n)) := by
  have key := c.keyFor_state sound after bound reachable
  have request := c.request_state_of_ok sound.toBounded after (Nat.lt_of_succ_lt bound) key
  simp [SenderKeyState.read, written.verifies, written.iteration, request, written.ciphertext, Cipher.decrypt?_encrypt, bind,
    Except.bind, pure, Except.pure]

theorem Wrote.read_of_far (written : c.Wrote n plaintext message) (sound : progress.Sound) (bound : n < UInt32.size)
    (far : progress.index + maxSkip < n) :
    (c.state progress).read message = .error (.tooFarAhead (.ofNat n - .ofNat progress.index)) := by
  have request := c.request_state_of_error (c.keyFor_state_of_far sound.toBounded bound far)
  simp [SenderKeyState.read, written.verifies, written.iteration, request, bind, Except.bind]

/-- However a message is read, its signature is accepted, and the reader's progress is that of having read it. -/
theorem read_eq_ok {text : Bytes} {state : SenderKeyState} (sound : progress.Sound) (after : c.first ≤ progress.index)
    (read : (c.state progress).read message = .ok (text, state)) :
    message.verify c.signingKey ∧ message.iteration.toNat + 1 < UInt32.size ∧
      state = c.state (progress.read message.iteration.toNat) := by
  have bound : message.iteration.toNat < UInt32.size := message.iteration.toNat_lt_size
  obtain ⟨_, same, read⟩ := bind_eq_ok.mp read
  cases c.state_signingKey.symm.trans same
  split at read
  · rename_i verified
    obtain ⟨served, request, read⟩ := bind_eq_ok.mp read
    obtain ⟨_, placed, found, left⟩ := SenderKeyState.request_eq_ok.mp request
    cases c.state_chainKey.symm.trans placed
    rw [← UInt32.ofNat_toNat (x := message.iteration)] at found left
    have last := c.bound_of_keyFor sound.toBounded after bound found
    rw [c.asked_state sound.toBounded after last (c.near_of_keyFor sound.toBounded bound found)] at left
    dsimp only at read
    split at read
    · cases read
    · cases read
      exact ⟨verified, last, left⟩
  · cases read

theorem read_of_spent (sound : progress.Sound) (verified : message.verify c.signingKey)
    (spent : progress.Spent message.iteration.toNat) :
    (c.state progress).read message = .error (.duplicate (.ofNat progress.index) message.iteration) := by
  have requested := c.request_state_of_error (c.keyFor_state_of_spent sound.toBounded spent)
  rw [UInt32.ofNat_toNat] at requested
  simp [SenderKeyState.read, verified, requested, bind, Except.bind]

theorem Wrote.of_read {text : Bytes} {state : SenderKeyState} (written : c.Wrote n plaintext message)
    (sound : progress.Sound) (after : c.first ≤ progress.index) (bound : n < UInt32.size)
    (read : (c.state progress).read message = .ok (text, state)) : state = c.state (progress.read n) := by
  obtain ⟨_, _, state_eq⟩ := read_eq_ok sound after read
  rwa [written.iteration_toNat bound] at state_eq

/-! ## The sender -/

namespace Heads

variable {state : SenderKeyState}

theorem sendingKeys (heads : c.Heads state n) :
    ∃ key : PrivateKey, state.sendingKeys = .ok (c.link n, key) ∧ key.publicKey = c.signingKey := by
  obtain ⟨key, own, belongs⟩ := heads.own
  refine ⟨key, ?_, belongs⟩
  simp [SenderKeyState.sendingKeys, heads.chainKey, own, bind, Except.bind, pure, Except.pure]

/-- What the state sends next, and when it can. -/
theorem send (heads : c.Heads state n) (plaintext : Bytes) (e : Entropy) : ∃ message e', c.Wrote n plaintext message ∧
    state.send plaintext e = ((c.link n).next?.map fun next => (message, state.withChainKey next), e') := by
  obtain ⟨key, sendingKeys, belongs⟩ := heads.sendingKeys
  let made := GroupMessage.create Frame.currentVersion state.keyId (c.key n).iteration
    (Cipher.encrypt (c.key n).cipherKey (c.key n).iv plaintext) key e
  refine ⟨made.1, made.2, ⟨rfl, heads.keyId, rfl, rfl, rfl, key, e, belongs, rfl⟩, ?_⟩
  rw [SenderKeyState.send, sendingKeys]
  rfl

theorem withChainKey (heads : c.Heads state n) (m : Nat) : c.Heads (state.withChainKey (c.link m)) m where
  keyId := heads.keyId
  chainKey := by
    simp [SenderKeyState.chainKey, SenderKeyState.withChainKey, bind, Except.bind, pure, Except.pure]
    rfl
  signingKey := heads.signingKey
  own := heads.own

theorem sends (heads : c.Heads state n) (after : c.first ≤ n) (bound : n + 1 < UInt32.size) (plaintext : Bytes) (e : Entropy) :
    ∃ message state' e', state.send plaintext e = (.ok (message, state'), e') := by
  obtain ⟨message, e', _, sent⟩ := heads.send plaintext e
  rw [c.link_next? after bound] at sent
  exact ⟨message, _, e', sent⟩

theorem of_send (heads : c.Heads state n) (after : c.first ≤ n) (bound : n < UInt32.size) {e e' : Entropy}
    {state' : SenderKeyState} (sent : state.send plaintext e = (.ok (message, state'), e')) :
    n + 1 < UInt32.size ∧ c.Wrote n plaintext message ∧ c.Heads state' (n + 1) := by
  obtain ⟨made, _, wrote, sent'⟩ := heads.send plaintext e
  rw [sent] at sent'
  cases passed : (c.link n).next? with
  | error fault =>
    rw [passed] at sent'
    cases sent'
  | ok next =>
    have room := c.bound_of_link_next? bound passed
    rw [c.link_next? after room] at sent'
    cases sent'
    exact ⟨room, wrote, heads.withChainKey (n + 1)⟩

theorem distribution {record : SenderKeyRecord} (current : record.current = .ok state) (heads : c.Heads state n) :
    Group.distribution record = .ok (c.distribution n) := by
  simp [Group.distribution, current, heads.chainKey, heads.signingKey, heads.keyId, bind, Except.bind, pure, Except.pure]
  rfl

end Heads

/-- The chain that a member begins when it is given one. -/
theorem distributed_distribution (n : Nat) : distributed (c.distribution n) = .ok (c.state { index := n }) := by
  simp [distributed, distribution, KeyDistribution.create]
  rfl

/-- A sender's chain from where it has been distributed. -/
theorem of_distribution {record : SenderKeyRecord} {state : SenderKeyState} {d : KeyDistribution} {key : PrivateKey}
    (current : record.current = .ok state) (own : state.OwnedBy key) (made : Group.distribution record = .ok d) :
    ∃ c : SenderChain, d = c.distribution c.first ∧ c.Heads state c.first := by
  rw [Group.distribution, current] at made
  obtain ⟨_, same, made⟩ := bind_eq_ok.mp made
  cases same
  obtain ⟨chain, chainKey, made⟩ := bind_eq_ok.mp made
  obtain ⟨signingKey, signed, made⟩ := bind_eq_ok.mp made
  cases made
  cases own.publicKey.symm.trans signed
  let c : SenderChain := ⟨state.keyId, chain, key.publicKey⟩
  have link : c.link c.first = chain := c.link_first
  refine ⟨c, ?_, rfl, ?_, signed, key, own.privateKey, rfl⟩
  · rw [SenderChain.distribution, link]
    simp [c, first]
  · rw [link]
    exact chainKey

end SenderChain

end DoubleRatchet.Group
