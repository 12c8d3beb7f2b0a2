import DoubleRatchet.Proofs.Session.ReceivingChain

/-! The keys of messages that a reader has passed over. Whatever is asked of the chain that a peer sends on, and in whatever
order, the keys of a message are served once at most, and whether they are is decided by where the chain stands and by what
it still keeps. -/
namespace DoubleRatchet

/-- The request is answered, and the chain has no room for all that it keeps and passes over. -/
def Chain.Evicts (chain : Chain) (n : UInt32) : Prop :=
  ∃ place answer, chain.key = .ok place ∧ chain.request n = .ok answer ∧ place.index ≤ n ∧
    2000 < chain.cache.length + (n.toNat - place.index.toNat)

namespace ReceivingChain

/-- The chain stands at message `place`, and keeps the keys of some messages before. -/
structure StandsAt (c : ReceivingChain) (place : UInt32) (chain : Chain) : Prop where
  key : chain.key = .ok ⟨(c.origin.advance (place.toNat - c.origin.index.toNat)).key, place⟩
  started : c.origin.index ≤ place
  kept : ∀ kept ∈ chain.cache, kept = c.stored kept.index.toNat
  rising : (chain.cache.map (·.index)).Pairwise (· < ·)
  behind : ∀ kept ∈ chain.cache, kept.index < place
  few : chain.cache.length ≤ 2000

/-- How a chain that stands at message `place` answers a request for the keys of message `n`. -/
structure Answers (c : ReceivingChain) (place : UInt32) (chain : Chain) (n : UInt32) : Prop where
  kept : n < place → n ∈ chain.cache.map (·.index) →
    chain.request n = .ok (c.keys n.toNat, { chain with cache := chain.cache.filter (·.index ≠ n) })
  repeated : n < place → n ∉ chain.cache.map (·.index) → chain.request n = .error (.duplicate place n)
  ahead : place ≤ n → n.toNat ≤ place.toNat + 5000 →
    let passed := (List.range' place.toNat (n.toNat - place.toNat)).map c.stored
    chain.request n = .ok (c.keys n.toNat, { chain with
      chainKey := some ⟨n + 1, (c.link (n.toNat + 1)).key.bytes⟩
      cache := (chain.cache ++ passed).rtake 2000 })
  far : place.toNat + 5000 < n.toNat → chain.request n = .error (.tooFarAhead (n - place))

variable {c : ReceivingChain} {progress : Progress} {n : UInt32}

theorem standsAt {done : List Nat} (since : progress.Since c.first done) :
    c.StandsAt (.ofNat progress.index) (c.chain progress) := by
  have place := since.sound.index_toNat
  refine ⟨?_, ?_, ?_, since.rising.numbers c.stored _ c.stored_index since.sound, ?_, ?_⟩
  · rw [c.chain_key, place]
    rfl
  · rw [UInt32.le_iff_toNat_le, place]
    exact since.started
  · exact since.sound.kept_entry c.stored StoredMessageKeys.index c.stored_index
  · exact since.sound.kept_behind c.stored StoredMessageKeys.index c.stored_index
  · rw [c.chain_cache, List.length_map]
    exact since.sound.few

theorem answers {done : List Nat} (since : progress.Since c.first done) (n : UInt32) :
    c.Answers (.ofNat progress.index) (c.chain progress) n := by
  have sound := since.sound
  have place := sound.index_toNat
  have behind_iff := sound.lt_index_iff n
  have kept_iff := sound.kept_iff c.stored StoredMessageKeys.index c.stored_index n
  constructor
  case kept =>
    intro behind kept
    have rest := since.rising.map_erase_kept c.stored StoredMessageKeys.index c.stored_index sound n.toNat_lt_size
    rw [UInt32.ofNat_toNat] at rest
    rw [request_of_reaches sound since.started (.inl (kept_iff.mp kept)), Progress.read_of_behind (behind_iff.mp behind),
      chain, rest]
    rfl
  case repeated =>
    intro behind gone
    exact request_of_spent sound since.started ⟨behind_iff.mp behind, mt kept_iff.mpr gone⟩
  case ahead =>
    intro ahead near
    have ahead := (sound.index_le_iff n).mp ahead
    have cache : (progress.read n.toNat).kept.map c.stored = _ := Progress.map_read_kept c.stored ahead
    rw [place] at near ⊢
    rw [request_of_reaches sound since.started (.inr ⟨ahead, near⟩), chain, cache,
      Progress.read_index_of_ahead (Nat.not_lt.mpr ahead), ← ofNat_toNat_succ n]
    rfl
  case far =>
    intro far
    rw [place] at far
    exact request_of_far sound since.started far

theorem noticed (c : ReceivingChain) : KeyRequests.Noticed Chain.request c.chain Chain.Evicts := by
  intro progress n sound answer asked ahead crowd
  have place : (c.link progress.index).index.toNat = progress.index := sound.index_toNat
  refine ⟨_, answer, c.chain_key, asked, ?_, ?_⟩
  · rw [UInt32.le_iff_toNat_le, place]
    exact ahead
  · rw [place, c.chain_cache, List.length_map]
    exact crowd

theorem evicts_chain (sound : progress.Sound) (evicts : (c.chain progress).Evicts n) :
    progress.index ≤ n.toNat ∧ Progress.limit < progress.kept.length + (n.toNat - progress.index) := by
  obtain ⟨key, answer, placed, -, ahead, many⟩ := evicts
  cases placed.symm.trans c.chain_key
  have place : (c.link progress.index).index.toNat = progress.index := sound.index_toNat
  rw [UInt32.le_iff_toNat_le, place] at ahead
  rw [place, c.chain_cache, List.length_map] at many
  exact ⟨ahead, many⟩

end ReceivingChain

namespace SessionState

theorem modify_findIdx_congr {A : Type} {p : A → Bool} (f g : A → A) {entries : List A} {a : A}
    (found : entries.find? p = some a) (same : f a = g a) :
    entries.modify (entries.findIdx p) f = entries.modify (entries.findIdx p) g := by
  induction entries with
  | nil => rfl
  | cons first rest ih =>
    cases holds : p first with
    | true =>
      rw [List.find?_cons_of_pos holds] at found
      cases found
      simp [List.findIdx_cons, holds, same]
    | false =>
      rw [List.find?_cons_of_neg (by simp [holds])] at found
      simp [List.findIdx_cons, holds, ih found]

/-- Reading on a chain is a request for the keys of the message: the chain fails as the request does, and else is left as
the request leaves it. -/
theorem readOnChain_eq_request (state : SessionState) (message : RatchetMessage) {chain : Chain}
    (found : state.receivingChain? message.ratchetKey = some chain) : state.readOnChain message = (do
      let (keys, after) ← chain.request message.counter
      let sender ← state.remoteIdentityKey
      let plaintext ← message.decipher keys sender (← state.localIdentityKey)
      let served := state.updateReceivingChain message.ratchetKey fun _ => after
      return { state := served.acknowledge, plaintext, keys }) := by
  have update (key : ChainKey) : state.updateReceivingChain message.ratchetKey (·.served key message.counter) =
      state.updateReceivingChain message.ratchetKey fun _ => chain.served key message.counter :=
    congrArg (fun receivers => { state with receivers })
      (modify_findIdx_congr (·.served key message.counter) (fun _ => chain.served key message.counter) found rfl)
  simp only [readOnChain, found, Chain.request, update, bind_assoc, pure_bind]

end SessionState

open KeyRequests

/-- Requests in turn for the keys of messages on a chain. Each that is answered is answered with the keys of that message,
and none for the second time; which are answered is decided by where the chain then stands and which keys it keeps. If no
keys had to be given up, what is left is told from the set of the messages alone. -/
theorem serves_keys_within_window (c : ReceivingChain) (requests : List UInt32) (bounded : ∀ n ∈ requests, n ≠ 0xffffffff) :
    let begun := Chain.receiving c.ratchetKey c.origin
    let chain := after Chain.request begun requests
    (∀ answer ∈ answers Chain.request begun requests, c.origin.index ≤ answer.1 ∧ answer.2.counter = answer.1 ∧
      answer.2 = (c.origin.advance (answer.1.toNat - c.origin.index.toNat)).messageKeys) ∧
    (served Chain.request begun requests).Nodup ∧
    (∃ place, c.StandsAt place chain ∧ ∀ n, n ≠ 0xffffffff → c.Answers place chain n) ∧
    ∀ others : List UInt32, (∀ n ∈ others, n ≠ 0xffffffff) →
      Never Chain.request Chain.Evicts begun requests → Never Chain.request Chain.Evicts begun others →
      (∀ n, n ∈ served Chain.request begun requests ↔ n ∈ served Chain.request begun others) →
      chain = after Chain.request begun others := by
  intro begun chain
  have begun_eq : begun = c.chain { index := c.first } := c.chain_first.symm
  have bound : c.first < UInt32.size := c.origin.index.toNat_lt_size
  obtain ⟨progress, stands, since, keys, -⟩ :=
    after_standing (fun n member => c.follows (bounded n member)) c.noticed (.begun bound)
  rw [← begun_eq] at stands since keys
  refine ⟨fun answer member => ?_, List.Nodup.of_map _ since.distinct, ⟨.ofNat progress.index, ?_⟩, ?_⟩
  · have started : c.first ≤ answer.1.toNat := since.after _ (List.mem_map_of_mem (List.mem_map_of_mem member))
    rw [keys answer member, ReceivingChain.keys]
    refine ⟨UInt32.le_iff_toNat_le.mpr started, UInt32.ofNat_toNat, ?_⟩
    rw [c.link_eq_advance started]
    rfl
  · rw [show chain = _ from stands]
    exact ⟨ReceivingChain.standsAt since, fun n _ => ReceivingChain.answers since n⟩
  · intro others others_bounded roomy others_roomy same
    show after Chain.request begun requests = _
    rw [begun_eq] at roomy others_roomy same ⊢
    exact after_eq_of_same_served (fun n member => c.follows (bounded n member))
      (fun n member => c.follows (others_bounded n member)) c.noticed bound roomy others_roomy same

namespace ReceivingChain

variable {c : ReceivingChain} {requests : List UInt32} (bounded : ∀ n ∈ requests, n ≠ 0xffffffff)
  (early : ∀ n ∈ requests, c.first ≤ n.toNat ∧ n.toNat ≤ c.first + 2000)

include bounded early

/-- A chain keeps the keys of all messages that it passes over among its first. -/
theorem never_evicts_early : Never Chain.request Chain.Evicts (.receiving c.ratchetKey c.origin) requests := by
  rw [← c.chain_first]
  exact never_of_early (fun n member => c.follows (bounded n member)) c.noticed early c.origin.index.toNat_lt_size
    fun _ _ => evicts_chain

theorem mem_served_early (n : UInt32) :
    n ∈ served Chain.request (.receiving c.ratchetKey c.origin) requests ↔ n ∈ requests := by
  have roomy := never_evicts_early bounded early
  rw [← c.chain_first] at roomy ⊢
  exact mem_served_of_early (fun n member => c.follows (bounded n member)) c.noticed early c.origin.index.toNat_lt_size roomy
    (by decide) (fun _ _ sound after _ => (request_ok_iff sound after).mpr) n

end ReceivingChain

namespace Sample

/-- A chain that is first looked at after seven messages. -/
def received : ReceivingChain := ⟨⟨⟨List.replicate 32 5, rfl⟩⟩, ⟨⟨List.replicate 32 6, rfl⟩, 7⟩⟩

end Sample

/-- Three messages leave the same chain whether or not they come in order, and one of them twice. -/
theorem serves_keys_out_of_order : (∀ n ∈ [(9 : UInt32), 7, 7, 8], n ≠ 0xffffffff) ∧
    after Chain.request (.receiving Sample.received.ratchetKey Sample.received.origin) [9, 7, 7, 8] =
      after Chain.request (.receiving Sample.received.ratchetKey Sample.received.origin) [7, 8, 9] := by
  have same : ∀ n, n ∈ [(9 : UInt32), 7, 7, 8] ↔ n ∈ [(7 : UInt32), 8, 9] := by grind
  have bounded : ∀ n ∈ [(9 : UInt32), 7, 7, 8], n ≠ 0xffffffff := by simp
  have others_bounded : ∀ n ∈ [(7 : UInt32), 8, 9], n ≠ 0xffffffff := by simp
  have first : Sample.received.first = 7 := rfl
  have early : ∀ n ∈ [(9 : UInt32), 7, 7, 8], Sample.received.first ≤ n.toNat ∧ n.toNat ≤ Sample.received.first + 2000 := by
    simp [first]
  have others_early : ∀ n ∈ [(7 : UInt32), 8, 9],
      Sample.received.first ≤ n.toNat ∧ n.toNat ≤ Sample.received.first + 2000 := by simp [first]
  refine ⟨bounded, (serves_keys_within_window Sample.received _ bounded).2.2.2 _ others_bounded
    (ReceivingChain.never_evicts_early bounded early) (ReceivingChain.never_evicts_early others_bounded others_early)
    fun n => ?_⟩
  rw [ReceivingChain.mem_served_early bounded early, ReceivingChain.mem_served_early others_bounded others_early, same]

end DoubleRatchet
