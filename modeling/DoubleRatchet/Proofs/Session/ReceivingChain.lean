import DoubleRatchet.Proofs.KeyRequests
import DoubleRatchet.Proofs.Session.Serving

/-! The chain that a peer sends on under one ratchet key, and what its reader keeps of it: that is determined by the chain
and by the reader's progress there. -/
namespace DoubleRatchet

/-- A chain of messages under a ratchet key, from where it is first looked at. -/
structure ReceivingChain where
  ratchetKey : PublicKey
  origin : ChainKey

namespace ReceivingChain

/-- The number of the message that the chain begins at. -/
def first (c : ReceivingChain) : Nat := c.origin.index.toNat

/-- The chain at the message with number `n`. -/
def link (c : ReceivingChain) (n : Nat) : ChainKey := ⟨(c.origin.advance (n - c.first)).key, .ofNat n⟩

def keys (c : ReceivingChain) (n : Nat) : MessageKeys := (c.link n).messageKeys

/-- The keys of message `n` as a reader keeps them. -/
def stored (c : ReceivingChain) (n : Nat) : StoredMessageKeys := .ofKeys (c.keys n)

/-- What a reader keeps of the chain. -/
def chain (c : ReceivingChain) (progress : Progress) : Chain :=
  { Chain.receiving c.ratchetKey (c.link progress.index) with cache := progress.kept.map c.stored }

variable (c : ReceivingChain) {progress : Progress} {n : Nat}

/-! ## Links -/

theorem link_eq_advance (after : c.first ≤ n) : c.link n = c.origin.advance (n - c.first) := by
  have index : (c.origin.advance (n - c.first)).index = .ofNat n := by
    rw [ChainKey.advance_index, ← UInt32.ofNat_toNat (x := c.origin.index), ← UInt32.ofNat_add]
    exact congrArg UInt32.ofNat (Nat.add_sub_cancel' after)
  rw [link, ← index]

theorem link_first : c.link c.first = c.origin := by
  rw [c.link_eq_advance (Nat.le_refl _), Nat.sub_self]
  rfl

theorem link_advance (after : c.first ≤ n) (k : Nat) : (c.link n).advance k = c.link (n + k) := by
  rw [c.link_eq_advance after, c.link_eq_advance (Nat.le_add_right_of_le after), ChainKey.advance_advance,
    Nat.sub_add_comm after]

theorem link_next (after : c.first ≤ n) : (c.link n).next = c.link (n + 1) := c.link_advance after 1

theorem link_messageKeys (after : c.first ≤ n) (k : Nat) :
    ((c.link n).messageKeysUpTo k).map .ofKeys = (List.range' n k).map c.stored := by
  rw [ChainKey.messageKeysUpTo_eq, List.range'_eq_map_range, List.map_map, List.map_map]
  refine List.map_congr_left fun i _ => ?_
  rw [Function.comp, c.link_advance after]
  rfl

theorem stored_index (n : Nat) : (c.stored n).index = .ofNat n := rfl

/-! ## Readers -/

theorem chain_first : c.chain { index := c.first } = .receiving c.ratchetKey c.origin := by
  rw [chain, c.link_first]
  rfl

theorem chain_cache : (c.chain progress).cache = progress.kept.map c.stored := rfl

theorem chain_key : (c.chain progress).key = .ok (c.link progress.index) := by
  simp [Chain.key, chain, Chain.receiving, StoredChainKey.ofKey, bind, Except.bind, pure, Except.pure]

theorem behind_iff (sound : progress.Sound) (bound : n < UInt32.size) :
    UInt32.ofNat n < (c.link progress.index).index ↔ n < progress.index :=
  ofNat_lt_iff bound sound.index

theorem steps_toNat (sound : progress.Sound) (bound : n < UInt32.size) (ahead : progress.index ≤ n) :
    (UInt32.ofNat n - (c.link progress.index).index).toNat = n - progress.index :=
  sound.steps_toNat bound ahead

/-- The keys of a message are served if they are kept, or the message is not too far ahead. -/
theorem keysFor_chain (sound : progress.Sound) (after : c.first ≤ progress.index) (bound : n < UInt32.size)
    (reaches : progress.Reaches maxSkip n) :
    (c.chain progress).keysFor (c.link progress.index) (.ofNat n) = .ok (c.keys n) := by
  have behind_iff := c.behind_iff sound bound
  rcases reaches with kept | ⟨ahead, near⟩
  · rw [Chain.keysFor, if_pos (behind_iff.mpr (sound.behind n kept)), c.chain_cache,
      sound.find_kept _ StoredMessageKeys.index c.stored_index kept]
    exact StoredMessageKeys.load_ofKeys _
  · rw [Chain.keysFor, if_neg (mt behind_iff.mp (Nat.not_lt.mpr ahead))]
    dsimp only
    rw [c.steps_toNat sound bound ahead, if_neg (by omega), c.link_advance after, Nat.add_sub_cancel' ahead]
    rfl

theorem keysFor_chain_of_far (sound : progress.Sound) (bound : n < UInt32.size) (far : progress.index + maxSkip < n) :
    (c.chain progress).keysFor (c.link progress.index) (.ofNat n) =
      .error (.tooFarAhead (.ofNat n - .ofNat progress.index)) := by
  have ahead : progress.index ≤ n := by omega
  rw [Chain.keysFor, if_neg (mt (c.behind_iff sound bound).mp (Nat.not_lt.mpr ahead))]
  dsimp only
  rw [c.steps_toNat sound bound ahead, if_pos (by omega)]
  rfl

/-- The keys of a message that is behind and not kept are refused. -/
theorem keysFor_chain_of_spent (sound : progress.Sound) (spent : progress.Spent n) :
    (c.chain progress).keysFor (c.link progress.index) (.ofNat n) =
      .error (.duplicate (.ofNat progress.index) (.ofNat n)) := by
  have bound : n < UInt32.size := Nat.lt_trans spent.1 sound.index
  rw [Chain.keysFor, if_pos ((c.behind_iff sound bound).mpr spent.1), c.chain_cache,
    sound.find_spent _ StoredMessageKeys.index c.stored_index spent]
  rfl

theorem served_chain (sound : progress.Sound) (after : c.first ≤ progress.index) (bound : n < UInt32.size) :
    (c.chain progress).served (c.link progress.index) (.ofNat n) = c.chain (progress.read n) := by
  have behind_iff := c.behind_iff sound bound
  by_cases behind : n < progress.index
  · have kept := Progress.erase_kept c.stored StoredMessageKeys.index c.stored_index
      (fun m member => Nat.lt_trans (sound.behind m member) sound.index) bound
    rw [Chain.served, if_pos (behind_iff.mpr behind), Progress.read_of_behind behind, c.chain_cache, kept]
    rfl
  · have ahead : progress.index ≤ n := Nat.le_of_not_lt behind
    have cache : Window.append maxCachedKeys _ _ = _ := sound.append_waiting c.stored behind
    rw [Chain.served, if_neg (mt behind_iff.mp behind)]
    dsimp only
    rw [c.steps_toNat sound bound ahead, c.link_messageKeys after, c.chain_cache, cache, c.link_advance after,
      Nat.add_sub_cancel' ahead, c.link_next (Nat.le_trans after ahead), ← Progress.read_index_of_ahead behind]
    rfl

theorem request_chain (sound : progress.Sound) (after : c.first ≤ progress.index) (bound : n < UInt32.size) :
    (c.chain progress).request (.ofNat n) = (do
      return (← (c.chain progress).keysFor (c.link progress.index) (.ofNat n), c.chain (progress.read n))) := by
  rw [← c.served_chain sound after bound, Chain.request, c.chain_key]
  rfl

/-! ## Requests -/

section Requests

variable {c} {n : UInt32} (sound : progress.Sound) (after : c.first ≤ progress.index)

include sound after

theorem request_of_reaches (reaches : progress.Reaches maxSkip n.toNat) :
    (c.chain progress).request n = .ok (c.keys n.toNat, c.chain (progress.read n.toNat)) := by
  have request := c.request_chain sound after n.toNat_lt_size
  rwa [c.keysFor_chain sound after n.toNat_lt_size reaches, UInt32.ofNat_toNat] at request

theorem request_of_spent (spent : progress.Spent n.toNat) :
    (c.chain progress).request n = .error (.duplicate (.ofNat progress.index) n) := by
  have request := c.request_chain sound after n.toNat_lt_size
  rwa [c.keysFor_chain_of_spent sound spent, UInt32.ofNat_toNat] at request

theorem request_of_far (far : progress.index + maxSkip < n.toNat) :
    (c.chain progress).request n = .error (.tooFarAhead (n - .ofNat progress.index)) := by
  have request := c.request_chain sound after n.toNat_lt_size
  rwa [c.keysFor_chain_of_far sound n.toNat_lt_size far, UInt32.ofNat_toNat] at request

theorem request_ok_iff : (∃ answer, (c.chain progress).request n = .ok answer) ↔ progress.Reaches maxSkip n.toNat := by
  refine ⟨fun ⟨answer, asked⟩ => ?_, fun reaches => ⟨_, request_of_reaches sound after reaches⟩⟩
  rcases progress.reaches_or maxSkip n.toNat with reaches | spent | far
  · exact reaches
  · rw [request_of_spent sound after spent] at asked
    cases asked
  · rw [request_of_far sound after far] at asked
    cases asked

end Requests

theorem follows {n : UInt32} (bounded : n ≠ 0xffffffff) :
    KeyRequests.Follows Chain.request c.chain c.keys c.first maxSkip n := by
  intro progress sound after answer asked
  have reaches := (request_ok_iff sound after).mp ⟨answer, asked⟩
  rw [request_of_reaches sound after reaches] at asked
  cases asked
  exact ⟨succ_toNat_lt bounded, reaches, rfl⟩

end ReceivingChain

end DoubleRatchet
