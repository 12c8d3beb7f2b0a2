import DoubleRatchet.Proofs.Cipher.Cbc
import DoubleRatchet.Proofs.Conversation.Ladder
import Mathlib.Data.List.Nodup

/-! A state that tracks the climb: it sends on its own rung and keeps the chains of the last five rungs of the other
side, each as far as messages have been read there. Reading a message keeps the state on track, on the rung where it
was or, after the first message of a new rung, one above that. -/
namespace DoubleRatchet

/-- A message of a rung, and what it says. -/
structure RatchetMessage.Written (message : RatchetMessage) (rung : Rung) (n : Nat) (sender receiver : PublicKey)
    (plaintext : Bytes) : Prop where
  version : message.version = 3
  ratchetKey : message.ratchetKey = rung.key
  counter : message.counter = .ofNat n
  bound : n + 1 < UInt32.size
  deciphers : message.decipher (rung.keys n) sender receiver = .ok plaintext

namespace RatchetMessage.Written

variable {message : RatchetMessage} {rung : Rung} {n : Nat} {sender receiver : PublicKey} {plaintext : Bytes}

theorem counter_toNat (written : message.Written rung n sender receiver plaintext) : message.counter.toNat = n := by
  rw [written.counter]
  exact UInt32.toNat_ofNat_of_lt' (Nat.lt_of_succ_lt written.bound)

theorem counter_bounded (written : message.Written rung n sender receiver plaintext) : message.counter ≠ 0xffffffff := by
  intro last
  have number := written.counter_toNat
  have bound := written.bound
  rw [last] at number
  exact absurd (number ▸ bound) (by decide)

end RatchetMessage.Written

namespace SessionState

/-- The state sends on `rung`, at message `place`, and keeps chains of the rungs `known`, the newest first. -/
structure Tracks (state : SessionState) (own remote : PublicKey) (rung : Rung) (place : Nat) (known : List Rung)
    (reads : List (PublicKey × UInt32)) : Prop where
  formed : state.Formed own remote rung.pair rung.root (rung.start.advance place)
  receivers : state.receivers = ((known.take 5).map fun peer => peer.chain (progress reads peer.key)).reverse
  apart : (known.map Rung.key).Nodup
  bounded : ∀ heading ∈ reads, heading.2 ≠ 0xffffffff
  past : ∀ heading ∈ reads, heading.1 ∈ known.map Rung.key

/-- A change of the first entry of a kind changes all of them if there is but one. -/
theorem modify_findIdx {A : Type} {p : A → Bool} {f : A → A} {entries : List A}
    (single : entries.Pairwise fun a b => ¬ (p a ∧ p b)) :
    entries.modify (entries.findIdx p) f = entries.map fun a => if p a then f a else a := by
  induction entries with
  | nil => rfl
  | cons first rest ih =>
    obtain ⟨others, single⟩ := List.pairwise_cons.mp single
    rw [List.findIdx_cons]
    cases holds : p first with
    | true =>
      have same : (rest.map fun a => if p a then f a else a) = rest := by
        refine (List.map_congr_left fun a member => ?_).trans (List.map_id rest)
        exact if_neg fun also => others a member ⟨holds, also⟩
      simp [holds, same]
    | false => simp [holds, ih single]

/-- The latest of some entries, the oldest first, when one more comes up. -/
theorem reverse_take_cons {A : Type} (limit : Nat) (pos : 0 < limit) (entries : List A) (a : A) :
    (entries.take limit).reverse.drop (min 1 ((entries.take limit).reverse.length + 1 - limit)) ++ [a] =
      ((a :: entries).take limit).reverse := by
  obtain ⟨k, rfl⟩ := Nat.exists_eq_succ_of_ne_zero (Nat.pos_iff_ne_zero.mp pos)
  rw [List.take_succ_cons, List.reverse_cons, List.drop_reverse, List.take_take, List.length_reverse, List.length_take]
  congr 2
  by_cases all : entries.length ≤ k
  · rw [List.take_of_length_le all, List.take_of_length_le (by omega)]
  · congr 1
    omega

variable {state : SessionState} {own remote : PublicKey} {rung peer : Rung} {place n : Nat} {known : List Rung}
  {reads : List (PublicKey × UInt32)} {message : RatchetMessage} {plaintext : Bytes}

namespace Tracks

theorem same_of_key (tracks : state.Tracks own remote rung place known reads) {a b : Rung} (a_known : a ∈ known)
    (b_known : b ∈ known) (same : a.key = b.key) : a = b :=
  List.inj_on_of_nodup_map tracks.apart a_known b_known same

theorem sound (tracks : state.Tracks own remote rung place known reads) (key : PublicKey) : (progress reads key).Sound :=
  progress_sound tracks.bounded key

theorem receivingChain?_of_kept (tracks : state.Tracks own remote rung place known reads) (kept : peer ∈ known.take 5) :
    state.receivingChain? peer.key = some (peer.chain (progress reads peer.key)) := by
  rw [receivingChain?, tracks.receivers]
  refine find?_of_unique (List.mem_reverse.mpr (List.mem_map_of_mem kept)) (beq_self_eq_true _) ?_
  intro chain member same
  obtain ⟨other, other_kept, rfl⟩ := List.mem_map.mp (List.mem_reverse.mp member)
  have keys := PublicKey.serialize_injective (beq_iff_eq.mp same)
  rw [tracks.same_of_key (List.mem_of_mem_take other_kept) (List.mem_of_mem_take kept) keys]

theorem receivingChain?_of_missing (tracks : state.Tracks own remote rung place known reads)
    (missing : ∀ other ∈ known.take 5, other.key ≠ peer.key) : state.receivingChain? peer.key = none := by
  rw [receivingChain?, tracks.receivers, List.find?_eq_none]
  intro chain member same
  obtain ⟨other, kept, rfl⟩ := List.mem_map.mp (List.mem_reverse.mp member)
  exact missing other kept (PublicKey.serialize_injective (beq_iff_eq.mp same))

theorem receivers_single (tracks : state.Tracks own remote rung place known reads) (key : PublicKey) :
    state.receivers.Pairwise fun a b => ¬ ((a.ratchetKey == key.serialize) = true ∧ (b.ratchetKey == key.serialize) = true) := by
  have apart : ((known.take 5).map Rung.key).Nodup := tracks.apart.sublist ((List.take_sublist 5 known).map _)
  rw [tracks.receivers, List.pairwise_reverse, List.pairwise_map]
  refine (List.pairwise_map.mp apart).imp fun differ both => differ ?_
  exact PublicKey.serialize_injective ((beq_iff_eq.mp both.2).trans (beq_iff_eq.mp both.1).symm)

theorem afterRead (tracks : state.Tracks own remote rung place known reads) (kept : peer ∈ known.take 5)
    {sender receiver : PublicKey} (written : message.Written peer n sender receiver plaintext) :
    (state.afterRead message (peer.start.advance (progress reads peer.key).index)).Tracks own remote rung place known
      (message.heading :: reads) where
  formed := ⟨tracks.formed.version, tracks.formed.own, tracks.formed.remote, tracks.formed.root, tracks.formed.sender⟩
  receivers := by
    rw [SessionState.afterRead, acknowledge, updateReceivingChain]
    dsimp only
    rw [modify_findIdx (tracks.receivers_single _), tracks.receivers, List.map_reverse, List.map_map]
    congr 1
    refine List.map_congr_left fun other member => ?_
    rw [Function.comp, progress, written.ratchetKey, written.counter]
    -- Rungs differ by their keys, so the chain that changes is the one of the message.
    by_cases same : other.key = peer.key
    · have other_eq := tracks.same_of_key (List.mem_of_mem_take member) (List.mem_of_mem_take kept) same
      have here : ((peer.chain (progress reads peer.key)).ratchetKey == peer.key.serialize) = true := beq_self_eq_true _
      rw [other_eq, if_pos here, peer.served_chain (tracks.sound _) (Nat.lt_of_succ_lt written.bound),
        RatchetMessage.heading, written.ratchetKey, if_pos rfl, written.counter_toNat]
    · have other_key : ¬ (other.chain (progress reads other.key)).ratchetKey = peer.key.serialize :=
        fun keys => same (PublicKey.serialize_injective keys)
      rw [if_neg (mt beq_iff_eq.mp other_key), RatchetMessage.heading, written.ratchetKey, if_neg (Ne.symm same)]
  apart := tracks.apart
  bounded heading member := by
    rcases List.mem_cons.mp member with rfl | member
    · exact written.counter_bounded
    · exact tracks.bounded heading member
  past heading member := by
    rcases List.mem_cons.mp member with rfl | member
    · rw [RatchetMessage.heading, written.ratchetKey]
      exact List.mem_map_of_mem (List.mem_of_mem_take kept)
    · exact tracks.past heading member

theorem progress_of_unknown (tracks : state.Tracks own remote rung place known reads) (new : peer.key ∉ known.map Rung.key) :
    progress reads peer.key = {} := by
  refine progress_of_new fun known_key => ?_
  obtain ⟨heading, member, same⟩ := mem_chains.mp known_key
  exact new (same ▸ tracks.past heading member)

/-- The other side has climbed above this one, and this one above it. -/
theorem stepped (tracks : state.Tracks own remote rung place known reads) (above : peer = rung.next peer.pair)
    (agrees : rung.pair.Agrees peer.pair) (new : peer.key ∉ known.map Rung.key) (fresh : KeyPair) :
    (state.stepped rung.pair.privateKey rung.root peer.key fresh (rung.start.advance place)).Tracks own remote
      (peer.next fresh) 0 (peer :: known) reads := by
  have derived := peer.derive_of_above above agrees
  refine ⟨?_, ?_, List.nodup_cons.mpr ⟨new, tracks.apart⟩, tracks.bounded, fun heading member => ?_⟩
  · have formed := tracks.formed.stepped peer.key fresh
    rw [derived] at formed
    exact formed
  · have latest := reverse_take_cons 5 (by decide) (known.map fun peer => peer.chain (progress reads peer.key))
      (peer.chain (progress reads peer.key))
    rw [stepped_receivers_eq, derived, ← peer.chain_new, ← tracks.progress_of_unknown new,
      tracks.receivers]
    rw [← List.map_take, ← List.map_cons (f := fun peer : Rung => peer.chain (progress reads peer.key)), ← List.map_take]
      at latest
    exact latest
  · exact List.mem_cons_of_mem _ (tracks.past heading member)

/-! ## Reading -/

theorem read_kept (tracks : state.Tracks own remote rung place known reads) (kept : peer ∈ known.take 5)
    (written : message.Written peer n remote own plaintext) (fresh : KeyPair) :
    state.read message fresh = state.openWith message (peer.chain (progress reads peer.key))
      (peer.start.advance (progress reads peer.key).index) own remote := by
  refine tracks.formed.read_known written.version ?_ peer.chain_key fresh
  rw [written.ratchetKey]
  exact tracks.receivingChain?_of_kept kept

theorem after_kept (tracks : state.Tracks own remote rung place known reads) (kept : peer ∈ known.take 5)
    (written : message.Written peer n remote own plaintext) {fresh : KeyPair} {opened : Opened}
    (run : state.read message fresh = .ok opened) :
    opened.state.Tracks own remote rung place known (message.heading :: reads) := by
  rw [tracks.read_kept kept written] at run
  obtain ⟨_, _, after⟩ := openWith_eq_ok.mp run
  rw [after]
  exact tracks.afterRead kept written

theorem reads_kept (tracks : state.Tracks own remote rung place known reads) (kept : peer ∈ known.take 5)
    (written : message.Written peer n remote own plaintext)
    (reachable : n ∈ (progress reads peer.key).kept ∨
      (progress reads peer.key).index ≤ n ∧ n ≤ (progress reads peer.key).index + maxSkip) (fresh : KeyPair) :
    ∃ opened, state.read message fresh = .ok opened ∧ opened.plaintext = plaintext := by
  rw [tracks.read_kept kept written]
  have served := peer.keysFor_chain (tracks.sound peer.key) (Nat.lt_of_succ_lt written.bound) reachable
  rw [← written.counter] at served
  exact ⟨⟨_, plaintext, _⟩, openWith_eq_ok.mpr ⟨served, written.deciphers, rfl⟩, rfl⟩

theorem receivingChain?_of_unknown (tracks : state.Tracks own remote rung place known reads)
    (new : peer.key ∉ known.map Rung.key) : state.receivingChain? peer.key = none := by
  refine tracks.receivingChain?_of_missing fun other kept same => new ?_
  rw [← same]
  exact List.mem_map_of_mem (List.mem_of_mem_take kept)

/-- The first message of a new rung is read as by a state that knows the rung already. -/
theorem read_above (tracks : state.Tracks own remote rung place known reads) (above : peer = rung.next peer.pair)
    (agrees : rung.pair.Agrees peer.pair) (new : peer.key ∉ known.map Rung.key)
    (written : message.Written peer n remote own plaintext) (fresh : KeyPair) :
    state.read message fresh = (state.stepped rung.pair.privateKey rung.root peer.key fresh
      (rung.start.advance place)).read message fresh := by
  have missing : state.receivingChain? message.ratchetKey = none := by
    rw [written.ratchetKey]
    exact tracks.receivingChain?_of_unknown new
  rw [(tracks.stepped above agrees new fresh).read_kept List.mem_cons_self written, tracks.progress_of_unknown new,
    peer.chain_new, tracks.formed.read_new written.version missing, written.ratchetKey, peer.derive_of_above above agrees]
  rfl

theorem after_above (tracks : state.Tracks own remote rung place known reads) (above : peer = rung.next peer.pair)
    (agrees : rung.pair.Agrees peer.pair) (new : peer.key ∉ known.map Rung.key)
    (written : message.Written peer n remote own plaintext) {fresh : KeyPair} {opened : Opened}
    (run : state.read message fresh = .ok opened) : state.draws message = 1 ∧
      opened.state.Tracks own remote (peer.next fresh) 0 (peer :: known) (message.heading :: reads) := by
  refine ⟨tracks.formed.draws_new written.version ?_, ?_⟩
  · rw [written.ratchetKey]
    exact tracks.receivingChain?_of_unknown new
  · rw [tracks.read_above above agrees new written] at run
    exact (tracks.stepped above agrees new fresh).after_kept List.mem_cons_self written run

theorem reads_above (tracks : state.Tracks own remote rung place known reads) (above : peer = rung.next peer.pair)
    (agrees : rung.pair.Agrees peer.pair) (new : peer.key ∉ known.map Rung.key)
    (written : message.Written peer n remote own plaintext) (near : n ≤ maxSkip) (fresh : KeyPair) :
    ∃ opened, state.read message fresh = .ok opened ∧ opened.plaintext = plaintext := by
  rw [tracks.read_above above agrees new written]
  refine (tracks.stepped above agrees new fresh).reads_kept List.mem_cons_self written (.inr ?_) fresh
  rw [tracks.progress_of_unknown new]
  exact ⟨Nat.zero_le n, (Nat.zero_add maxSkip).symm ▸ near⟩

/-- What the state sends next is a message of its rung. -/
theorem sealed_written (tracks : state.Tracks own remote rung place known reads) (bound : place + 1 < UInt32.size)
    (plaintext : Bytes) : (state.sealed (rung.start.advance place) rung.key own remote plaintext).Written rung place own
      remote plaintext where
  version := by
    rw [sealed, RatchetMessage.create, version, tracks.formed.version]
    rfl
  ratchetKey := rfl
  counter := rung.advance_index place
  bound := bound
  deciphers := by
    refine RatchetMessage.decipher_eq_ok.mpr ⟨?_, Cipher.decrypt?_encrypt _ _ _⟩
    rw [RatchetMessage.verifyMac, beq_iff_eq]
    rfl

theorem sent (tracks : state.Tracks own remote rung place known reads) :
    (state.withSendingChainKey (rung.start.advance place).next).Tracks own remote rung (place + 1) known reads where
  formed := by
    refine ⟨tracks.formed.version, tracks.formed.own, tracks.formed.remote, tracks.formed.root, ?_⟩
    rw [withSendingChainKey, tracks.formed.sender, ← ChainKey.advance_next]
    rfl
  receivers := tracks.receivers
  apart := tracks.apart
  bounded := tracks.bounded
  past := tracks.past

end Tracks

/-! ## Chains that have been pushed out -/

/-- A state mistakes a message for one of a new chain when its MAC verifies under the keys that a step of the ratchet
would give for it. -/
def Mistakes (state : SessionState) (message : RatchetMessage) : Prop :=
  ∃ ours root sender receiver, state.ratchetBase = .ok (ours, root) ∧ state.remoteIdentityKey = .ok sender ∧
    state.localIdentityKey = .ok receiver ∧
    message.verifyMac ((root.derive message.ratchetKey ours).2.advance message.counter.toNat).messageKeys.macKey sender
      receiver

theorem keysFor_receiving {ratchetKey : PublicKey} {key : ChainKey} {counter : UInt32} {keys : MessageKeys}
    (start : key.index = 0) (served : (Chain.receiving ratchetKey key).keysFor key counter = .ok keys) :
    keys = (key.advance counter.toNat).messageKeys := by
  have ahead : ¬ counter < key.index := by
    rw [start]
    exact UInt32.not_lt.mpr UInt32.zero_le
  rw [Chain.keysFor, if_neg ahead] at served
  dsimp only at served
  split at served
  · cases served
  · cases served
    rw [start, UInt32.sub_zero]

/-- A message that a state has no chain for is not read, unless it is mistaken for one of a new chain. -/
theorem Formed.refuses_missing {pair : KeyPair} {root : RootKey} {start : ChainKey}
    (formed : state.Formed own remote pair root start) (missing : state.receivingChain? message.ratchetKey = none)
    (unmistaken : ¬ state.Mistakes message) (fresh : KeyPair) (opened : Opened) :
    state.read message fresh ≠ .ok opened := by
  intro run
  by_cases version : message.version = 3
  · rw [formed.read_new version missing] at run
    obtain ⟨served, deciphered, _⟩ := openWith_eq_ok.mp run
    have verified := (RatchetMessage.decipher_eq_ok.mp deciphered).1
    rw [keysFor_receiving (derive_index ..) served] at verified
    exact unmistaken ⟨_, _, remote, own, formed.ratchetBase, formed.remoteIdentityKey, formed.localIdentityKey, verified⟩
  · rw [formed.read_version version] at run
    cases run

/-- A message on a chain that has been pushed out is not read, unless it is mistaken for one of a new chain. -/
theorem Tracks.refuses_pushed_out (tracks : state.Tracks own remote rung place known reads) (member : peer ∈ known)
    (pushed_out : peer ∉ known.take 5) (written : message.Written peer n remote own plaintext)
    (unmistaken : ¬ state.Mistakes message) (fresh : KeyPair) (opened : Opened) :
    state.read message fresh ≠ .ok opened := by
  refine tracks.formed.refuses_missing ?_ unmistaken fresh opened
  rw [written.ratchetKey]
  refine tracks.receivingChain?_of_missing fun other kept same => pushed_out ?_
  rw [← tracks.same_of_key (List.mem_of_mem_take kept) member same]
  exact kept

end SessionState

end DoubleRatchet
