import DoubleRatchet.Proofs.Session.StateReading
import DoubleRatchet.Proofs.StoredKeys

/-! What a chain has left after it has served the keys of a message. A chain is in order when its kept keys have
rising numbers behind the place where it stands; then the keys that it serves it has no more. -/
namespace DoubleRatchet

namespace ChainKey

theorem advance_advance (chain : ChainKey) (m n : Nat) : (chain.advance m).advance n = chain.advance (m + n) := by
  induction m generalizing chain with
  | zero => rw [Nat.zero_add]; rfl
  | succ m ih => rw [Nat.succ_add]; exact ih chain.next

theorem advance_next (chain : ChainKey) (n : Nat) : (chain.advance n).next = chain.advance (n + 1) :=
  chain.advance_advance n 1

theorem advance_index (chain : ChainKey) (n : Nat) : (chain.advance n).index = chain.index + UInt32.ofNat n := by
  induction n generalizing chain with
  | zero => exact (UInt32.add_zero _).symm
  | succ n ih =>
    rw [advance, ih, next, UInt32.ofNat_add, UInt32.add_assoc, UInt32.add_comm (UInt32.ofNat n)]
    rfl

theorem messageKeysUpTo_eq (chain : ChainKey) (n : Nat) :
    chain.messageKeysUpTo n = (List.range n).map fun i => (chain.advance i).messageKeys := by
  induction n generalizing chain with
  | zero => rfl
  | succ n ih =>
    rw [messageKeysUpTo, ih, List.range_succ_eq_map, List.map_cons, List.map_map]
    rfl

end ChainKey

namespace Chain

theorem served_ratchetKey (chain : Chain) (key : ChainKey) (counter : UInt32) :
    (chain.served key counter).ratchetKey = chain.ratchetKey := by
  unfold served
  split <;> rfl

/-- Where a chain stands after it has served a message. -/
def placeAfter (key : ChainKey) (counter : UInt32) : ChainKey :=
  if counter < key.index then key else (key.advance (counter - key.index).toNat).next

theorem served_key {chain : Chain} {key : ChainKey} (placed : chain.key = .ok key) (counter : UInt32) :
    (chain.served key counter).key = .ok (placeAfter key counter) := by
  unfold served placeAfter
  split
  · exact placed
  · simp [Chain.key, StoredChainKey.ofKey, bind, Except.bind, pure, Except.pure]

theorem placeAfter_index {key : ChainKey} {counter : UInt32} (behind : ¬ counter < key.index) :
    (placeAfter key counter).index = counter + 1 := by
  rw [placeAfter, if_neg behind, ChainKey.next, ChainKey.advance_index, UInt32.ofNat_toNat]
  dsimp only
  grind

/-- The kept keys have rising numbers, all behind the place where the chain stands. -/
def Orderly (chain : Chain) : Prop :=
  (chain.cache.map (·.index)).Pairwise (· < ·) ∧ ∀ key, chain.key = .ok key → ∀ kept ∈ chain.cache, kept.index < key.index

theorem receiving_orderly (ratchetKey : PublicKey) (key : ChainKey) : (receiving ratchetKey key).Orderly :=
  ⟨List.Pairwise.nil, fun _ _ _ member => nomatch member⟩

theorem passed_index {key : ChainKey} {counter : UInt32} (behind : ¬ counter < key.index) {i : Nat}
    (lt : i < (counter - key.index).toNat) : (key.advance i).index.toNat = key.index.toNat + i := by
  have le : key.index ≤ counter := UInt32.not_lt.mp behind
  rw [UInt32.toNat_sub_of_le _ _ le] at lt
  have bound := counter.toNat_lt
  rw [ChainKey.advance_index, UInt32.toNat_add, UInt32.toNat_ofNat']
  omega

theorem served_cache_of_behind {chain : Chain} {key : ChainKey} {counter : UInt32} (behind : counter < key.index) :
    (chain.served key counter).cache = chain.cache.eraseP (·.index == counter) := by
  rw [served, if_pos behind]

theorem served_cache_of_ahead {chain : Chain} {key : ChainKey} {counter : UInt32} (behind : ¬ counter < key.index) :
    (chain.served key counter).cache = Window.append maxCachedKeys chain.cache
      ((List.range (counter - key.index).toNat).map fun i => .ofKeys (key.advance i).messageKeys) := by
  rw [served, if_neg behind]
  dsimp only
  rw [ChainKey.messageKeysUpTo_eq, List.map_map]
  rfl

theorem behind_of_kept {chain : Chain} {key : ChainKey} {counter : UInt32} (orderly : chain.Orderly)
    (placed : chain.key = .ok key) (behind : ¬ counter < key.index) {kept : StoredMessageKeys}
    (member : kept ∈ (chain.served key counter).cache) : kept.index < counter := by
  have le : key.index ≤ counter := UInt32.not_lt.mp behind
  have skip := UInt32.toNat_sub_of_le _ _ le
  rw [served_cache_of_ahead behind, Window.append] at member
  rcases List.mem_append.mp (List.mem_of_mem_drop member) with old | new
  · have := orderly.2 key placed kept old
    grind
  · obtain ⟨i, lt, rfl⟩ := List.mem_map.mp new
    have := List.mem_range.mp lt
    have := passed_index behind this
    exact UInt32.lt_iff_toNat_lt.mpr (show (key.advance i).index.toNat < counter.toNat by omega)

theorem served_orderly {chain : Chain} {key : ChainKey} {counter : UInt32} (orderly : chain.Orderly)
    (placed : chain.key = .ok key) (bounded : counter ≠ 0xffffffff) : (chain.served key counter).Orderly := by
  have ⟨rising, below⟩ := orderly
  have below := below key placed
  by_cases behind : counter < key.index
  · refine ⟨?_, fun place placed' kept member => ?_⟩
    · rw [served_cache_of_behind behind]
      exact rising.sublist (List.eraseP_sublist.map _)
    · rw [served_key placed, placeAfter, if_pos behind] at placed'
      cases placed'
      rw [served_cache_of_behind behind] at member
      exact below kept (List.mem_of_mem_eraseP member)
  · have numbers : ∀ i < (counter - key.index).toNat, (key.advance i).index.toNat = key.index.toNat + i :=
      fun i lt => passed_index behind lt
    have le : key.index ≤ counter := UInt32.not_lt.mp behind
    have skip := UInt32.toNat_sub_of_le _ _ le
    refine ⟨?_, fun place placed' kept member => ?_⟩
    · -- The kept keys come before the place of the chain, those of the messages passed over from there on.
      rw [served_cache_of_ahead behind, Window.append]
      refine List.Pairwise.sublist ((List.drop_sublist _ _).map _) ?_
      rw [List.map_append, List.map_map]
      refine List.pairwise_append.mpr ⟨rising, ?_, ?_⟩
      · refine List.pairwise_map.mpr (List.pairwise_lt_range.imp_of_mem fun {i j} in_i in_j lt => ?_)
        have := numbers i (List.mem_range.mp in_i)
        have := numbers j (List.mem_range.mp in_j)
        exact UInt32.lt_iff_toNat_lt.mpr (show (key.advance i).index.toNat < (key.advance j).index.toNat by omega)
      · rintro _ old _ new
        obtain ⟨kept, member, rfl⟩ := List.mem_map.mp old
        obtain ⟨i, lt, rfl⟩ := List.mem_map.mp new
        have := UInt32.lt_iff_toNat_lt.mp (below kept member)
        have := numbers i (List.mem_range.mp lt)
        exact UInt32.lt_iff_toNat_lt.mpr (show kept.index.toNat < (key.advance i).index.toNat by omega)
    · rw [served_key placed] at placed'
      cases placed'
      rw [placeAfter_index behind]
      have := behind_of_kept orderly placed behind member
      grind

/-- A chain in order that has served a number stands behind it and keeps nothing for it. -/
theorem served_passes {chain : Chain} {place : ChainKey} {counter : UInt32} (orderly : chain.Orderly)
    (placed : chain.key = .ok place) (bounded : counter ≠ 0xffffffff) :
    counter < (placeAfter place counter).index ∧ ∀ kept ∈ (chain.served place counter).cache, kept.index ≠ counter := by
  by_cases behind : counter < place.index
  · refine ⟨by rwa [placeAfter, if_pos behind], fun kept member => ?_⟩
    rw [served_cache_of_behind behind] at member
    exact Window.number_ne_of_mem_eraseP (orderly.1.imp UInt32.ne_of_lt) member
  · refine ⟨?_, fun kept member => ?_⟩
    · rw [placeAfter_index behind]
      grind
    · have := behind_of_kept orderly placed behind member
      grind

theorem served_forgets {chain : Chain} {key : ChainKey} {counter : UInt32} (orderly : chain.Orderly)
    (placed : chain.key = .ok key) (bounded : counter ≠ 0xffffffff) :
    ∃ place, (chain.served key counter).key = .ok place ∧
      (chain.served key counter).keysFor place counter = .error (.duplicate place.index counter) := by
  obtain ⟨passed, others⟩ := served_passes orderly placed bounded
  refine ⟨_, served_key placed counter, ?_⟩
  have forgotten : (chain.served key counter).cache.find? (·.index == counter) = none :=
    List.find?_eq_none.mpr fun kept member => by simpa using others kept member
  rw [keysFor, if_pos passed, forgotten]

end Chain

/-! ## The chain of a state that serves -/

namespace SessionState

def Orderly (state : SessionState) : Prop := ∀ chain ∈ state.receivers, chain.Orderly

theorem find?_modify_findIdx {A : Type} (p : A → Bool) (f : A → A) (keeps : ∀ a, p (f a) = p a) (entries : List A) :
    (entries.modify (entries.findIdx p) f).find? p = (entries.find? p).map f := by
  induction entries with
  | nil => rfl
  | cons first rest ih =>
    cases found : p first with
    | true =>
      rw [List.findIdx_cons, found]
      simp [keeps, found]
    | false =>
      rw [List.findIdx_cons, found]
      simp [found, ih]

theorem afterRead_receivingChain? (state : SessionState) (message : RatchetMessage) (key : ChainKey) :
    (state.afterRead message key).receivingChain? message.ratchetKey =
      (state.receivingChain? message.ratchetKey).map (·.served key message.counter) :=
  find?_modify_findIdx _ _ (fun chain => by rw [Chain.served_ratchetKey]) _

theorem mem_modify_findIdx {A : Type} {p : A → Bool} {f : A → A} {entries : List A} {a : A}
    (member : a ∈ entries.modify (entries.findIdx p) f) :
    a ∈ entries ∨ ∃ found, entries.find? p = some found ∧ a = f found := by
  induction entries with
  | nil => cases member
  | cons first rest ih =>
    rw [List.findIdx_cons] at member
    cases holds : p first with
    | true =>
      rw [holds] at member
      rcases List.mem_cons.mp member with rfl | member
      · exact .inr ⟨first, by simp [holds], rfl⟩
      · exact .inl (List.mem_cons_of_mem _ member)
    | false =>
      rw [holds] at member
      rcases List.mem_cons.mp member with rfl | member
      · exact .inl List.mem_cons_self
      · rcases ih member with old | ⟨found, here, rfl⟩
        · exact .inl (List.mem_cons_of_mem _ old)
        · exact .inr ⟨found, by simp [holds, here], rfl⟩

theorem afterRead_orderly {state : SessionState} {message : RatchetMessage} {key : ChainKey} {chain : Chain}
    (orderly : state.Orderly) (found : state.receivingChain? message.ratchetKey = some chain)
    (placed : chain.key = .ok key) (bounded : message.counter ≠ 0xffffffff) : (state.afterRead message key).Orderly := by
  intro after member
  rcases mem_modify_findIdx member with old | ⟨chain', found', rfl⟩
  · exact orderly after old
  · have same := found.symm.trans found'
    cases same
    exact Chain.served_orderly (orderly chain (List.mem_of_find?_eq_some found)) placed bounded

theorem Reaches.orderly {state reached : SessionState} {message : RatchetMessage} {fresh : KeyPair}
    (reaches : state.Reaches message fresh reached) (orderly : state.Orderly) : reached.Orderly := by
  cases reaches with
  | here => exact orderly
  | stepped _ _ =>
    intro chain member
    rw [stepped_receivers, Window.append] at member
    rcases List.mem_append.mp (List.mem_of_mem_drop member) with old | new
    · exact orderly chain old
    · cases List.mem_singleton.mp new
      exact Chain.receiving_orderly _ _

theorem read_orderly {state : SessionState} {message : RatchetMessage} {fresh : KeyPair} {opened : Opened}
    (orderly : state.Orderly) (bounded : message.counter ≠ 0xffffffff) (run : state.read message fresh = .ok opened) :
    opened.state.Orderly := by
  obtain ⟨_, _, _, _, _, _, reaches, opens⟩ := read_reaches run
  rw [opens.after]
  exact afterRead_orderly (reaches.orderly orderly) opens.found opens.placed bounded

theorem refuses_repetition {state : SessionState} {message : RatchetMessage} {key : ChainKey} {chain : Chain}
    (takes : (state.afterRead message key).Takes message) (orderly : chain.Orderly)
    (found : state.receivingChain? message.ratchetKey = some chain) (placed : chain.key = .ok key)
    (bounded : message.counter ≠ 0xffffffff) (fresh : KeyPair) :
    ∃ index, (state.afterRead message key).read message fresh = .error (.duplicate index message.counter) := by
  obtain ⟨place, placed', refused⟩ := Chain.served_forgets orderly placed bounded
  have found' : (state.afterRead message key).receivingChain? message.ratchetKey =
      some (chain.served key message.counter) := by
    rw [afterRead_receivingChain?, found]
    rfl
  have base := stepBase_eq_none.mpr ⟨takes, place, receivingChainKey?_eq_some.mpr ⟨_, found', placed'⟩⟩
  refine ⟨place.index, ?_⟩
  simp only [read, reached, base, readOnChain, found', placed', refused, bind, Except.bind, pure, Except.pure]

theorem read_again {state : SessionState} {message : RatchetMessage} {fresh : KeyPair} {opened : Opened}
    (orderly : state.Orderly) (bounded : message.counter ≠ 0xffffffff) (run : state.read message fresh = .ok opened)
    (other : KeyPair) : ∃ index, opened.state.read message other = .error (.duplicate index message.counter) := by
  obtain ⟨reached, chain, key, _, _, takes, reaches, opens⟩ := read_reaches run
  rw [opens.after]
  have takes' : (reached.afterRead message key).Takes message := by
    cases reaches with
    | here => exact takes
    | stepped _ _ => exact ⟨Option.some_ne_none _, takes.2⟩
  have chain_orderly := reaches.orderly orderly chain (List.mem_of_find?_eq_some opens.found)
  exact refuses_repetition takes' chain_orderly opens.found opens.placed bounded other

end SessionState

end DoubleRatchet
