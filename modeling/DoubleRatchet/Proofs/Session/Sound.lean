import DoubleRatchet.Proofs.Session.Handshake
import DoubleRatchet.Proofs.Session.Turns

/-! The form of what is stored for a peer. Everything in a sound record can be read back, nothing in it exceeds its
limit, and every operation of a session leaves a sound record behind. -/
namespace DoubleRatchet

/-! ## Chains -/

/-- A receiving chain that stands at a key of 32 bytes and keeps keys of the right lengths, in order, within the
limit. -/
structure Chain.Sound (chain : Chain) : Prop where
  placed : ∃ key : ChainKey, chain.chainKey = some (.ofKey key)
  cache_length : chain.cache.length ≤ maxCachedKeys
  kept : ∀ stored ∈ chain.cache, ∃ keys : MessageKeys, stored = .ofKeys keys
  orderly : chain.Orderly

namespace Chain

theorem receiving_sound (ratchetKey : PublicKey) (key : ChainKey) : (receiving ratchetKey key).Sound where
  placed := ⟨key, rfl⟩
  cache_length := Nat.zero_le _
  kept _ member := nomatch member
  orderly := receiving_orderly ratchetKey key

theorem Sound.key {chain : Chain} (sound : chain.Sound) : ∃ key, chain.key = .ok key := by
  obtain ⟨key, placed⟩ := sound.placed
  refine ⟨key, ?_⟩
  simp [Chain.key, placed, StoredChainKey.ofKey, bind, Except.bind, pure, Except.pure]

theorem Sound.served {chain : Chain} {key : ChainKey} {counter : UInt32} (sound : chain.Sound)
    (placed : chain.key = .ok key) (bounded : counter ≠ 0xffffffff) : (chain.served key counter).Sound where
  placed := by
    unfold Chain.served
    split
    · exact sound.placed
    · exact ⟨_, rfl⟩
  cache_length := by
    by_cases behind : counter < key.index
    · rw [served_cache_of_behind behind]
      exact Nat.le_trans List.eraseP_sublist.length_le sound.cache_length
    · rw [served_cache_of_ahead behind]
      exact Window.length_append_le sound.cache_length
  kept := by
    intro stored member
    by_cases behind : counter < key.index
    · rw [served_cache_of_behind behind] at member
      exact sound.kept stored (List.mem_of_mem_eraseP member)
    · rw [served_cache_of_ahead behind, Window.append] at member
      rcases List.mem_append.mp (List.mem_of_mem_drop member) with old | new
      · exact sound.kept stored old
      · obtain ⟨i, _, rfl⟩ := List.mem_map.mp new
        exact ⟨_, rfl⟩
  orderly := served_orderly sound.orderly placed bounded

end Chain

/-! ## States -/

/-- A state that is formed, knows the initiator's base key, and has few enough receiving chains, one for a ratchet
key. -/
structure SessionState.Sound (state : SessionState) : Prop where
  formed : ∃ own remote pair root place, state.Formed own remote pair root place
  baseKey : ∃ key : PublicKey, state.baseKey = key.serialize
  receivers_length : state.receivers.length ≤ maxReceivingChains
  receivers_nodup : (state.receivers.map (·.ratchetKey)).Nodup
  receivers : ∀ chain ∈ state.receivers, chain.Sound

namespace SessionState

theorem Sound.lengths {state : SessionState} (sound : state.Sound) : state.localIdentity.length = 33 ∧
    state.remoteIdentity.length = 33 ∧ state.baseKey.length = 33 ∧ state.rootKey.length = 32 := by
  obtain ⟨own, remote, pair, root, place, formed⟩ := sound.formed
  obtain ⟨base, baseKey⟩ := sound.baseKey
  rw [formed.own, formed.remote, formed.root, baseKey]
  exact ⟨own.length_serialize, remote.length_serialize, base.length_serialize, root.key.length_bytes⟩

theorem initiatorState_sound (stores : Stores) (bundle : PreKeyBundle) (signedPreKey : PublicKey)
    (base ratchet : KeyPair) : (stores.initiatorState bundle signedPreKey base ratchet).Sound where
  formed := ⟨_, _, _, _, _, initiatorState_formed ..⟩
  baseKey := ⟨base.publicKey, rfl⟩
  receivers_length := by simp [initiatorState_receivers, maxReceivingChains]
  receivers_nodup := by simp [initiatorState_receivers]
  receivers := by
    intro chain member
    rw [initiatorState_receivers, List.mem_singleton] at member
    rw [member]
    exact Chain.receiving_sound ..

theorem responderState_sound (stores : Stores) (message : PreKeyMessage) (signedPreKey : KeyPair)
    (oneTimePreKey : Option KeyPair) : (stores.responderState message signedPreKey oneTimePreKey).Sound where
  formed := ⟨_, _, _, _, _, responderState_formed ..⟩
  baseKey := ⟨message.baseKey, rfl⟩
  receivers_length := Nat.zero_le _
  receivers_nodup := List.nodup_nil
  receivers _ member := nomatch member

theorem Formed.withSendingChainKey {state : SessionState} {own remote : PublicKey} {pair : KeyPair} {root : RootKey}
    {place : ChainKey} (formed : state.Formed own remote pair root place) (next : ChainKey) :
    (state.withSendingChainKey next).Formed own remote pair root next where
  version := formed.version
  own := formed.own
  remote := formed.remote
  root := formed.root
  sender := by
    rw [SessionState.withSendingChainKey, formed.sender]
    rfl

theorem Formed.afterRead {state : SessionState} {own remote : PublicKey} {pair : KeyPair} {root : RootKey}
    {place : ChainKey} (formed : state.Formed own remote pair root place) (message : RatchetMessage) (key : ChainKey) :
    (state.afterRead message key).Formed own remote pair root place :=
  ⟨formed.version, formed.own, formed.remote, formed.root, formed.sender⟩

theorem afterRead_ratchetKeys (state : SessionState) (message : RatchetMessage) (key : ChainKey) :
    (state.afterRead message key).receivers.map (·.ratchetKey) = state.receivers.map (·.ratchetKey) := by
  apply List.ext_getElem?
  intro i
  simp only [SessionState.afterRead, updateReceivingChain, acknowledge, List.getElem?_map, List.getElem?_modify,
    Option.map_eq_map, Option.map_map]
  congr 1
  funext chain
  simp only [Function.comp_apply]
  split
  · exact Chain.served_ratchetKey ..
  · rfl

namespace Sound

variable {state : SessionState}

theorem withSendingChainKey (sound : state.Sound) (next : ChainKey) : (state.withSendingChainKey next).Sound where
  formed := by
    obtain ⟨own, remote, pair, root, place, formed⟩ := sound.formed
    exact ⟨own, remote, pair, root, next, formed.withSendingChainKey next⟩
  baseKey := sound.baseKey
  receivers_length := sound.receivers_length
  receivers_nodup := sound.receivers_nodup
  receivers := sound.receivers

theorem afterRead (sound : state.Sound) {message : RatchetMessage} {chain : Chain} {key : ChainKey}
    (found : state.receivingChain? message.ratchetKey = some chain) (placed : chain.key = .ok key)
    (bounded : message.counter ≠ 0xffffffff) : (state.afterRead message key).Sound where
  formed := by
    obtain ⟨own, remote, pair, root, place, formed⟩ := sound.formed
    exact ⟨own, remote, pair, root, place, formed.afterRead message key⟩
  baseKey := sound.baseKey
  receivers_length := by
    have same := congrArg List.length (state.afterRead_ratchetKeys message key)
    rw [List.length_map, List.length_map] at same
    rw [same]
    exact sound.receivers_length
  receivers_nodup := by
    rw [afterRead_ratchetKeys]
    exact sound.receivers_nodup
  receivers := by
    intro after member
    rcases mem_modify_findIdx member with old | ⟨chain', found', rfl⟩
    · exact sound.receivers after old
    · have same := found.symm.trans found'
      cases same
      exact (sound.receivers chain (List.mem_of_find?_eq_some found)).served placed bounded

/-- A step of the ratchet is taken only for a new ratchet key. -/
theorem stepped (sound : state.Sound) {message : RatchetMessage} {ours : PrivateKey} {root : RootKey}
    (needs : state.NeedsStep message ours root) (fresh : KeyPair) (place : ChainKey) :
    (state.stepped ours root message.ratchetKey fresh place).Sound where
  formed := by
    obtain ⟨own, remote, pair, root', place', formed⟩ := sound.formed
    have base := needs.base
    rw [formed.ratchetBase] at base
    cases base
    have stepped := formed.stepped message.ratchetKey fresh
    exact ⟨own, remote, fresh, _, _, stepped.version, stepped.own, stepped.remote, stepped.root, stepped.sender⟩
  baseKey := sound.baseKey
  receivers_length := by
    rw [stepped_receivers]
    exact Window.length_append_le sound.receivers_length
  receivers_nodup := by
    rw [stepped_receivers_eq, List.map_append, List.nodup_append]
    refine ⟨sound.receivers_nodup.sublist ((List.drop_sublist _ _).map _), by simp, ?_⟩
    intro old member new single same
    rw [List.map_singleton, List.mem_singleton] at single
    obtain ⟨chain, kept, rfl⟩ := List.mem_map.mp member
    have other := List.find?_eq_none.mp needs.missing chain (List.mem_of_mem_drop kept)
    apply other
    rw [beq_iff_eq, same, single]
    rfl
  receivers := by
    intro chain member
    rw [stepped_receivers_eq] at member
    rcases List.mem_append.mp member with old | new
    · exact sound.receivers chain (List.mem_of_mem_drop old)
    · cases List.mem_singleton.mp new
      exact Chain.receiving_sound ..

theorem read (sound : state.Sound) {message : RatchetMessage} {fresh : KeyPair} {opened : Opened}
    (bounded : message.counter ≠ 0xffffffff) (opens : state.read message fresh = .ok opened) : opened.state.Sound := by
  obtain ⟨reached, _, _, _, _, _, reaches, opens⟩ := read_reaches opens
  have reached_sound : reached.Sound := by
    cases reaches with
    | here => exact sound
    | stepped needs _ => exact sound.stepped needs fresh _
  rw [opens.after]
  exact reached_sound.afterRead opens.found opens.placed bounded

end Sound

theorem sound_enduring : Enduring Sound where
  initiator := initiatorState_sound
  responder := responderState_sound
  sends sound _ := sound.withSendingChainKey _
  reads sound bounded opens := sound.read bounded opens

end SessionState

/-! ## Records -/

/-- A record with a current state and few enough archived ones, all of them sound. -/
structure SessionRecord.Sound (record : SessionRecord) : Prop where
  current : ∃ state, record.current = some state
  archived_length : record.archived.length ≤ maxArchivedStates
  states : ∀ state ∈ record.states, state.Sound

namespace SessionRecord

variable {record record' : SessionRecord} {state state' : SessionState}

theorem archive_archived_length (few : record.archived.length ≤ maxArchivedStates) :
    record.archive.archived.length ≤ maxArchivedStates := by
  unfold archive
  cases record.current with
  | none => exact few
  | some state =>
    dsimp only
    split
    · rw [List.length_dropLast, List.length_cons]
      exact few
    · exact Nat.not_lt.mp ‹_›

theorem Replaces.archived_length (replaces : record.Replaces state state' record')
    (few : record.archived.length ≤ maxArchivedStates) : record'.archived.length ≤ maxArchivedStates := by
  cases replaces with
  | current _ => exact few
  | archived index _ =>
    apply archive_archived_length
    exact Nat.le_trans (List.eraseIdx_sublist ..).length_le few

theorem sound_enduring : Enduring Sound where
  turned := by
    intro stores record record' request before turns bounded
    have few : record.archived.length ≤ maxArchivedStates := by
      rcases before with rfl | sound
      · exact Nat.zero_le _
      · exact sound.archived_length
    have states := SessionState.sound_enduring.all.turned (before.imp_right Sound.states) turns bounded
    cases turns with
    | begins peer bundle signedPreKey base ratchet => exact ⟨⟨_, rfl⟩, archive_archived_length few, states⟩
    | sends peer plaintext current placed => exact ⟨⟨_, rfl⟩, few, states⟩
    | reads peer message opens replaces =>
      exact ⟨⟨_, replaces.current_eq⟩, replaces.archived_length few, states⟩
    | answers peer message answers opens replaces =>
      refine ⟨⟨_, replaces.current_eq⟩, replaces.archived_length ?_, states⟩
      cases answers with
      | known _ => exact few
      | built _ _ _ _ _ => exact archive_archived_length few

end SessionRecord

end DoubleRatchet
