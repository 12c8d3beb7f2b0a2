import DoubleRatchet.Proofs.Group.Broadcast
import DoubleRatchet.Proofs.Group.Member
import DoubleRatchet.Proofs.GroupSkippedKeys

/-! What is certain of a message to a group that was read. The first chain with its number has signed all of it, its text
is under the key that the chain gives, and of all that is kept only the place of that chain and its seeds have changed, so
that the key is given no more. Nothing that the chain has not signed gets as far as its keys. -/
namespace DoubleRatchet

open DoubleRatchet.Group KeyRequests

/-! ## Signed bytes -/

/-- The last 64 bytes are a signature of all bytes before them. -/
def Bytes.SignedBy (bytes : Bytes) (key : PublicKey) : Prop :=
  64 ≤ bytes.length ∧ key.verify (bytes.rdrop 64) (bytes.rtake 64)

theorem Frame.read_eq_ok {M : Type} {schema : Protobuf.Schema M} {trailerLength : Nat} {bytes : Bytes}
    {parts : Parts M trailerLength} (run : read schema trailerLength bytes = .ok parts) :
    trailerLength ≤ bytes.length ∧ parts.content = bytes.rdrop trailerLength ∧
      parts.trailer.bytes = bytes.rtake trailerLength := by
  unfold read at run
  split at run
  · cases run
  · rename_i long
    obtain ⟨version, -, run⟩ := bind_eq_ok.mp run
    split at run
    · cases run
    · cases run
      exact ⟨by omega, rfl, rfl⟩

/-- A message is verified by what its bytes end in. -/
theorem GroupMessage.verify_iff {bytes : Bytes} {message : GroupMessage} (parsed : parse bytes = .ok message)
    (key : PublicKey) : message.verify key ↔ bytes.SignedBy key := by
  unfold parse at parsed
  obtain ⟨parts, read, parsed⟩ := bind_eq_ok.mp parsed
  obtain ⟨keyId, -, parsed⟩ := bind_eq_ok.mp parsed
  obtain ⟨ciphertext, -, made⟩ := bind_eq_ok.mp parsed
  cases made
  obtain ⟨long, content, trailer⟩ := Frame.read_eq_ok read
  rw [verify, content, trailer, Bytes.SignedBy]
  exact (and_iff_right long).symm

namespace Group

/-! ## Chains that have passed a message -/

namespace SenderKeyState

variable {state state' : SenderKeyState} {chain : ChainKey} {n m : UInt32} {key : MessageKey}

/-- How a chain serves the key of a message, and what it is afterwards: it gives up the seed it kept for the number, or it
goes past the message, which must not be the last of all, and keeps the seeds of those in between. -/
inductive Serves (state : SenderKeyState) (n : UInt32) (key : MessageKey) : SenderKeyState → Prop
  | kept {chain : ChainKey} (placed : state.chainKey = .ok chain) (behind : n < chain.iteration)
    (first : state.cache.find? (·.iteration == n) = some (.ofMessageKey key)) :
    Serves state n key { state with cache := state.cache.eraseP (·.iteration == n) }
  | ahead {chain : ChainKey} (steps : Nat) (placed : state.chainKey = .ok chain)
    (number : n.toNat = chain.iteration.toNat + steps) (near : steps ≤ maxSkip) (inner : n ≠ 0xffffffff)
    (advanced : key = (chain.advance steps).messageKey) :
    Serves state n key { state with
      chain := some (.ofChainKey (chain.advance steps).next)
      cache := Window.append maxCachedKeys state.cache ((chain.messageKeysUpTo steps).map .ofMessageKey) }

theorem seed32_eq_ok {stored : StoredSeed} {complaint : String} {seed : FixedBytes 32} :
    stored.seed32 complaint = .ok seed ↔ stored = ⟨stored.iteration, seed.bytes⟩ := by
  constructor
  · intro run
    unfold StoredSeed.seed32 at run
    split at run
    · rename_i found
      cases run
      rw [← FixedBytes.ofBytes?_eq_some_iff.mp found]
    · cases run
  · intro same
    rw [same]
    simp [StoredSeed.seed32]

theorem next?_eq_ok {next : ChainKey} : chain.next? = .ok next ↔ chain.iteration ≠ 0xffffffff ∧ next = chain.next := by
  unfold ChainKey.next?
  split <;> simp_all [eq_comm]

theorem serves_of_request (asked : state.request n = .ok (key, state')) : state.Serves n key state' := by
  obtain ⟨chain, placed, found, rfl⟩ := request_eq_ok.mp asked
  unfold keyFor at found
  unfold SenderKeyState.asked
  split at found
  · rename_i behind
    rw [if_pos behind]
    split at found
    · rename_i stored first
      obtain ⟨seed, read, made⟩ := bind_eq_ok.mp found
      cases made
      rw [seed32_eq_ok.mp read] at first
      exact .kept placed behind first
    · cases found
  · rename_i ahead
    rw [if_neg ahead]
    have steps := UInt32.toNat_sub_of_le _ _ (UInt32.not_lt.mp ahead)
    have reached := UInt32.le_iff_toNat_le.mp (UInt32.not_lt.mp ahead)
    dsimp only at found ⊢
    split at found
    · cases found
    · rename_i near
      obtain ⟨next, passed, made⟩ := bind_eq_ok.mp found
      cases made
      rw [if_neg near, passed]
      obtain ⟨inner, rfl⟩ := next?_eq_ok.mp passed
      refine .ahead _ placed (by omega) (Nat.not_lt.mp near) ?_ rfl
      rintro rfl
      refine inner ?_
      rw [ChainKey.advance_iteration, UInt32.ofNat_toNat]
      grind

/-! ### What is served is spent -/

/-- The seeds that a chain keeps have different numbers, all behind the place where the chain stands. -/
structure Tidy (state : SenderKeyState) : Prop where
  distinct : (state.cache.map (·.iteration)).Nodup
  behind : ∀ chain, state.chainKey = .ok chain → ∀ kept ∈ state.cache, kept.iteration < chain.iteration

/-- A tidy chain that stands behind a message and keeps no seed for it. -/
structure HasSpent (state : SenderKeyState) (n : UInt32) : Prop extends state.Tidy where
  passed : ∃ chain, state.chainKey = .ok chain ∧ n < chain.iteration
  forgotten : ∀ kept ∈ state.cache, kept.iteration ≠ n

theorem start_tidy (keyId : UInt32) (chain : ChainKey) (signingKey : PublicKey) (own : Option PrivateKey) :
    (start keyId chain signingKey own).Tidy where
  distinct := List.nodup_nil
  behind _ _ _ member := nomatch member

theorem HasSpent.request (spent : state.HasSpent n) : ∃ place, state.request n = .error (.duplicate place n) := by
  obtain ⟨chain, placed, passed⟩ := spent.passed
  have forgotten : state.cache.find? (·.iteration == n) = none :=
    List.find?_eq_none.mpr fun kept member => by simpa using spent.forgotten kept member
  refine ⟨chain.iteration, ?_⟩
  rw [SenderKeyState.request, ask, placed]
  simp only [keyFor, if_pos passed, forgotten, Except.map]

section Ahead

variable {steps : Nat}

/-- The numbers of the messages that a chain goes past. -/
theorem passed_iterations (chain : ChainKey) (steps : Nat) :
    ((chain.messageKeysUpTo steps).map StoredSeed.ofMessageKey).map (·.iteration) =
      (List.range' chain.iteration.toNat steps).map UInt32.ofNat := by
  rw [ChainKey.messageKeysUpTo_eq, List.range'_eq_map_range, List.map_map, List.map_map, List.map_map]
  refine List.map_congr_left fun i _ => ?_
  have iteration : (StoredSeed.ofMessageKey (chain.advance i).messageKey).iteration = (chain.advance i).iteration := rfl
  simp only [Function.comp, iteration, ChainKey.advance_iteration, UInt32.ofNat_add, UInt32.ofNat_toNat]

variable (number : n.toNat = chain.iteration.toNat + steps)

include number

theorem iteration_le : chain.iteration ≤ n := UInt32.le_iff_toNat_le.mpr (Nat.le.intro number.symm)

theorem nodup_passed : (((chain.messageKeysUpTo steps).map StoredSeed.ofMessageKey).map (·.iteration)).Nodup := by
  rw [passed_iterations]
  refine (List.nodup_map_iff_inj_on List.nodup_range').mpr fun i within j within' same => ?_
  have ⟨_, before⟩ := List.mem_range'_1.mp within
  have ⟨_, before'⟩ := List.mem_range'_1.mp within'
  have bound := n.toNat_lt_size
  have same := congrArg UInt32.toNat same
  rwa [UInt32.toNat_ofNat_of_lt' (by omega), UInt32.toNat_ofNat_of_lt' (by omega)] at same

theorem mem_passed {kept : StoredSeed} (member : kept ∈ (chain.messageKeysUpTo steps).map StoredSeed.ofMessageKey) :
    chain.iteration ≤ kept.iteration ∧ kept.iteration < n := by
  have listed := List.mem_map_of_mem (f := (·.iteration)) member
  rw [passed_iterations] at listed
  obtain ⟨i, within, same⟩ := List.mem_map.mp listed
  have ⟨reached, before⟩ := List.mem_range'_1.mp within
  have bound := n.toNat_lt_size
  have value : kept.iteration.toNat = i := by
    rw [← same, UInt32.toNat_ofNat_of_lt' (by omega)]
  rw [UInt32.le_iff_toNat_le, UInt32.lt_iff_toNat_lt]
  omega

theorem lt_next (inner : n ≠ 0xffffffff) : n < (chain.advance steps).next.iteration := by
  have place : (chain.advance steps).iteration = n := by
    rw [ChainKey.advance_iteration, ← UInt32.ofNat_toNat (x := chain.iteration), ← UInt32.ofNat_add, ← number,
      UInt32.ofNat_toNat]
  rw [ChainKey.next, place]
  dsimp only
  grind

end Ahead

theorem Serves.tidy (serves : state.Serves n key state') (tidy : state.Tidy) : state'.Tidy := by
  cases serves with
  | kept placed behind first =>
    refine ⟨tidy.distinct.sublist (List.eraseP_sublist.map _), fun place placed' kept member => ?_⟩
    exact tidy.behind place placed' kept (List.mem_of_mem_eraseP member)
  | ahead steps placed number near inner advanced =>
    constructor
    · -- The chain stood behind none of the seeds it kept, and before none of those it goes past.
      refine List.Nodup.sublist ((List.drop_sublist _ _).map _) ?_
      rw [List.map_append]
      refine List.nodup_append.mpr ⟨tidy.distinct, nodup_passed number, ?_⟩
      rintro _ old _ new rfl
      obtain ⟨kept, member, same⟩ := List.mem_map.mp old
      obtain ⟨passed, member', same'⟩ := List.mem_map.mp new
      have behind := tidy.behind _ placed kept member
      have reached := (mem_passed number member').1
      grind
    · intro place placed' kept member
      cases (withChainKey_chainKey state _).symm.trans placed'
      have before := lt_next number inner
      rcases List.mem_append.mp (List.mem_of_mem_drop member) with old | new
      · have behind := tidy.behind _ placed kept old
        have reached := iteration_le number
        grind
      · exact UInt32.lt_trans (mem_passed number new).2 before

/-- The key of a message is served once. -/
theorem Serves.hasSpent (serves : state.Serves n key state') (tidy : state.Tidy) : state'.HasSpent n := by
  refine ⟨serves.tidy tidy, ?_, ?_⟩
  · cases serves with
    | kept placed behind first => exact ⟨_, placed, behind⟩
    | ahead steps placed number near inner advanced => exact ⟨_, withChainKey_chainKey state _, lt_next number inner⟩
  · intro kept member
    cases serves with
    | kept placed behind first => exact Window.number_ne_of_mem_eraseP tidy.distinct member
    | ahead steps placed number near inner advanced =>
      have reached := iteration_le number
      rcases List.mem_append.mp (List.mem_of_mem_drop member) with old | new
      · have behind := tidy.behind _ placed kept old
        grind
      · have before := (mem_passed number new).2
        grind

theorem HasSpent.serves (spent : state.HasSpent m) (serves : state.Serves n key state') : state'.HasSpent m := by
  obtain ⟨chain, placed, passed⟩ := spent.passed
  refine ⟨serves.tidy spent.toTidy, ?_, ?_⟩
  · cases serves with
    | kept placed' behind first => exact ⟨chain, placed, passed⟩
    | ahead steps placed' number near inner advanced =>
      cases placed.symm.trans placed'
      have reached := iteration_le number
      have before := lt_next number inner
      exact ⟨_, withChainKey_chainKey state _, by grind⟩
  · intro kept member
    cases serves with
    | kept placed' behind first => exact spent.forgotten kept (List.mem_of_mem_eraseP member)
    | ahead steps placed' number near inner advanced =>
      cases placed.symm.trans placed'
      rcases List.mem_append.mp (List.mem_of_mem_drop member) with old | new
      · exact spent.forgotten kept old
      · have reached := (mem_passed number new).1
        grind

/-- What has been spent stays spent, whatever else is asked of the chain. -/
theorem HasSpent.after (spent : state.HasSpent m) (requests : List UInt32) :
    (KeyRequests.after SenderKeyState.request state requests).HasSpent m := by
  induction requests generalizing state with
  | nil => exact spent
  | cons n rest ih =>
    rw [after_cons]
    cases asked : state.request n with
    | error fault =>
      rw [left_of_error asked]
      exact ih spent
    | ok answer =>
      rw [left_of_ok asked]
      exact ih (spent.serves (serves_of_request asked))

/-! ### Reading -/

variable {bytes text : Bytes} {message : GroupMessage} {signingKey : PublicKey}

theorem read_eq_ok : state.read message = .ok (text, state') ↔ ∃ signingKey key, state.signingKey = .ok signingKey ∧
    message.verify signingKey ∧ state.request message.iteration = .ok (key, state') ∧
    Cipher.decrypt? key.cipherKey key.iv message.ciphertext = some text := by
  unfold SenderKeyState.read
  constructor
  · intro read
    obtain ⟨signingKey, signer, read⟩ := bind_eq_ok.mp read
    split at read
    · rename_i verified
      obtain ⟨⟨key, served⟩, asked, read⟩ := bind_eq_ok.mp read
      dsimp only at read
      split at read
      · cases read
      · rename_i deciphered
        cases read
        exact ⟨signingKey, key, signer, verified, asked, deciphered⟩
    · cases read
  · rintro ⟨signingKey, key, signer, verified, asked, deciphered⟩
    refine bind_eq_ok.mpr ⟨signingKey, signer, ?_⟩
    rw [if_pos verified]
    refine bind_eq_ok.mpr ⟨(key, state'), asked, ?_⟩
    dsimp only
    rw [deciphered]
    rfl

theorem read_of_unverified (signer : state.signingKey = .ok signingKey) (unverified : ¬ message.verify signingKey) :
    state.read message = .error .badGroupSignature := by
  simp only [SenderKeyState.read, signer, bind, Except.bind, if_neg unverified]

/-- A message is authentic to a chain that reads it: the chain has signed all of its bytes, and the text is what the key
that the chain serves for the message deciphers. -/
structure Authenticates (state : SenderKeyState) (bytes : Bytes) (message : GroupMessage) (text : Bytes)
    (signingKey : PublicKey) (key : MessageKey) (state' : SenderKeyState) : Prop where
  signer : state.signingKey = .ok signingKey
  signed : bytes.SignedBy signingKey
  served : state.Serves message.iteration key state'
  deciphered : Cipher.decrypt? key.cipherKey key.iv message.ciphertext = some text

theorem read_authenticates (parsed : GroupMessage.parse bytes = .ok message)
    (read : state.read message = .ok (text, state')) :
    ∃ signingKey key, state.Authenticates bytes message text signingKey key state' := by
  obtain ⟨signingKey, key, signer, verified, asked, deciphered⟩ := read_eq_ok.mp read
  exact ⟨signingKey, key, signer, (GroupMessage.verify_iff parsed signingKey).mp verified, serves_of_request asked,
    deciphered⟩

end SenderKeyState

namespace SenderKeyRecord

variable {record : SenderKeyRecord} {bytes : Bytes} {message : GroupMessage} {before after : List SenderKeyState}
  {state : SenderKeyState}

/-- The bytes are a message for a chain of the record: the first that has the message's number. -/
structure Addressed (record : SenderKeyRecord) (bytes : Bytes) (message : GroupMessage) (before : List SenderKeyState)
    (state : SenderKeyState) (after : List SenderKeyState) : Prop where
  parsed : GroupMessage.parse bytes = .ok message
  states : record.states = before ++ state :: after
  named : state.keyId = message.keyId
  first : ∀ earlier ∈ before, earlier.keyId ≠ message.keyId

/-- All chains that are kept are tidy. -/
def Tidy (record : SenderKeyRecord) : Prop := ∀ state ∈ record.states, state.Tidy

theorem Tidy.take (tidy : record.Tidy) (receipt : Receipt) : (record.take receipt).Tidy := by
  cases receipt with
  | chain distribution =>
    cases begun : distributed distribution with
    | error fault =>
      rw [record.take_refused begun]
      exact tidy
    | ok state =>
      rw [record.take_begun begun]
      intro other member
      rcases mem_push member with old | rfl
      · exact tidy other old
      · unfold distributed at begun
        split at begun
        · cases begun
        · cases begun
          exact SenderKeyState.start_tidy ..
  | message bytes =>
    cases parsed : GroupMessage.parse bytes with
    | error fault =>
      rw [record.take_garbled parsed]
      exact tidy
    | ok message =>
      rw [record.take_parsed parsed]
      cases read : record.read message with
      | error fault => exact tidy
      | ok done =>
        obtain ⟨before, state, after, state', states, -, -, reads, record'⟩ := read_eq_ok read
        obtain ⟨signingKey, key, authentic⟩ := SenderKeyState.read_authenticates parsed reads
        have known : state ∈ record.states := states ▸ List.mem_append_right _ List.mem_cons_self
        show done.2.Tidy
        rw [record']
        intro other member
        rcases mem_of_replaced member with rfl | old
        · exact authentic.served.tidy (tidy state known)
        · exact tidy other (states ▸ old)

theorem Tidy.takeAll (tidy : record.Tidy) (receipts : List Receipt) : (record.takeAll receipts).Tidy := by
  induction receipts generalizing record with
  | nil => exact tidy
  | cons receipt rest ih => exact ih (tidy.take receipt)

theorem Tidy.none (isEmpty : record.isEmpty) : record.Tidy := by
  intro state member
  rw [List.isEmpty_iff.mp isEmpty] at member
  cases member

end SenderKeyRecord

end Group

/-- A message to a group is read only if its bytes are signed by the first chain that is kept under its number. The text
is deciphered with the key that this chain serves; of all stores only the place of this chain and its seeds change; and if
its seeds were in order, as in every record that is made of what reaches a member, the key is not served again. Bytes that
the chain has not signed change nothing. -/
theorem group_messages_authenticated (name : SenderKeyName) (device : Device) (bytes : Bytes) :
    (∀ text device', (Group.decrypt name bytes : OnDevice Bytes) device = (.ok text, device') →
      ∃ message before state after signingKey key state',
        (device.stores.senderKey name).Addressed bytes message before state after ∧
        state.Authenticates bytes message text signingKey key state' ∧
        device'.stores = device.stores.withSenderKey name ⟨before ++ state' :: after⟩ ∧
        state' = { state with chain := state'.chain, cache := state'.cache } ∧
        (state.Tidy → ∀ requests, ∃ place, (KeyRequests.after SenderKeyState.request state' requests).request message.iteration =
          .error (.duplicate place message.iteration))) ∧
    (∀ message before state after signingKey,
      (device.stores.senderKey name).Addressed bytes message before state after →
      state.signingKey = .ok signingKey → ¬ bytes.SignedBy signingKey →
      ∃ device', (Group.decrypt name bytes : OnDevice Bytes) device = (.error .badGroupSignature, device') ∧
        device'.stores = device.stores) ∧
    ∀ (start : Device) (receipts : List Receipt), (start.stores.senderKey name).isEmpty →
      ((start.takeAll name receipts).stores.senderKey name).Tidy := by
  refine ⟨fun text device' run => ?_, fun message before state after signingKey addressed signer unsigned => ?_,
    fun start receipts empty => ?_⟩
  · rcases decrypt_run run with ⟨text', stores, received, same, left⟩ | ⟨fault, _, same, _⟩
    · cases same
      obtain ⟨message, parsed, received⟩ := bind_eq_ok.mp received
      obtain ⟨⟨text', record⟩, read, made⟩ := bind_eq_ok.mp received
      cases made
      obtain ⟨before, state, after, state', states, named, first, reads, record'⟩ := SenderKeyRecord.read_eq_ok read
      obtain ⟨signingKey, key, authentic⟩ := SenderKeyState.read_authenticates parsed reads
      refine ⟨message, before, state, after, signingKey, key, state', ⟨parsed, states, named, first⟩, authentic, ?_, ?_, ?_⟩
      · rw [left, record']
      · cases authentic.served <;> rfl
      · intro tidy requests
        exact ((authentic.served.hasSpent tidy).after requests).request
    · cases same
  · have unverified := mt (GroupMessage.verify_iff addressed.parsed signingKey).mp unsigned
    have refused : device.stores.receive name bytes = .error .badGroupSignature := by
      rw [Stores.receive, addressed.parsed]
      simp only [bind, Except.bind, SenderKeyRecord.read_first addressed.states addressed.named addressed.first,
        SenderKeyState.read_of_unverified signer unverified]
    rcases run : (Group.decrypt name bytes : OnDevice Bytes) device with ⟨result, device'⟩
    rcases decrypt_run run with ⟨_, _, received, _, _⟩ | ⟨fault, received, same, left⟩
    · cases refused.symm.trans received
    · cases refused.symm.trans received
      exact ⟨device', by rw [same], left⟩
  · rw [Device.takeAll_record]
    exact (SenderKeyRecord.Tidy.none empty).takeAll receipts

/-- A member that has just been given a chain reads the first message of it, which the sender has signed, and is never
served its key again. -/
theorem group_messages_authenticated_first :
    ∃ (d : KeyDistribution) (message : GroupMessage) (sender device : Device) (state state' : SenderKeyState) (key : MessageKey),
      Sample.broadcast.Opens d ∧
      (Group.encrypt Sample.group [1, 2, 3] : OnDevice GroupMessage) Sample.broadcast.sender = (.ok message, sender) ∧
      let member := Sample.listener.takeAll Sample.group [.chain d]
      (Group.decrypt Sample.group message.serialized : OnDevice Bytes) member = (.ok [1, 2, 3], device) ∧
      state.Authenticates message.serialized message [1, 2, 3] d.signingKey key state' ∧
      device.stores = member.stores.withSenderKey Sample.group ⟨[state']⟩ ∧
      ∀ requests, ∃ place, (KeyRequests.after SenderKeyState.request state' requests).request message.iteration =
        .error (.duplicate place message.iteration) := by
  obtain ⟨c, message, sender, first, opens, sent, wrote⟩ := Sample.broadcast_sends [1, 2, 3]
  have sendable : Bytes.Sendable [1, 2, 3] := by simp [Bytes.Sendable]
  have record := Sample.listener.takeAll_first Sample.group Sample.listener_empty c
  have reads := wrote.receive_first sendable (by rw [first]; decide) []
  rw [← record, ← Device.decrypt_result] at reads
  rcases run : (Group.decrypt Sample.group message.serialized : OnDevice Bytes)
    (Sample.listener.takeAll Sample.group [.chain (c.distribution c.first)]) with ⟨result, device⟩
  rw [run] at reads
  cases reads
  obtain ⟨authentic, -, tidy⟩ := group_messages_authenticated Sample.group
    (Sample.listener.takeAll Sample.group [.chain (c.distribution c.first)]) message.serialized
  obtain ⟨message', before, state, after, signingKey, key, state', addressed, authenticates, stores, -, spent⟩ :=
    authentic _ _ run
  -- The bytes are those of the message, and the member keeps one chain.
  cases addressed.parsed.symm.trans (wrote.parse sendable)
  obtain ⟨rfl, rfl, rfl⟩ : before = [] ∧ state = c.state { index := c.first } ∧ after = [] := by
    have states := addressed.states.symm.trans (congrArg SenderKeyRecord.states record)
    simpa [List.append_eq_singleton_iff] using states
  cases authenticates.signer.symm.trans c.state_signingKey
  have empty : (Sample.listener.stores.senderKey Sample.group).isEmpty := by
    simp [Sample.listener_empty, SenderKeyRecord.isEmpty, SenderKeyRecord.empty]
  have known : c.state { index := c.first } ∈ ((Sample.listener.takeAll Sample.group
      [.chain (c.distribution c.first)]).stores.senderKey Sample.group).states := by
    rw [record]
    exact List.mem_singleton_self _
  exact ⟨c.distribution c.first, message, sender, device, _, state', key, opens, sent, run, authenticates, stores,
    spent (tidy Sample.listener _ empty _ known)⟩

end DoubleRatchet
