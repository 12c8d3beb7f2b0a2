import DoubleRatchet.Proofs.Group.Broadcast
import DoubleRatchet.Proofs.Group.Member

/-! Repetitions of messages to a group. A chain that has read a message refuses it from then on. But a member keeps only the
latest of the chains that it is given, and it may be given a chain again: once the chain that has read the message is pushed
out, nothing is left of its having been read. -/
namespace DoubleRatchet

open DoubleRatchet.Group

namespace Group

/-- Two records that differ in one chain. In the first it is `c`, and it has used message `n`. Until it is pushed out, as
many further chains can come as `room` says. -/
def Parted (c : SenderChain) (n room : Nat) (record record' : SenderKeyRecord) : Prop :=
  ∃ before progress state after, record.states = before ++ c.state progress :: after ∧
    record'.states = before ++ state :: after ∧ (∀ other ∈ before, other.keyId ≠ c.keyId) ∧ state.keyId = c.keyId ∧
    c.Follows progress ∧ progress.Spent n ∧ after.length + 1 + room = maxStates

namespace Parted

variable {c : SenderChain} {n room : Nat} {record record' : SenderKeyRecord}

/-- A message is read by the one chain, each in its state, or else alike. -/
theorem message (parted : Parted c n room record record') (bytes : Bytes) :
    Parted c n room (record.take (.message bytes)) (record'.take (.message bytes)) := by
  obtain ⟨before, progress, state, after, states, states', others, number, follows, spent, fits⟩ := parted
  obtain rfl : record = ⟨before ++ c.state progress :: after⟩ := congrArg SenderKeyRecord.mk states
  obtain rfl : record' = ⟨before ++ state :: after⟩ := congrArg SenderKeyRecord.mk states'
  cases parsed : GroupMessage.parse bytes with
  | error fault =>
    rw [SenderKeyRecord.take_garbled _ parsed, SenderKeyRecord.take_garbled _ parsed]
    exact ⟨before, progress, state, after, rfl, rfl, others, number, follows, spent, fits⟩
  | ok message =>
    rw [SenderKeyRecord.take_parsed _ parsed, SenderKeyRecord.take_parsed _ parsed]
    by_cases own : message.keyId = c.keyId
    · have first := others
      rw [← own] at first
      rw [SenderKeyRecord.read_first rfl (c.state_keyId.trans own.symm) first,
        SenderKeyRecord.read_first rfl (number.trans own.symm) first]
      -- The two states read apart from each other, and both keep their place and number.
      obtain ⟨progress', read, follows', spent'⟩ : ∃ progress', ((c.state progress).read message).toOption.elim
          (c.state progress) (·.2) = c.state progress' ∧ c.Follows progress' ∧ progress'.Spent n := by
        cases read : (c.state progress).read message with
        | error fault => exact ⟨progress, rfl, follows, spent⟩
        | ok done =>
          obtain ⟨-, bound, same⟩ := SenderChain.read_eq_ok follows.sound follows.started read
          exact ⟨_, same, follows.read bound, spent.read _⟩
      obtain ⟨state', read', number'⟩ : ∃ state', (state.read message).toOption.elim state (·.2) = state' ∧
          state'.keyId = c.keyId := by
        refine ⟨_, rfl, ?_⟩
        cases read : state.read message with
        | error fault => exact number
        | ok done => exact (SenderKeyState.read_keyId read).trans number
      refine ⟨before, progress', state', after, ?_, ?_, others, number', follows', spent', fits⟩
      · rw [← read]
        cases (c.state progress).read message <;> rfl
      · rw [← read']
        cases state.read message <;> rfl
    · rcases SenderKeyRecord.read_elsewhere own before after with ⟨fault, read⟩ | ⟨text, before', after', numbers, length, read⟩
      · rw [read _ c.state_keyId, read _ number]
        exact ⟨before, progress, state, after, rfl, rfl, others, number, follows, spent, fits⟩
      · rw [read _ c.state_keyId, read _ number]
        refine ⟨before', progress, state, after', rfl, rfl, fun other member same => ?_, number, follows, spent, length ▸ fits⟩
        have listed : other.keyId ∈ before.map SenderKeyState.keyId := numbers ▸ List.mem_map_of_mem member
        obtain ⟨old, member, same'⟩ := List.mem_map.mp listed
        exact others old member (same'.trans same)

theorem chain (parted : Parted c n (room + 1) record record') {distribution : KeyDistribution} {begun : SenderKeyState}
    (given : distributed distribution = .ok begun) :
    Parted c n room (record.take (.chain distribution)) (record'.take (.chain distribution)) := by
  obtain ⟨before, progress, state, after, states, states', others, number, follows, spent, fits⟩ := parted
  obtain rfl : record = ⟨before ++ c.state progress :: after⟩ := congrArg SenderKeyRecord.mk states
  obtain rfl : record' = ⟨before ++ state :: after⟩ := congrArg SenderKeyRecord.mk states'
  obtain ⟨before', suffix, pushed⟩ := SenderKeyRecord.push_within (by omega : after.length + 1 < maxStates) before begun
  rw [SenderKeyRecord.take_begun _ given, SenderKeyRecord.take_begun _ given]
  refine ⟨before', progress, state, after ++ [begun], ?_, ?_, fun other member => others other (suffix.mem member), number,
    follows, spent, ?_⟩
  · exact congrArg SenderKeyRecord.states (pushed (c.state progress))
  · exact congrArg SenderKeyRecord.states (pushed state)
  · rw [List.length_append, List.length_singleton]
    omega

/-- The chain in which the records differ is pushed out. -/
theorem gone (parted : Parted c n 0 record record') {distribution : KeyDistribution} {begun : SenderKeyState}
    (given : distributed distribution = .ok begun) :
    record.take (.chain distribution) = record'.take (.chain distribution) := by
  obtain ⟨before, progress, state, after, states, states', -, -, -, -, full⟩ := parted
  obtain rfl : record = ⟨before ++ c.state progress :: after⟩ := congrArg SenderKeyRecord.mk states
  obtain rfl : record' = ⟨before ++ state :: after⟩ := congrArg SenderKeyRecord.mk states'
  rw [SenderKeyRecord.take_begun _ given, SenderKeyRecord.take_begun _ given]
  exact (SenderKeyRecord.push_beyond full before begun _).trans (SenderKeyRecord.push_beyond full before begun _).symm

/-- Whatever comes, the records differ until the chain is pushed out, and never again after. -/
theorem takeAll (parted : Parted c n room record record') (receipts : List Receipt) :
    if receipts.countP Receipt.begins ≤ room then
      Parted c n (room - receipts.countP Receipt.begins) (record.takeAll receipts) (record'.takeAll receipts)
    else record.takeAll receipts = record'.takeAll receipts := by
  induction receipts generalizing room record record' with
  | nil => simpa using parted
  | cons receipt rest ih =>
    cases receipt with
    | message bytes =>
      rw [List.countP_cons_of_neg (by simp [Receipt.begins])]
      exact ih (parted.message bytes)
    | chain distribution =>
      rcases distributed_cases distribution with ⟨begins, begun, given⟩ | ⟨begins, fault, refused⟩
      · rw [List.countP_cons_of_pos begins]
        cases room with
        | zero =>
          rw [if_neg (by omega)]
          exact congrArg (·.takeAll rest) (parted.gone given)
        | succ room =>
          have later := ih (parted.chain given)
          simp only [Nat.add_le_add_iff_right, Nat.add_sub_add_right]
          exact later
      · rw [List.countP_cons_of_neg begins]
        refine ih ?_
        rw [SenderKeyRecord.take_refused _ refused, SenderKeyRecord.take_refused _ refused]
        exact parted

end Parted

/-- A record of whose chains one has used message `n` refuses it. -/
theorem Parted.refuses {c : SenderChain} {n room : Nat} {record record' : SenderKeyRecord} (parted : Parted c n room record record')
    {message : GroupMessage} (own : message.keyId = c.keyId) (number : message.iteration.toNat = n)
    (verified : message.verify c.signingKey) :
    ∃ index, message.iteration < index ∧ record.read message = .error (.duplicate index message.iteration) := by
  obtain ⟨before, progress, _, after, states, -, others, -, follows, spent, -⟩ := parted
  subst number
  refine ⟨.ofNat progress.index, ?_, ?_⟩
  · rw [UInt32.lt_iff_toNat_lt, UInt32.toNat_ofNat_of_lt' follows.sound.index]
    exact spent.1
  · rw [← own] at others
    rw [SenderKeyRecord.read_first states own.symm others,
      SenderChain.read_of_spent follows.sound verified spent]
    rfl

/-- Once a message has been read, the record differs in the chain that has read it from what it would be otherwise. -/
theorem SenderKeyRecord.Given.read_parted {record record' : SenderKeyRecord} (given : record.Given) {message : GroupMessage}
    {text : Bytes} (read : record.read message = .ok (text, record')) :
    ∃ c place state, record.find? message.keyId = some (place, state) ∧ record.states.length ≤ maxStates + place ∧
      message.keyId = c.keyId ∧ message.verify c.signingKey ∧
      Parted c message.iteration.toNat (maxStates + place - record.states.length) record' record := by
  obtain ⟨before, state, after, state', states, number, others, served, rfl⟩ := SenderKeyRecord.read_eq_ok read
  obtain ⟨c, progress, follows, rfl⟩ := given.follows state (states ▸ List.mem_append_right _ List.mem_cons_self)
  obtain ⟨verified, bound, rfl⟩ := SenderChain.read_eq_ok follows.sound follows.started served
  have few := given.few
  have length : record.states.length = before.length + (after.length + 1) := by simp [states]
  have first := others
  rw [← number] at first
  refine ⟨c, before.length, c.state progress, SenderKeyRecord.find?_of_first states number others, by omega, number.symm, verified,
    before, progress.read message.iteration.toNat, c.state progress, after, rfl, states, first, rfl,
    follows.read bound, follows.rising.spent_read follows.sound _, by omega⟩

theorem SenderKeyRecord.push_replicate (m : Nat) (state : SenderKeyState) :
    (⟨List.replicate m state⟩ : SenderKeyRecord).push state = ⟨List.replicate (min (m + 1) maxStates) state⟩ := by
  have left : m + 1 - (m + 1 - maxStates) = min (m + 1) maxStates := by omega
  simp [push, ← List.replicate_succ', left]

/-- A chain that is given again and again fills the record. -/
theorem SenderKeyRecord.takeAll_replicate {distribution : KeyDistribution} {begun : SenderKeyState}
    (given : distributed distribution = .ok begun) (m k : Nat) (few : m ≤ maxStates) :
    (⟨List.replicate m begun⟩ : SenderKeyRecord).takeAll (List.replicate k (.chain distribution)) =
      ⟨List.replicate (min (m + k) maxStates) begun⟩ := by
  induction k generalizing m with
  | zero => simp [few]
  | succ k ih =>
    have same : min (min (m + 1) maxStates + k) maxStates = min (m + (k + 1)) maxStates := by omega
    rw [List.replicate_succ, takeAll_cons, take_begun _ given, push_replicate, ih _ (Nat.min_le_right _ _), same]

end Group

/-- A member that began without chains of a sender gets bytes, and later it gets the same bytes again. If it did not read
them the first time, that time makes no difference. If it did, they are refused as a repetition as long as the chain that has
read them is kept, which is until it has been given as many chains since as come after this one in a full record; and then
again it makes no difference that they have been read before. -/
theorem refuses_repeats_while_kept (name : SenderKeyName) (device : Device) (empty : (device.stores.senderKey name).isEmpty)
    (before between : List Receipt) (bytes : Bytes) :
    let reader := device.takeAll name before
    let again := ((Group.decrypt name bytes : OnDevice Bytes) (device.takeAll name (before ++ .message bytes :: between))).1
    let unread := ((Group.decrypt name bytes : OnDevice Bytes) (device.takeAll name (before ++ between))).1
    match ((Group.decrypt name bytes : OnDevice Bytes) reader).1 with
    | .error _ => again = unread
    | .ok _ =>
      ∃ message place state, GroupMessage.parse bytes = .ok message ∧
        (reader.stores.senderKey name).find? message.keyId = some (place, state) ∧
        if (reader.stores.senderKey name).states.length + between.countP Receipt.begins ≤ 5 + place then
          ∃ index, message.iteration < index ∧ again = .error (.duplicate index message.iteration)
        else again = unread := by
  dsimp only
  have given := (SenderKeyRecord.Given.none empty).takeAll before
  simp only [Device.decrypt_result, Device.takeAll_record, SenderKeyRecord.takeAll_append, SenderKeyRecord.takeAll_cons]
  generalize (device.stores.senderKey name).takeAll before = record at given
  cases received : record.receive bytes with
  | error fault =>
    have same : record.take (.message bytes) = record := by simp [SenderKeyRecord.take, received, Except.toOption]
    rw [same]
    rfl
  | ok done =>
    obtain ⟨message, parsed, read⟩ := bind_eq_ok.mp received
    obtain ⟨c, place, state, found, few, own, verified, parted⟩ := given.read_parted read
    have next : record.take (.message bytes) = done.2 := by simp [SenderKeyRecord.take, received, Except.toOption]
    rw [next]
    refine ⟨message, place, state, parsed, found, ?_⟩
    have outcome := parted.takeAll between
    unfold maxStates at outcome few
    by_cases kept : record.states.length + between.countP Receipt.begins ≤ 5 + place
    · rw [if_pos (by omega)] at outcome
      rw [if_pos kept]
      obtain ⟨index, later, refused⟩ := outcome.refuses own rfl verified
      refine ⟨index, later, ?_⟩
      rw [SenderKeyRecord.receive, parsed]
      exact congrArg (Except.map _) refused
    · rw [if_neg (by omega)] at outcome
      rw [if_neg kept, outcome]

/-- A member that is given a chain, reads its first message and is given the chain five times more reads the message again. -/
theorem reads_twice_after_five_chains :
    ∃ (d : KeyDistribution) (message : GroupMessage) (device : Device), Sample.broadcast.Opens d ∧
      (Group.encrypt Sample.group [1, 2, 3] : OnDevice GroupMessage) Sample.broadcast.sender = (.ok message, device) ∧
      let read (receipts : List Receipt) :=
        ((Group.decrypt Sample.group message.serialized : OnDevice Bytes) (Sample.listener.takeAll Sample.group receipts)).1
      read [.chain d] = .ok [1, 2, 3] ∧
        (∃ index, message.iteration < index ∧
          read [.chain d, .message message.serialized] = .error (.duplicate index message.iteration)) ∧
        read (.chain d :: .message message.serialized :: List.replicate 5 (.chain d)) = .ok [1, 2, 3] := by
  obtain ⟨c, message, device, first, opens, sent, wrote⟩ := Sample.broadcast_sends [1, 2, 3]
  have sendable : Bytes.Sendable [1, 2, 3] := by simp [Bytes.Sendable]
  have begins := wrote.receive_first sendable (by rw [first]; decide)
  have given := c.distributed_distribution c.first
  refine ⟨_, message, device, opens, sent, ?_⟩
  have begun : (Receipt.chain (c.distribution c.first)).begins := by
    rcases distributed_cases (c.distribution c.first) with ⟨begun, -⟩ | ⟨-, fault, refused⟩
    · exact begun
    · cases given.symm.trans refused
  have once := Sample.listener.takeAll_first Sample.group Sample.listener_empty c
  have often : (Sample.listener.takeAll Sample.group ([.chain (c.distribution c.first)] ++
      List.replicate 5 (.chain (c.distribution c.first)))).stores.senderKey Sample.group =
        ⟨c.state { index := c.first } :: List.replicate 4 (c.state { index := c.first })⟩ := by
    rw [Device.takeAll_record, Sample.listener_empty]
    exact SenderKeyRecord.takeAll_replicate given 0 6 (Nat.zero_le _)
  have found : (⟨[c.state { index := c.first }]⟩ : SenderKeyRecord).find? message.keyId = some (0, c.state { index := c.first }) :=
    SenderKeyRecord.find?_of_first (rfl : _ = [] ++ c.state { index := c.first } :: []) (c.state_keyId.trans wrote.keyId.symm)
      (by simp)
  have now := begins []
  have later := begins (List.replicate 4 (c.state { index := c.first }))
  rw [← once, ← Device.decrypt_result] at now
  rw [← often, ← Device.decrypt_result] at later
  have isEmpty : (Sample.listener.stores.senderKey Sample.group).isEmpty := by
    simp [Sample.listener_empty, SenderKeyRecord.isEmpty, SenderKeyRecord.empty]
  have repeated (between : List Receipt) := refuses_repeats_while_kept Sample.group Sample.listener isEmpty
    [.chain (c.distribution c.first)] between message.serialized
  simp only [now, once, wrote.parse sendable] at repeated
  refine ⟨now, ?_, ?_⟩
  · obtain ⟨message', place, state, parsed, place_eq, again⟩ := repeated []
    cases parsed
    cases found.symm.trans place_eq
    exact again
  · obtain ⟨message', place, state, parsed, place_eq, again⟩ := repeated (List.replicate 5 (.chain (c.distribution c.first)))
    cases parsed
    cases found.symm.trans place_eq
    rw [List.countP_replicate, if_pos begun] at again
    exact again.trans later

end DoubleRatchet
