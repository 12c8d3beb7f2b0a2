import DoubleRatchet.Proofs.Group.Operations

/-! The record of a sender's chains: a message is read by the first chain with its number, which keeps its place, and a
further chain pushes out the oldest beyond the limit. -/
namespace DoubleRatchet.Group

namespace SenderKeyState

variable {state state' : SenderKeyState} {message : GroupMessage} {text : Bytes}

/-- A request touches neither the number of a chain nor what it is signed with. -/
theorem asked_frame (state : SenderKeyState) (chain : ChainKey) (iteration : UInt32) :
    state.asked chain iteration =
      { state with chain := (state.asked chain iteration).chain, cache := (state.asked chain iteration).cache } := by
  unfold asked
  split
  · rfl
  · dsimp only
    split
    · rfl
    · split <;> rfl

theorem withChainKey_chainKey (state : SenderKeyState) (chain : ChainKey) : (state.withChainKey chain).chainKey = .ok chain := by
  simp [chainKey, withChainKey, StoredSeed.ofChainKey, StoredSeed.seed32, bind, Except.bind, pure, Except.pure]

/-- What a chain is once it has read a message. -/
theorem read_asked (read : state.read message = .ok (text, state')) :
    ∃ chain, state.chainKey = .ok chain ∧ state' = state.asked chain message.iteration := by
  obtain ⟨_, _, read⟩ := bind_eq_ok.mp read
  split at read
  · obtain ⟨served, request, read⟩ := bind_eq_ok.mp read
    obtain ⟨chain, found, _, left⟩ := request_eq_ok.mp request
    dsimp only at read
    split at read
    · cases read
    · cases read
      exact ⟨chain, found, left⟩
  · cases read

theorem read_keyId (read : state.read message = .ok (text, state')) : state'.keyId = state.keyId := by
  obtain ⟨chain, -, rfl⟩ := read_asked read
  rw [asked_frame]

theorem read_signing (read : state.read message = .ok (text, state')) : state'.signing = state.signing := by
  obtain ⟨chain, -, rfl⟩ := read_asked read
  rw [asked_frame]

theorem asked_chainKey {chain : ChainKey} (found : state.chainKey = .ok chain) (iteration : UInt32) :
    ∃ place, (state.asked chain iteration).chainKey = .ok place := by
  unfold asked
  split
  · exact ⟨chain, found⟩
  · dsimp only
    split
    · exact ⟨chain, found⟩
    · split
      · exact ⟨_, withChainKey_chainKey _ _⟩
      · exact ⟨chain, found⟩

theorem read_chainKey (read : state.read message = .ok (text, state')) : ∃ chain, state'.chainKey = .ok chain := by
  obtain ⟨chain, found, rfl⟩ := read_asked read
  exact asked_chainKey found message.iteration

end SenderKeyState

namespace SenderKeyRecord

variable {record : SenderKeyRecord} {before after : List SenderKeyState} {state : SenderKeyState} {keyId : UInt32}

theorem find?_of_first (states : record.states = before ++ state :: after) (found : state.keyId = keyId)
    (others : ∀ other ∈ before, other.keyId ≠ keyId) : record.find? keyId = some (before.length, state) := by
  have from_place : ∀ place, ((before ++ state :: after).zipIdx place).findSome?
      (fun entry => if entry.1.keyId = keyId then some (entry.2, entry.1) else none) =
        some (place + before.length, state) := by
    -- The place counts on along the list, so the induction is for any place of its first entry.
    clear states
    induction before with
    | nil =>
      intro place
      simp [found]
    | cons other rest ih =>
      intro place
      have differs := others other List.mem_cons_self
      have later := ih (fun other member => others other (List.mem_cons_of_mem _ member)) (place + 1)
      simp only [List.cons_append, List.zipIdx_cons, List.findSome?_cons, if_neg differs, later, List.length_cons]
      rw [Nat.add_assoc, Nat.add_comm 1]
  rw [find?, states]
  exact (from_place 0).trans (by rw [Nat.zero_add])

/-- Of the chains with a number one is the first. -/
theorem exists_first (member : state ∈ record.states) (same : state.keyId = keyId) :
    ∃ before state after, record.states = before ++ state :: after ∧ state.keyId = keyId ∧
      ∀ other ∈ before, other.keyId ≠ keyId := by
  have some_found : (record.states.find? (·.keyId == keyId)).isSome :=
    List.find?_isSome.mpr ⟨state, member, beq_iff_eq.mpr same⟩
  obtain ⟨first, found⟩ := Option.isSome_iff_exists.mp some_found
  obtain ⟨matching, before, after, states, others⟩ := List.find?_eq_some_iff_append.mp found
  refine ⟨before, first, after, states, beq_iff_eq.mp matching, fun other member => ?_⟩
  simpa using others other member

theorem update_first (states : record.states = before ++ state :: after) (state' : SenderKeyState) :
    record.update before.length state' = ⟨before ++ state' :: after⟩ := by
  rw [update, states, List.set_append_right _ _ (Nat.le_refl _), Nat.sub_self, List.set_cons_zero]

/-- A message is read by the first chain with its number, and that chain alone changes. -/
theorem read_first (states : record.states = before ++ state :: after) {message : GroupMessage}
    (found : state.keyId = message.keyId) (others : ∀ other ∈ before, other.keyId ≠ message.keyId) :
    record.read message = (do
      let (plaintext, state') ← state.read message
      return (plaintext, ⟨before ++ state' :: after⟩)) := by
  rw [read, find?_of_first states found others]
  simp only [Option.elim, bind, Except.bind, update_first states]

theorem find?_eq_none (unknown : ∀ state ∈ record.states, state.keyId ≠ keyId) : record.find? keyId = none := by
  rw [find?, List.findSome?_eq_none_iff]
  intro entry member
  exact if_neg (unknown entry.1 (List.fst_mem_of_mem_zipIdx member))

theorem read_eq_ok {message : GroupMessage} {text : Bytes} {record' : SenderKeyRecord}
    (read : record.read message = .ok (text, record')) :
    ∃ before state after state', record.states = before ++ state :: after ∧ state.keyId = message.keyId ∧
      (∀ other ∈ before, other.keyId ≠ message.keyId) ∧ state.read message = .ok (text, state') ∧
      record' = ⟨before ++ state' :: after⟩ := by
  by_cases known : ∃ state ∈ record.states, state.keyId = message.keyId
  · obtain ⟨_, member, same⟩ := known
    obtain ⟨before, state, after, states, found, others⟩ := exists_first member same
    rw [read_first states found others] at read
    obtain ⟨⟨text', state'⟩, served, made⟩ := bind_eq_ok.mp read
    cases made
    exact ⟨before, state, after, state', states, found, others, served, rfl⟩
  · rw [SenderKeyRecord.read, find?_eq_none fun state member same => known ⟨state, member, same⟩] at read
    cases read

theorem current_of_cons {rest : List SenderKeyState} (states : record.states = state :: rest) :
    record.current = .ok state := by
  rw [current, states]

theorem current_eq_ok (current : record.current = .ok state) : ∃ rest, record.states = state :: rest := by
  unfold SenderKeyRecord.current at current
  split at current
  · rename_i rest states
    cases current
    exact ⟨rest, states⟩
  · cases current

theorem current_updateCurrent {state' : SenderKeyState} (current : record.current = .ok state) :
    (record.updateCurrent state').current = .ok state' := by
  obtain ⟨rest, states⟩ := current_eq_ok current
  have states' : (record.updateCurrent state').states = state' :: rest := by
    rw [updateCurrent, states, List.modify_zero_cons]
  exact current_of_cons states'

theorem push_states (record : SenderKeyRecord) (state : SenderKeyState) :
    (record.push state).states = record.states.drop (record.states.length + 1 - maxStates) ++ [state] := by
  have room : record.states.length + 1 - maxStates ≤ record.states.length := by
    unfold maxStates
    omega
  rw [push, List.length_append, List.length_singleton, List.drop_append_of_le_length room]

theorem mem_push {other : SenderKeyState} : other ∈ (record.push state).states → other ∈ record.states ∨ other = state := by
  rw [push_states, List.mem_append, List.mem_singleton]
  exact Or.imp_left List.mem_of_mem_drop

theorem mem_push_self (record : SenderKeyRecord) (state : SenderKeyState) : state ∈ (record.push state).states := by
  rw [push_states]
  exact List.mem_append_right _ List.mem_cons_self

/-- A chain stays while fewer than the limit have come after it. What is given up before it does not depend on it. -/
theorem push_within (room : after.length + 1 < maxStates) (before : List SenderKeyState) (further : SenderKeyState) :
    ∃ before', before' <:+ before ∧ ∀ state : SenderKeyState,
      (⟨before ++ state :: after⟩ : SenderKeyRecord).push further = ⟨before' ++ state :: (after ++ [further])⟩ := by
  refine ⟨before.drop (before.length + after.length + 2 - maxStates), List.drop_suffix _ _, fun state => ?_⟩
  have states := push_states ⟨before ++ state :: after⟩ further
  have drops : (before ++ state :: after).length + 1 - maxStates = before.length + after.length + 2 - maxStates := by
    simp only [List.length_append, List.length_cons]
    omega
  dsimp only at states
  rw [drops, List.drop_append_of_le_length (by omega), List.append_assoc, List.cons_append] at states
  exact congrArg mk states

/-- The last that can come after a chain pushes it out. -/
theorem push_beyond (full : after.length + 1 = maxStates) (before : List SenderKeyState) (further state : SenderKeyState) :
    (⟨before ++ state :: after⟩ : SenderKeyRecord).push further = ⟨after ++ [further]⟩ := by
  have drops : before.length + (after.length + (1 + 1)) - maxStates = before.length + 1 := by omega
  simp [push, drops, List.drop_append]

theorem push_keeps (states : record.states = before ++ state :: after) (room : after.length + 1 < maxStates)
    (further : SenderKeyState) :
    ∃ before', before' <:+ before ∧ (record.push further).states = before' ++ state :: (after ++ [further]) := by
  obtain ⟨before', suffix, pushed⟩ := push_within room before further
  exact ⟨before', suffix, congrArg SenderKeyRecord.states ((congrArg (push · further) (congrArg mk states)).trans (pushed state))⟩

/-- A message with another number is read by another chain, whatever state this one is in. -/
theorem read_elsewhere {message : GroupMessage} (other : message.keyId ≠ keyId) (before after : List SenderKeyState) :
    (∃ fault, ∀ state : SenderKeyState, state.keyId = keyId →
      (⟨before ++ state :: after⟩ : SenderKeyRecord).read message = .error fault) ∨
    ∃ text before' after', before'.map SenderKeyState.keyId = before.map SenderKeyState.keyId ∧ after'.length = after.length ∧
      ∀ state : SenderKeyState, state.keyId = keyId →
        (⟨before ++ state :: after⟩ : SenderKeyRecord).read message = .ok (text, ⟨before' ++ state :: after'⟩) := by
  by_cases earlier : ∃ state ∈ before, state.keyId = message.keyId
  · obtain ⟨_, member, same⟩ := earlier
    have member : _ ∈ (⟨before⟩ : SenderKeyRecord).states := member
    obtain ⟨first, reader, second, split, found, others⟩ := exists_first member same
    obtain rfl : before = first ++ reader :: second := split
    have states (state : SenderKeyState) : (⟨first ++ reader :: second ++ state :: after⟩ : SenderKeyRecord).states =
        first ++ reader :: (second ++ state :: after) := by simp
    have reads (state : SenderKeyState) := read_first (states state) found others
    cases read : reader.read message with
    | error fault =>
      refine .inl ⟨fault, fun state _ => ?_⟩
      rw [reads state, read]
      rfl
    | ok done =>
      refine .inr ⟨done.1, first ++ done.2 :: second, after, ?_, rfl, fun state _ => ?_⟩
      · simp [SenderKeyState.read_keyId read]
      · rw [reads state, read, List.append_assoc]
        rfl
  by_cases later : ∃ state ∈ after, state.keyId = message.keyId
  · obtain ⟨_, member, same⟩ := later
    have member : _ ∈ (⟨after⟩ : SenderKeyRecord).states := member
    obtain ⟨first, reader, second, split, found, others⟩ := exists_first member same
    obtain rfl : after = first ++ reader :: second := split
    have states (state : SenderKeyState) : (⟨before ++ state :: (first ++ reader :: second)⟩ : SenderKeyRecord).states =
        (before ++ state :: first) ++ reader :: second := by simp
    have reads (state : SenderKeyState) (number : state.keyId = keyId) := read_first (states state) found fun entry member => by
      rcases List.mem_append.mp member with old | rest
      · exact fun same => earlier ⟨entry, old, same⟩
      · rcases List.mem_cons.mp rest with rfl | old
        · exact fun same => other (same.symm.trans number)
        · exact others entry old
    cases read : reader.read message with
    | error fault =>
      refine .inl ⟨fault, fun state number => ?_⟩
      rw [reads state number, read]
      rfl
    | ok done =>
      refine .inr ⟨done.1, before, first ++ done.2 :: second, rfl, by simp, fun state number => ?_⟩
      rw [reads state number, read]
      simp [bind, Except.bind, pure, Except.pure]
  · refine .inl ⟨.noSenderKey, fun state number => ?_⟩
    rw [read, find?_eq_none]
    · rfl
    · intro entry member same
      rcases List.mem_append.mp member with old | rest
      · exact earlier ⟨entry, old, same⟩
      · rcases List.mem_cons.mp rest with rfl | old
        · exact other (same.symm.trans number)
        · exact later ⟨entry, old, same⟩

/-- Two places of a list with different entries: one is before the other. -/
theorem append_cons_eq_append_cons {A : Type} {before after before' after' : List A} {a a' : A}
    (same : before ++ a :: after = before' ++ a' :: after') (differs : a ≠ a') :
    (∃ between, before = before' ++ a' :: between ∧ after' = between ++ a :: after) ∨
      ∃ between, before' = before ++ a :: between ∧ after = between ++ a' :: after' := by
  rcases List.append_eq_append_iff.mp same with ⟨between, rfl, rest⟩ | ⟨between, rfl, rest⟩
  · cases between with
    | nil => cases rest; exact absurd rfl differs
    | cons first between => cases rest; exact .inr ⟨between, rfl, rfl⟩
  · cases between with
    | nil => cases rest; exact absurd rfl differs
    | cons first between => cases rest; exact .inl ⟨between, rfl, rfl⟩

/-- Once an entry is replaced, the others are those from before. -/
theorem mem_of_replaced {A : Type} {before after : List A} {a a' other : A} (member : other ∈ before ++ a' :: after) :
    other = a' ∨ other ∈ before ++ a :: after := by
  rw [List.mem_append, List.mem_cons] at member ⊢
  rcases member with old | new | old
  · exact .inr (.inl old)
  · exact .inl new
  · exact .inr (.inr (.inr old))

end SenderKeyRecord

end DoubleRatchet.Group
