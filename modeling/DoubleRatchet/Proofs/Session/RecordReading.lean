import DoubleRatchet.Proofs.Session.StateReading
import Mathlib.Data.List.Perm.Basic

/-! What it takes for a record to read a message, and what becomes of its states: the one that reads the message is
replaced by what it becomes, the others stay or, at the limit, the oldest is given up. -/
namespace DoubleRatchet

namespace SessionState

theorem readFirst_eq_ok {message : RatchetMessage} {index found : Nat} {states : List SessionState} {e e' : Entropy}
    {opened : Opened} (run : readFirst message index states e = (.ok (found, opened), e')) :
    ∃ n place state, found = index + place ∧ states[place]? = some state ∧
      state.read message (e.pair n) = .ok opened ∧ e' = e.skip (n + state.draws message) := by
  induction states generalizing index e with
  | nil => cases run
  | cons state rest ih =>
    unfold readFirst at run
    cases result : state.read message (e.pair 0) with
    | ok opened' =>
      rw [result] at run
      cases run
      exact ⟨0, 0, state, rfl, rfl, result, by rw [Nat.zero_add]⟩
    | error fault =>
      rw [result] at run
      dsimp only at run
      split at run
      · rename_i tried
        cases run
        obtain ⟨n, place, state', at_place, present, reads, left⟩ := ih tried
        refine ⟨state.draws message + n, place + 1, state', by omega, present, ?_, ?_⟩
        · rw [← reads, Entropy.pair_skip]
        · rw [left, Entropy.skip_skip, Nat.add_assoc]
      · cases run

theorem readFirst_skips (message : RatchetMessage) (index : Nat) (states : List SessionState) (e : Entropy) :
    ∃ n, (readFirst message index states e).2 = e.skip n := by
  induction states generalizing index e with
  | nil => exact ⟨0, rfl⟩
  | cons state rest ih =>
    unfold readFirst
    split
    · exact ⟨_, rfl⟩
    · obtain ⟨n, left⟩ := ih (index + 1) (e.skip (state.draws message))
      refine ⟨state.draws message + n, ?_⟩
      split <;> (rename_i tried; rw [tried] at left; rw [← Entropy.skip_skip]; exact left)

theorem readFirst_isOk_iff (message : RatchetMessage) (index : Nat) (states : List SessionState) (e : Entropy) :
    (∃ found, (readFirst message index states e).1 = .ok found) ↔ ∃ state ∈ states, state.Reads message := by
  constructor
  · rintro ⟨⟨found, opened⟩, run⟩
    obtain ⟨n, place, state, _, present, reads, _⟩ := readFirst_eq_ok (Prod.ext run rfl)
    exact ⟨state, List.mem_of_getElem? present, _, _, reads⟩
  · rintro ⟨state, member, fresh, opened, reads⟩
    induction states generalizing index e with
    | nil => cases member
    | cons first rest ih =>
      unfold readFirst
      cases result : first.read message (e.pair 0) with
      | ok opened' => exact ⟨_, rfl⟩
      | error fault =>
        rcases List.mem_cons.mp member with rfl | member
        · obtain ⟨_, reads', _⟩ := read_with_any reads (e.pair 0)
          rw [result] at reads'
          cases reads'
        · obtain ⟨found, run⟩ := ih (index + 1) (e.skip (first.draws message)) member
          dsimp only
          split
          · exact ⟨_, rfl⟩
          · rename_i tried
            rw [tried] at run
            cases run

theorem readFirst_error {message : RatchetMessage} {index : Nat} {states : List SessionState} {e : Entropy}
    {fault : Fault} (run : (readFirst message index states e).1 = .error (some fault)) :
    ∃ state ∈ states, ∃ fresh, state.read message fresh = .error fault := by
  cases states with
  | nil => cases run
  | cons state rest =>
    unfold readFirst at run
    cases result : state.read message (e.pair 0) with
    | ok opened =>
      rw [result] at run
      cases run
    | error first =>
      rw [result] at run
      dsimp only at run
      split at run
      · cases run
      · cases run
        exact ⟨state, List.mem_cons_self, _, result⟩

end SessionState

namespace SessionRecord

/-- How a record changes when one of its states reads a message: the state takes its new form and is current. -/
inductive Replaces (record : SessionRecord) (state state' : SessionState) : SessionRecord → Prop
  | current (present : record.current = some state) : Replaces record state state' { record with current := some state' }
  | archived (index : Nat) (present : record.archived[index]? = some state) :
    Replaces record state state' (record.restore index state')

theorem readArchived_eq_ok {record record' : SessionRecord} {peer : Address} {message : RatchetMessage}
    {currentFault : Option Fault} {e e' : Entropy} {opened : Opened}
    (run : record.readArchived peer message currentFault e = (.ok (record', opened), e')) :
    ∃ n index state, record.archived[index]? = some state ∧ state.read message (e.pair n) = .ok opened ∧
      e' = e.skip (n + state.draws message) ∧ record' = record.restore index opened.state := by
  unfold readArchived at run
  split at run
  · rename_i tried
    cases run
    obtain ⟨n, place, state, at_place, present, reads, left⟩ := SessionState.readFirst_eq_ok tried
    rw [Nat.zero_add] at at_place
    exact ⟨n, place, state, present, reads, left, by rw [at_place]⟩
  · cases run

theorem readArchived_skips (record : SessionRecord) (peer : Address) (message : RatchetMessage)
    (currentFault : Option Fault) (e : Entropy) : ∃ n, (record.readArchived peer message currentFault e).2 = e.skip n := by
  obtain ⟨n, left⟩ := SessionState.readFirst_skips message 0 record.archived e
  refine ⟨n, ?_⟩
  unfold readArchived
  split <;> (rename_i tried; rw [tried] at left; exact left)

/-- A record reads a message with one of its states, which draws the key pair after those of the states before it. -/
theorem read_eq_ok {record record' : SessionRecord} {peer : Address} {message : RatchetMessage} {e e' : Entropy}
    {opened : Opened} (run : record.read peer message e = (.ok (record', opened), e')) :
    ∃ n state, state.read message (e.pair n) = .ok opened ∧ e' = e.skip (n + state.draws message) ∧
      record.Replaces state opened.state record' := by
  unfold read at run
  cases present : record.current with
  | none =>
    rw [present] at run
    obtain ⟨n, index, state, archived, reads, left, rfl⟩ := readArchived_eq_ok run
    exact ⟨n, state, reads, left, .archived index archived⟩
  | some state =>
    rw [present] at run
    cases result : state.read message (e.pair 0) with
    | ok opened' =>
      simp only [result] at run
      cases run
      exact ⟨0, state, result, by rw [Nat.zero_add], .current present⟩
    | error fault =>
      have tried : record.readArchived peer message (some fault) (e.skip (state.draws message)) =
          (.ok (record', opened), e') := by
        cases fault with
        | duplicate index counter => simp only [result] at run; cases run
        | _ => simpa only [result] using run
      obtain ⟨n, index, state', archived, reads, left, rfl⟩ := readArchived_eq_ok tried
      refine ⟨state.draws message + n, state', ?_, ?_, .archived index archived⟩
      · rw [← reads, Entropy.pair_skip]
      · rw [left, Entropy.skip_skip, Nat.add_assoc]

theorem readArchived_error {record : SessionRecord} {peer : Address} {message : RatchetMessage}
    {currentFault : Option Fault} {e : Entropy} {fault : Fault}
    (run : (record.readArchived peer message currentFault e).1 = .error fault) :
    currentFault = some fault ∨ fault = .noSession peer ∨
      ∃ state ∈ record.archived, ∃ fresh, state.read message fresh = .error fault := by
  unfold readArchived at run
  split at run
  · cases run
  · rename_i archivedFault _ tried
    cases currentFault with
    | some first =>
      cases run
      exact .inl rfl
    | none =>
      cases archivedFault with
      | none =>
        cases run
        exact .inr (.inl rfl)
      | some first =>
        cases run
        exact .inr (.inr (SessionState.readFirst_error (congrArg Prod.fst tried)))

/-- When a record cannot read a message it is for what one of its states says, if it has any. -/
theorem read_error {record : SessionRecord} {peer : Address} {message : RatchetMessage} {e : Entropy} {fault : Fault}
    (run : (record.read peer message e).1 = .error fault) :
    fault = .noSession peer ∨ ∃ state ∈ record.states, ∃ fresh, state.read message fresh = .error fault := by
  have archived : ∀ state ∈ record.archived, state ∈ record.states :=
    fun state member => List.mem_append_right _ member
  unfold read at run
  cases present : record.current with
  | none =>
    rw [present] at run
    rcases readArchived_error run with first | none_kept | ⟨state, member, fails⟩
    · cases first
    · exact .inl none_kept
    · exact .inr ⟨state, archived state member, fails⟩
  | some state =>
    have member : state ∈ record.states := by
      rw [SessionRecord.states, present]
      exact List.mem_cons_self
    rw [present] at run
    cases result : state.read message (e.pair 0) with
    | ok opened =>
      simp only [result] at run
      cases run
    | error first =>
      have failed : ∃ state ∈ record.states, ∃ fresh, state.read message fresh = .error first := ⟨state, member, _, result⟩
      simp only [result] at run
      split at run
      · cases run
      · rename_i same
        cases same
        cases run
        exact .inr failed
      · rename_i same
        cases same
        rcases readArchived_error run with same | none_kept | ⟨other, member, fails⟩
        · cases same
          exact .inr failed
        · exact .inl none_kept
        · exact .inr ⟨other, archived other member, fails⟩

theorem read_skips (record : SessionRecord) (peer : Address) (message : RatchetMessage) (e : Entropy) :
    ∃ n, (record.read peer message e).2 = e.skip n := by
  unfold read
  split
  · exact record.readArchived_skips peer message none e
  · split
    · exact ⟨_, rfl⟩
    · exact ⟨_, rfl⟩
    · rename_i state _ _ fault _ _
      obtain ⟨n, left⟩ := record.readArchived_skips peer message (some fault) (e.skip (state.draws message))
      exact ⟨_, left.trans (Entropy.skip_skip e _ _)⟩

/-! ## The states of a changed record -/

theorem archive_states (record : SessionRecord) : record.archive.current = none ∧
    record.archive.archived.Sublist record.states := by
  unfold archive states
  cases present : record.current with
  | none => exact ⟨present, List.Sublist.refl _⟩
  | some state =>
    refine ⟨rfl, ?_⟩
    dsimp only
    split
    · exact List.dropLast_sublist _
    · exact List.Sublist.refl _

theorem install_states (record : SessionRecord) (state : SessionState) :
    ∃ kept, kept.Sublist record.states ∧ (record.install state).states = state :: kept :=
  ⟨record.archive.archived, record.archive_states.2, rfl⟩

theorem Replaces.states {record record' : SessionRecord} {state state' : SessionState}
    (replaces : record.Replaces state state' record') :
    ∃ others kept, record.states.Perm (state :: others) ∧ kept.Sublist others ∧ record'.states = state' :: kept := by
  cases replaces with
  | current present =>
    refine ⟨record.archived, record.archived, ?_, List.Sublist.refl _, rfl⟩
    rw [SessionRecord.states, present]
    exact List.Perm.refl _
  | archived index present =>
    obtain ⟨bound, at_index⟩ := List.getElem?_eq_some_iff.mp present
    obtain ⟨kept, sub, made⟩ := install_states { record with archived := record.archived.eraseIdx index } state'
    refine ⟨_, kept, ?_, sub, made⟩
    have taken := (List.getElem_cons_eraseIdx_perm bound).symm
    rw [at_index] at taken
    refine (taken.append_left record.current.toList).trans ?_
    exact List.perm_middle

theorem Replaces.member {record record' : SessionRecord} {state state' : SessionState}
    (replaces : record.Replaces state state' record') : state ∈ record.states := by
  obtain ⟨others, kept, states, _, _⟩ := replaces.states
  exact states.mem_iff.mpr List.mem_cons_self

theorem Replaces.current_eq {record record' : SessionRecord} {state state' : SessionState}
    (replaces : record.Replaces state state' record') : record'.current = some state' := by
  cases replaces <;> rfl

/-- The current state of a record reads a message if it can, and else an archived one does. -/
theorem read_of_current {record record' : SessionRecord} {state : SessionState} {peer : Address} {message : RatchetMessage}
    {e e' : Entropy} {opened : Opened} (present : record.current = some state)
    (run : record.read peer message e = (.ok (record', opened), e')) :
    ∃ n reader, reader.read message (e.pair n) = .ok opened ∧ record.Replaces reader opened.state record' ∧
      (reader = state ↔ state.Reads message) := by
  by_cases reads : state.Reads message
  · obtain ⟨fresh, opened', opens⟩ := reads
    obtain ⟨opened'', opens', _⟩ := SessionState.read_with_any opens (e.pair 0)
    unfold read at run
    rw [present] at run
    simp only [opens'] at run
    cases run
    exact ⟨0, state, opens', .current present, fun _ => ⟨_, _, opens'⟩, fun _ => rfl⟩
  · obtain ⟨n, reader, opens, _, replaces⟩ := read_eq_ok run
    refine ⟨n, reader, opens, replaces, ?_, fun able => absurd able reads⟩
    rintro rfl
    exact ⟨_, _, opens⟩

/-- A record reads a message if one of its states does, provided that the current one does not take it for a repetition. -/
theorem read_isOk_iff (record : SessionRecord) (message : RatchetMessage)
    (unrepeated : ∀ state ∈ record.current, ∀ fresh index counter,
      state.read message fresh ≠ .error (.duplicate index counter)) (peer : Address) (e : Entropy) :
    (∃ found, (record.read peer message e).1 = .ok found) ↔ ∃ state ∈ record.states, state.Reads message := by
  have archived_iff : ∀ currentFault e, (∃ found, (record.readArchived peer message currentFault e).1 = .ok found) ↔
      ∃ archived ∈ record.archived, archived.Reads message := by
    intro currentFault e
    rw [← SessionState.readFirst_isOk_iff message 0 record.archived e]
    unfold readArchived
    rcases SessionState.readFirst message 0 record.archived e with ⟨_ | ⟨index, opened⟩, e'⟩
    · exact ⟨fun ⟨_, run⟩ => (nomatch run), fun ⟨_, run⟩ => (nomatch run)⟩
    · exact ⟨fun _ => ⟨_, rfl⟩, fun _ => ⟨_, rfl⟩⟩
  unfold read states
  cases current : record.current with
  | none => exact archived_iff none e
  | some state =>
    rw [Option.toList_some, List.singleton_append]
    simp only [List.mem_cons, exists_eq_or_imp]
    cases run : state.read message (e.pair 0) with
    | ok opened => exact ⟨fun _ => .inl ⟨_, _, run⟩, fun _ => ⟨_, rfl⟩⟩
    | error fault =>
      have not_read : ¬ state.Reads message := by
        rintro ⟨fresh, opened, reads⟩
        obtain ⟨_, reads', _⟩ := SessionState.read_with_any reads (e.pair 0)
        rw [run] at reads'
        cases reads'
      have tried := archived_iff (some fault) (e.skip (state.draws message))
      cases fault with
      | duplicate index counter => exact absurd run (unrepeated state current _ _ _)
      | _ => exact tried.trans ⟨.inr, fun found => found.resolve_left not_read⟩

/-- A new handshake can be tried on any record: the message is read if the responder's state reads it, or else if an
archived one does. -/
theorem read_installed_iff (record : SessionRecord) {state : SessionState}
    (new : ∀ message fresh index counter, state.read message fresh ≠ .error (.duplicate index counter)) (peer : Address)
    (message : RatchetMessage) (e : Entropy) : (∃ found, ((record.install state).read peer message e).1 = .ok found) ↔
      state.Reads message ∨ ∃ archived ∈ record.archive.archived, archived.Reads message := by
  refine ((record.install state).read_isOk_iff message ?_ peer e).trans ?_
  · rintro _ ⟨⟩
    exact new message
  · have states : (record.install state).states = state :: record.archive.archived := rfl
    simp only [states, List.mem_cons, exists_eq_or_imp]

end SessionRecord

end DoubleRatchet
