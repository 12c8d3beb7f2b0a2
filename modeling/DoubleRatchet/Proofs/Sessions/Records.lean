import DoubleRatchet.Proofs.Session.RecordReading
import DoubleRatchet.Proofs.Sessions.Correspondence
import Mathlib.Data.List.Nodup

/-! A record with the states of several sessions, each of which has its own base key. What a device does changes the state
of one session, which then is the only state of that session, and leaves the others as they are. -/
namespace DoubleRatchet

namespace SessionRecord

/-- The states are of different sessions, and there is room for those that have been archived. -/
structure Orderly (record : SessionRecord) : Prop where
  distinct : (record.states.map SessionState.baseKey).Nodup
  few : record.archived.length ≤ maxArchivedStates

/-- The record has come to have the state for its session, and is otherwise as it was. -/
structure Turns (record record' : SessionRecord) (state : SessionState) : Prop where
  orderly : record'.Orderly
  here : state ∈ record'.states
  others : ∀ other : SessionState, other.baseKey ≠ state.baseKey → (other ∈ record'.states ↔ other ∈ record.states)

variable {record record' : SessionRecord} {state state' : SessionState}

theorem fresh_orderly : fresh.Orderly := ⟨List.nodup_nil, Nat.zero_le _⟩

theorem Orderly.same (orderly : record.Orderly) {a b : SessionState} (a_kept : a ∈ record.states) (b_kept : b ∈ record.states)
    (same : a.baseKey = b.baseKey) : a = b :=
  List.inj_on_of_nodup_map orderly.distinct a_kept b_kept same

/-! ## Installing -/

theorem archive_of_room (room : ¬ record.Full) (few : record.archived.length ≤ maxArchivedStates) :
    record.archive.archived = record.states ∧ record.archive.archived.length ≤ maxArchivedStates := by
  unfold archive states
  unfold Full at room
  cases current : record.current with
  | none => exact ⟨rfl, few⟩
  | some state =>
    rw [current] at room
    have less : record.archived.length + 1 ≤ maxArchivedStates := Nat.lt_of_not_le fun full => room ⟨rfl, full⟩
    simp only [List.length_cons, if_neg (Nat.not_lt.mpr less)]
    exact ⟨rfl, less⟩

theorem Orderly.install (orderly : record.Orderly) (room : ¬ record.Full)
    (new : ∀ other ∈ record.states, other.baseKey ≠ state.baseKey) : record.Turns (record.install state) state := by
  obtain ⟨archived, few⟩ := archive_of_room room orderly.few
  have states : (record.install state).states = state :: record.states := congrArg (state :: ·) archived
  refine ⟨⟨?_, few⟩, ?_, fun other differs => ?_⟩
  · rw [states, List.map_cons]
    refine List.nodup_cons.mpr ⟨fun member => ?_, orderly.distinct⟩
    obtain ⟨other, kept, same⟩ := List.mem_map.mp member
    exact new other kept same
  · rw [states]
    exact List.mem_cons_self
  · rw [states, List.mem_cons, or_iff_right]
    rintro rfl
    exact differs rfl

/-! ## Replacing -/

/-- When a state is restored there is room for the current one. -/
theorem Replaces.states_of_room (replaces : record.Replaces state state' record')
    (few : record.archived.length ≤ maxArchivedStates) : ∃ others, record.states.Perm (state :: others) ∧
      record'.states = state' :: others ∧ record'.archived.length ≤ maxArchivedStates := by
  cases replaces with
  | current present =>
    refine ⟨record.archived, ?_, rfl, few⟩
    rw [SessionRecord.states, present]
    exact List.Perm.refl _
  | archived index present =>
    obtain ⟨bound, at_index⟩ := List.getElem?_eq_some_iff.mp present
    let rest : SessionRecord := { record with archived := record.archived.eraseIdx index }
    have less : rest.archived.length < maxArchivedStates := by
      have shorter : rest.archived.length = record.archived.length - 1 := List.length_eraseIdx_of_lt bound
      omega
    have room : ¬ rest.Full := fun full => Nat.not_lt_of_le full.2 less
    obtain ⟨archived, few'⟩ := archive_of_room room (Nat.le_of_lt less)
    refine ⟨_, ?_, congrArg (state' :: ·) archived, few'⟩
    have taken := (List.getElem_cons_eraseIdx_perm bound).symm
    rw [at_index] at taken
    exact (taken.append_left record.current.toList).trans List.perm_middle

theorem Orderly.replace (orderly : record.Orderly) (replaces : record.Replaces state state' record')
    (same : state'.baseKey = state.baseKey) : record.Turns record' state' := by
  obtain ⟨others, before, after, few⟩ := replaces.states_of_room orderly.few
  have distinct := ((before.map SessionState.baseKey).nodup_iff).mp orderly.distinct
  refine ⟨⟨?_, few⟩, ?_, fun other differs => ?_⟩
  · rw [after, List.map_cons, same]
    exact distinct
  · rw [after]
    exact List.mem_cons_self
  · rw [after, before.mem_iff, List.mem_cons, List.mem_cons, or_iff_right, or_iff_right]
    · rintro rfl
      exact differs same.symm
    · rintro rfl
      exact differs rfl

theorem Turns.trans {record'' : SessionRecord} (first : record.Turns record' state) (second : record'.Turns record'' state')
    (same : state'.baseKey = state.baseKey) : record.Turns record'' state' where
  orderly := second.orderly
  here := second.here
  others other differs := (second.others other differs).trans (first.others other (same ▸ differs))

/-! ## Reading -/

/-- A message that no state but one can read is read by that state. -/
theorem read_of_only {peer : Address} {message : RatchetMessage} {e e' : Entropy} {opened : Opened}
    (only : ∀ other ∈ record.states, other.Reads message → other = state)
    (run : record.read peer message e = (.ok (record', opened), e')) :
    ∃ n, state.read message (e.pair n) = .ok opened ∧ e' = e.skip (n + state.draws message) ∧
      record.Replaces state opened.state record' := by
  obtain ⟨n, reader, reads, left, replaces⟩ := read_eq_ok run
  cases only reader replaces.member ⟨_, _, reads⟩
  exact ⟨n, reads, left, replaces⟩

end SessionRecord

theorem Correspondent.kept_of_mem {e : Correspondent} {state : SessionState} (member : state ∈ e.record.states) :
    e.stores.sessions[e.peer]? = some e.record := by
  unfold Correspondent.record Stores.recordOrFresh at member ⊢
  cases stored : e.stores.sessions[e.peer]? with
  | some record => rfl
  | none =>
    rw [stored] at member
    cases member

end DoubleRatchet
