import DoubleRatchet.Proofs.OneTimeKeys
import DoubleRatchet.Proofs.Session.Trying

/-! Which state of a record reads a message, and what becomes of the others: the first that can is made current, and none is
lost, moved past another or doubled, wherever in the archive the reader was and however full the archive is. -/
namespace DoubleRatchet

/-- A message that a record refuses leaves the stores as they are. -/
theorem Stores.decryptRatchet_refused {stores : Stores} {record : SessionRecord} {peer : Address} {message : RatchetMessage}
    {ambient : Ambient} {fault : Fault} (kept : stores.sessions[peer]? = some record)
    (refused : (record.read peer message ambient.entropy).1 = .error fault) :
    let run := (Session.decryptRatchet peer message : OnDevice (Bytes × MessageKeys)) ⟨stores, ambient⟩
    run.1 = .error fault ∧ run.2.stores = stores := by
  intro run
  have ran : (Session.decryptRatchet peer message : OnDevice (Bytes × MessageKeys)) ⟨stores, ambient⟩ = (run.1, run.2) := rfl
  have outcome := Session.decryptRatchet_run ran
  have accepted : stores.acceptRead peer (record.read peer message ambient.entropy).1 = .error fault := by
    rw [refused]
    rfl
  simp only [decryptRatchet, record_eq_ok.mpr kept, accepted] at outcome
  obtain ⟨result, stays⟩ := Prod.mk.inj outcome
  exact ⟨result.symm, (congrArg Prod.fst stays).symm⟩

/-- A record tries a message on its states in turn. The first that can read it becomes current, in its new form; the one
that was current before becomes the newest archived one; all others stay as they are and in their order, and none is given
up. If the current state takes the message for a repetition, or no state can read it, nothing is changed. -/
theorem decrypts_with_first_reader (record : SessionRecord) (few : record.archived.length ≤ maxArchivedStates) (peer : Address)
    (message : RatchetMessage) (ambient : Ambient) :
    let result := (record.decrypt peer message ambient).1
    (∀ after opened, result = .ok (after, opened) ↔ ∃ before reader behind,
      record.FirstReads peer message ambient.entropy before reader behind opened ∧
        after = ⟨some opened.state, before ++ behind⟩ ∧ reader.Keeps opened.state) ∧
    (∀ fault, result = .error fault ↔ record.Refuses peer message fault) ∧
    ∀ fault stores, record.Refuses peer message fault → stores.sessions[peer]? = some record →
      let run := (Session.decryptRatchet peer message : OnDevice (Bytes × MessageKeys)) ⟨stores, ambient⟩
      run.1 = .error fault ∧ run.2.stores = stores := by
  intro result
  have ran : record.decrypt peer message ambient = (result, (record.decrypt peer message ambient).2) := rfl
  obtain ⟨same, -⟩ := (record.decrypt_yields peer message ambient.entropy).of_run ran
  have refused : ∀ fault, result = .error fault ↔ record.Refuses peer message fault := by
    intro fault
    rw [same]
    exact record.read_error_iff few
  refine ⟨fun after opened => ?_, refused, fun fault stores refuses kept => ?_⟩
  · rw [same]
    refine (record.read_ok_iff few).trans (exists₃_congr fun before reader behind => and_congr_right fun reads_first => ?_)
    exact iff_self_and.mpr fun _ => SessionState.read_keeps (SessionState.opens_iff.mp reads_first.opens)
  · exact Stores.decryptRatchet_refused kept (same ▸ (refused fault).mpr refuses)

namespace Sample

/-- A state without chains, which reads nothing. -/
def blank : SessionState := {}

theorem blank_fails (peer : Address) (message : RatchetMessage) :
    blank.Fails peer message (.corruptSession "state has no sending chain") :=
  (SessionState.fails_iff signedPreKey).mpr rfl

/-- A full record, of whose states only the oldest is of use. -/
def crowded : SessionRecord where
  current := some blank
  archived := List.replicate 39 blank ++ [elder]

theorem crowded_firstReads (e : Entropy) : ∃ opened,
    crowded.FirstReads initiator farMessage e (List.replicate 40 blank) elder [] opened := by
  obtain ⟨_, _, reads⟩ := elder_reads
  obtain ⟨opened, opens, -⟩ := SessionState.read_with_any reads
    ((SessionState.spend farMessage (List.replicate 40 blank) e).pair 0)
  refine ⟨opened, rfl, fun earlier member => ?_, ?_, SessionState.opens_iff.mpr opens⟩
  · rw [List.eq_of_mem_replicate member]
    exact ⟨_, blank_fails _ _⟩
  · rintro _ ⟨⟩ index counter repeated
    have same := (repeated.read signedPreKey).symm.trans ((blank_fails initiator farMessage).read signedPreKey)
    cases same

end Sample

/-- The oldest state of a full record reads the message. It comes first, and the forty others stay. -/
theorem decrypts_with_first_reader_when_full : Sample.crowded.archived.length ≤ maxArchivedStates ∧ ∃ opened,
    (Sample.crowded.decrypt Sample.initiator Sample.farMessage Sample.holding.ambient).1 =
      .ok (⟨some opened.state, List.replicate 40 Sample.blank⟩, opened) := by
  have few : Sample.crowded.archived.length ≤ maxArchivedStates := by decide
  obtain ⟨opened, reads_first⟩ := Sample.crowded_firstReads Sample.holding.ambient.entropy
  have keeps := SessionState.read_keeps (SessionState.opens_iff.mp reads_first.opens)
  obtain ⟨reads, -⟩ := decrypts_with_first_reader Sample.crowded few Sample.initiator Sample.farMessage Sample.holding.ambient
  exact ⟨few, opened, (reads _ opened).mpr ⟨_, _, _, reads_first, rfl, keeps⟩⟩

end DoubleRatchet
