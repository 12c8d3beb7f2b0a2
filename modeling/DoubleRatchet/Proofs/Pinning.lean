import DoubleRatchet.Proofs.Session.Turns

/-! What a message that opens a session leaves behind when it cannot be read. If an identity is saved for its peer, or
its handshake is refused, it leaves nothing. At the first contact its handshake alone pins the identity that it claims,
before the message inside has shown that its sender holds the keys. -/
namespace DoubleRatchet

theorem PublicKey.exists_ne (key : PublicKey) : ∃ other : PublicKey, other ≠ key := by
  by_cases zero : key = ⟨⟨List.replicate 32 0, rfl⟩⟩
  · refine ⟨⟨⟨List.replicate 32 1, rfl⟩⟩, ?_⟩
    rw [zero]
    decide
  · exact ⟨_, fun same => zero same.symm⟩

namespace Stores

/-- A message is the first contact with its peer, and its handshake is accepted. -/
structure Pins (stores : Stores) (peer : Address) (message : PreKeyMessage) : Prop where
  unknown : stores.identities[peer]? = none
  trusted : stores.isTrusted peer message.identityKey .receiving
  answered : ∃ accepted used, stores.Answers (stores.recordOrFresh peer) message accepted used

variable {stores : Stores} {peer : Address} {message : PreKeyMessage}

theorem afterHandshake_of_saved (saved : stores.identities[peer]? = some message.identityKey) :
    stores.afterHandshake peer message = stores := by
  rw [afterHandshake, insert_stored saved]

theorem saved_of_isTrusted {identity saved : PublicKey} {direction : Direction}
    (trusted : stores.isTrusted peer identity direction) (found : stores.identities[peer]? = some saved) :
    saved = identity := by
  have same := (Bool.and_eq_true_iff.mp trusted).1
  rw [found] at same
  simpa using same

/-- A pinned identity is the only one that is trusted from then on, where any was before. -/
theorem Pins.isTrusted (pins : stores.Pins peer message) (other : PublicKey) :
    stores.isTrusted peer other .receiving = true ∧
      (stores.afterHandshake peer message).isTrusted peer other .receiving = (message.identityKey == other) := by
  have allowed := (Bool.and_eq_true_iff.mp pins.trusted).2
  constructor
  · rw [Stores.isTrusted, pins.unknown, allowed]
    rfl
  · have saved : (stores.afterHandshake peer message).identities[peer]? = some message.identityKey :=
      Std.ExtTreeMap.getElem?_insert_self
    have denied : (stores.afterHandshake peer message).denied = stores.denied := rfl
    rw [Stores.isTrusted, saved, denied, allowed]
    simp

theorem withSession_saved {saved identity : PublicKey} {direction : Direction} {other : Address} (record : SessionRecord)
    (found : stores.identities[peer]? = some saved) (trusted : stores.isTrusted other identity direction) :
    (stores.withSession other identity record).identities[peer]? = some saved := by
  rw [withSession_identities]
  split
  · rename_i same
    rw [same] at trusted
    rw [saved_of_isTrusted trusted found]
  · exact found

/-- No request replaces a saved identity. -/
theorem Leaves.saved {saved : PublicKey} {request : Request} {after : Stores} (leaves : stores.Leaves request after)
    (found : stores.identities[peer]? = some saved) : after.identities[peer]? = some saved := by
  cases leaves with
  | all request => exact found
  | session record trusted => exact withSession_saved record found trusted
  | opening record trusted answers => exact withSession_saved record found trusted
  | handshake trusted => exact withSession_saved .fresh found trusted

theorem decryptPreKey_error_of_pins {stores' : Stores} {e e' : Entropy} {fault : Fault}
    (run : stores.decryptPreKey peer message e = (.error fault, stores', e')) (pins : stores.Pins peer message) :
    stores' = stores.afterHandshake peer message := by
  rcases decryptPreKey_error run with ⟨refused, _⟩ | ⟨_, after⟩
  · obtain ⟨accepted, used, answers⟩ := pins.answered
    have accept := acceptMessage_eq_ok.mpr ⟨pins.trusted, answers⟩
    rw [refused] at accept
    cases accept
  · exact after

theorem decryptPreKey_error_of_not_pins {stores' : Stores} {e e' : Entropy} {fault : Fault}
    (run : stores.decryptPreKey peer message e = (.error fault, stores', e')) (known : ¬ stores.Pins peer message) :
    stores' = stores := by
  rcases decryptPreKey_error run with ⟨_, same⟩ | ⟨⟨accepted, used, accept, _⟩, after⟩
  · exact same
  · obtain ⟨trusted, answers⟩ := acceptMessage_eq_ok.mp accept
    cases found : stores.identities[peer]? with
    | none => exact absurd ⟨found, trusted, accepted, used, answers⟩ known
    | some saved =>
      have same := saved_of_isTrusted trusted found
      rw [after, afterHandshake_of_saved (found.trans (congrArg some same))]

end Stores

/-- A message that opens a session and is refused changes no decision about trust exactly unless it is a first contact
whose handshake is accepted. Then it has pinned the identity that it claims; otherwise it has left all stores alone. -/
theorem rejected_pins_iff (device device' : Device) (peer : Address) (message : PreKeyMessage) (fault : Fault)
    (run : (Session.decryptPreKey peer message : OnDevice (Bytes × MessageKeys)) device = (.error fault, device')) :
    ((∀ other identity direction, device'.stores.isTrusted other identity direction =
        device.stores.isTrusted other identity direction) ↔ ¬ device.stores.Pins peer message) ∧
    (device.stores.Pins peer message → device'.stores = device.stores.afterHandshake peer message) ∧
    (¬ device.stores.Pins peer message → device'.stores = device.stores) := by
  have run := Session.decryptPreKey_run run
  refine ⟨⟨?_, ?_⟩, Stores.decryptPreKey_error_of_pins run, Stores.decryptPreKey_error_of_not_pins run⟩
  · intro same pins
    obtain ⟨other, differs⟩ := message.identityKey.exists_ne
    obtain ⟨before, after⟩ := pins.isTrusted other
    rw [← same, Stores.decryptPreKey_error_of_pins run pins, after, beq_iff_eq] at before
    exact differs before.symm
  · intro known other identity direction
    rw [Stores.decryptPreKey_error_of_not_pins run known]

/-- A stranger sends a handshake with a message that nothing can read. It is refused, and the true owner of the address
is no longer trusted. -/
theorem rejected_pins_stranger :
    let stranger := Sample.publicKey 9
    let owner := ((Entropy.ofSeed 1).pair 0).publicKey
    let message := PreKeyMessage.create 3 1 none 1 stranger stranger Sample.outdated
    ∃ fault device', (Session.decryptPreKey Sample.initiator message : OnDevice (Bytes × MessageKeys)) Sample.responding =
        (.error fault, device') ∧
      Sample.responding.stores.isTrusted Sample.initiator owner .receiving = true ∧
      device'.stores.isTrusted Sample.initiator owner .receiving = false := by
  intro stranger owner message
  have refused : ((Session.decryptPreKey Sample.initiator message : OnDevice (Bytes × MessageKeys))
      Sample.responding).1.isOk = false := by
    decide +kernel
  have differs : (message.identityKey == owner) = false := by decide +kernel
  have pins : Sample.responding.stores.Pins Sample.initiator message := by
    refine ⟨rfl, rfl, _, _, .built rfl ⟨1, 0, Sample.signedPreKey, Sample.signature⟩ none ?_ rfl⟩
    exact Std.ExtTreeMap.getElem?_insert_self
  rcases run : (Session.decryptPreKey Sample.initiator message : OnDevice (Bytes × MessageKeys)) Sample.responding with
    ⟨fault | result, device'⟩
  · obtain ⟨before, after⟩ := pins.isTrusted owner
    rw [← (rejected_pins_iff _ device' _ message fault run).2.1 pins, differs] at after
    exact ⟨fault, device', rfl, before, after⟩
  · rw [run] at refused
    cases refused

end DoubleRatchet
