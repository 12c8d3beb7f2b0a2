import DoubleRatchet.Proofs.Parsing
import DoubleRatchet.Proofs.Session.Requests

/-! What the MAC of a message is computed over can be taken apart in one way only. Stored keys have one length and begin
with the type byte, which no digit of a version is; so the same bytes come of the same version, the same content and,
where they are part of it, the same identities in the same order. -/
namespace DoubleRatchet

namespace RatchetMessage

/-- The messages of sessions that there are: those that have been made, of any version, and those that have been read. -/
inductive Arises : RatchetMessage → Prop
  | made (version : UInt8) (macKey : Key) (ratchetKey : PublicKey) (counter previousCounter : UInt32) (ciphertext : Bytes)
    (sender receiver : PublicKey) :
    Arises (create version macKey ratchetKey counter previousCounter ciphertext sender receiver)
  | read {bytes : Bytes} {message : RatchetMessage} (parsed : parse bytes = .ok message) : Arises message

theorem Arises.content {message : RatchetMessage} (arises : message.Arises) :
    ∃ encoded, message.content = (48 + message.version) :: encoded := by
  cases arises with
  | made version => exact ⟨_, rfl⟩
  | read parsed =>
    obtain ⟨_, spells, -⟩ := parse_eq_ok.mp parsed
    obtain ⟨encoded, content, -⟩ := spells.content
    exact ⟨encoded, content⟩

theorem Arises.version_eq {message message' : RatchetMessage} (arises : message.Arises) (arises' : message'.Arises)
    (same : message.content = message'.content) : message.version = message'.version := by
  obtain ⟨encoded, content⟩ := arises.content
  obtain ⟨encoded', content'⟩ := arises'.content
  rw [content, content'] at same
  exact (UInt8.add_right_inj 48).mp (List.head_eq_of_cons_eq same)

theorem macInput_of_early {version : UInt8} (early : ¬ 3 ≤ version) (sender receiver : PublicKey) (content : Bytes) :
    macInput version sender receiver content = content := by
  rw [macInput, if_neg early, List.nil_append]

theorem macInput_of_late {version : UInt8} (late : 3 ≤ version) (sender receiver : PublicKey) (content : Bytes) :
    macInput version sender receiver content = sender.serialize ++ (receiver.serialize ++ content) := by
  rw [macInput, if_pos late, List.append_assoc]

/-- Two stored keys before a content can be told from it. -/
theorem serialize_append_inj {a a' b b' : PublicKey} {content content' : Bytes}
    (same : a.serialize ++ (b.serialize ++ content) = a'.serialize ++ (b'.serialize ++ content')) :
    a = a' ∧ b = b' ∧ content = content' := by
  obtain ⟨first, rest⟩ := List.append_inj same (by rw [a.length_serialize, a'.length_serialize])
  obtain ⟨second, rest⟩ := List.append_inj rest (by rw [b.length_serialize, b'.length_serialize])
  exact ⟨PublicKey.serialize_injective first, PublicKey.serialize_injective second, rest⟩

/-- A message of an early version begins with its digit, and no stored key does. -/
theorem Arises.macInput_ne {message message' : RatchetMessage} (arises : message.Arises) (early : ¬ 3 ≤ message.version)
    (late : 3 ≤ message'.version) (sender receiver sender' receiver' : PublicKey) :
    macInput message.version sender receiver message.content ≠
      macInput message'.version sender' receiver' message'.content := by
  obtain ⟨encoded, content⟩ := arises.content
  rw [macInput_of_early early, macInput_of_late late, content]
  intro same
  have first : 48 + message.version = PublicKey.typeByte := List.head_eq_of_cons_eq same
  simp only [PublicKey.typeByte] at first
  grind

end RatchetMessage

open RatchetMessage

/-- The bytes that the MAC of a message is computed over tell the version and the content of the message, and from version 3
on the identities of the sender and of the receiver. -/
theorem mac_input_unambiguous {message message' : RatchetMessage} (arises : message.Arises) (arises' : message'.Arises)
    (sender receiver sender' receiver' : PublicKey) :
    macInput message.version sender receiver message.content =
        macInput message'.version sender' receiver' message'.content ↔
      message.version = message'.version ∧ message.content = message'.content ∧
        (3 ≤ message.version → sender = sender' ∧ receiver = receiver') := by
  constructor
  · intro same
    by_cases late : 3 ≤ message.version
    · by_cases late' : 3 ≤ message'.version
      · rw [macInput_of_late late, macInput_of_late late'] at same
        obtain ⟨sender_eq, receiver_eq, content⟩ := serialize_append_inj same
        exact ⟨arises.version_eq arises' content, content, fun _ => ⟨sender_eq, receiver_eq⟩⟩
      · exact (arises'.macInput_ne late' late sender' receiver' sender receiver same.symm).elim
    · by_cases late' : 3 ≤ message'.version
      · exact (arises.macInput_ne late late' sender receiver sender' receiver' same).elim
      · rw [macInput_of_early late, macInput_of_early late'] at same
        exact ⟨arises.version_eq arises' same, same, fun is_late => absurd is_late late⟩
  · rintro ⟨version, content, identities⟩
    by_cases late : 3 ≤ message.version
    · obtain ⟨rfl, rfl⟩ := identities late
      rw [version, content]
    · rw [macInput_of_early late, macInput_of_early (version ▸ late), content]

/-- An empty message from the initiator's key to the responder's. -/
def Sample.empty (version : UInt8) : RatchetMessage :=
  .create version (publicKey 9).raw (publicKey 9) 0 0 [] (publicKey 1) (publicKey 2)

/-- Neither the version before nor the identities in the other order give the same bytes. -/
theorem mac_input_of_swapped_identities :
    macInput 3 (Sample.publicKey 1) (Sample.publicKey 2) (Sample.empty 3).content ≠
        macInput 2 (Sample.publicKey 1) (Sample.publicKey 2) (Sample.empty 2).content ∧
      macInput 3 (Sample.publicKey 1) (Sample.publicKey 2) (Sample.empty 3).content ≠
        macInput 3 (Sample.publicKey 2) (Sample.publicKey 1) (Sample.empty 3).content := by
  have arises (version : UInt8) : (Sample.empty version).Arises := .made version ..
  have apart : Sample.publicKey 1 ≠ Sample.publicKey 2 := by decide
  constructor <;> intro same
  · obtain ⟨version, -⟩ := (mac_input_unambiguous (arises 3) (arises 2) _ _ _ _).mp same
    exact absurd version (by decide)
  · obtain ⟨-, -, identities⟩ := (mac_input_unambiguous (arises 3) (arises 3) _ _ _ _).mp same
    exact apart (identities (by decide)).1

end DoubleRatchet
