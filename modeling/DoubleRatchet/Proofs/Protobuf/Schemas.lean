import DoubleRatchet.Message.Frame
import DoubleRatchet.Proofs.Protobuf.Fields

/-! What a schema makes of its own writing. The slots of a message are restored one after another, each from the values
that it has written itself; so a schema can be read back as soon as each of its slots can. -/
namespace DoubleRatchet

namespace Protobuf

variable {M : Type}

namespace Slot

/-- What a slot makes of the values that it has written for a message. -/
def restore (slot : Slot M) (depth : Nat) (message initial : M) : Option M :=
  (slot.write message).foldlM (fun into value => slot.merge depth value into) initial

/-- The numbers of slots can be told apart and have room in the key of a field. -/
def Numbered (slots : List (Slot M)) : Prop :=
  slots.Pairwise (fun slot other => slot.number ≠ other.number) ∧
    ∀ slot ∈ slots, 0 < slot.number ∧ 8 * slot.number + 8 ≤ UInt32.size

instance (slots : List (Slot M)) : Decidable (Numbered slots) := inferInstanceAs (Decidable (_ ∧ _))

theorem find_of_distinct {slots : List (Slot M)} (distinct : slots.Pairwise fun slot other => slot.number ≠ other.number)
    {slot : Slot M} (member : slot ∈ slots) : slots.find? (·.number == slot.number) = some slot := by
  induction slots with
  | nil => cases member
  | cons first rest ih =>
    obtain ⟨others, distinct⟩ := List.pairwise_cons.mp distinct
    rcases List.mem_cons.mp member with rfl | member
    · exact List.find?_cons_of_pos (beq_self_eq_true _)
    · rw [List.find?_cons_of_neg (by simpa using others slot member)]
      exact ih distinct member

theorem restore_of_option {slot : Slot M} {message : M} (value : Option Value) (written : slot.write message = value.toList)
    (depth : Nat) (initial : M) :
    slot.restore depth message initial = value.elim (some initial) fun value => slot.merge depth value initial := by
  rw [restore, written]
  cases value with
  | none => rfl
  | some value => exact bind_pure _

@[simp] theorem optionalUint32_restore (number : Nat) (get : M → Option UInt32) (set : M → Option UInt32 → M)
    (depth : Nat) (message initial : M) : (optionalUint32 number get set).restore depth message initial =
      some ((get message).elim initial fun n => set initial (some n)) := by
  rw [restore_of_option ((get message).map fun n => .varint n.toNat) rfl]
  cases get message with
  | none => rfl
  | some n =>
    change some (set initial (some n.toNat.toUInt32)) = _
    rw [Nat.toUInt32, UInt32.ofNat_toNat]
    rfl

@[simp] theorem optionalBytes_restore (number : Nat) (get : M → Option Bytes) (set : M → Option Bytes → M)
    (depth : Nat) (message initial : M) : (optionalBytes number get set).restore depth message initial =
      some ((get message).elim initial fun bytes => set initial (some bytes)) := by
  rw [restore_of_option ((get message).map .delimited) rfl]
  cases get message <;> rfl

/-- All that a slot writes for a message has room in its field. -/
def Fits (slot : Slot M) (message : M) : Prop := ∀ value ∈ slot.write message, value.Fits

@[simp] theorem optionalUint32_fits (number : Nat) (get : M → Option UInt32) (set : M → Option UInt32 → M) (message : M) :
    (optionalUint32 number get set).Fits message := by
  intro value written
  obtain ⟨n, _, rfl⟩ := Option.map_eq_some_iff.mp (Option.mem_toList.mp written)
  exact Nat.lt_trans n.toNat_lt_size (by decide)

@[simp] theorem optionalBytes_fits (number : Nat) (get : M → Option Bytes) (set : M → Option Bytes → M) (message : M) :
    (optionalBytes number get set).Fits message ↔ ∀ bytes ∈ get message, bytes.length < UInt64.size := by
  constructor
  · intro fits bytes held
    exact fits (.delimited bytes) (Option.mem_toList.mpr (Option.mem_map_of_mem _ held))
  · intro short value written
    obtain ⟨bytes, held, rfl⟩ := Option.map_eq_some_iff.mp (Option.mem_toList.mp written)
    exact short bytes held

end Slot

namespace Schema

variable {schema : Schema M}

theorem mergeField_slot (numbered : Slot.Numbered schema.slots) {slot : Slot M} (member : slot ∈ schema.slots)
    (depth : Nat) (message : M) (value : Value) :
    schema.mergeField depth message ⟨slot.number, value⟩ = slot.merge depth value message := by
  rw [mergeField, Slot.find_of_distinct numbered.1 member]

theorem foldlM_fields (numbered : Slot.Numbered schema.slots) (depth : Nat) (message initial : M) {slots : List (Slot M)}
    (among : ∀ slot ∈ slots, slot ∈ schema.slots) :
    (slots.flatMap fun slot => (slot.write message).map (Field.mk slot.number)).foldlM (schema.mergeField depth) initial =
      slots.foldlM (fun into slot => slot.restore depth message into) initial := by
  induction slots generalizing initial with
  | nil => rfl
  | cons slot rest ih =>
    have member := among slot List.mem_cons_self
    have restored : ((slot.write message).map (Field.mk slot.number)).foldlM (schema.mergeField depth) initial =
        slot.restore depth message initial := by
      rw [List.foldlM_map, Slot.restore]
      simp only [mergeField_slot numbered member]
    rw [List.flatMap_cons, List.foldlM_append, restored, List.foldlM_cons]
    exact congrArg _ (funext fun into => ih into fun other included => among other (List.mem_cons_of_mem _ included))

theorem fields_fit (numbered : Slot.Numbered schema.slots) {message : M} (fits : ∀ slot ∈ schema.slots, slot.Fits message) :
    ∀ field ∈ schema.fields message, field.Fits := by
  intro field member
  obtain ⟨slot, among, listed⟩ := List.mem_flatMap.mp member
  obtain ⟨value, written, rfl⟩ := List.mem_map.mp listed
  obtain ⟨positive, number⟩ := numbered.2 slot among
  exact ⟨positive, number, fits slot among value written⟩

/-- A message that fits is read back slot by slot. -/
theorem merge_encode (numbered : Slot.Numbered schema.slots) {message : M}
    (fits : ∀ slot ∈ schema.slots, slot.Fits message) (depth : Nat) : schema.merge depth schema.empty (schema.encode message) =
      schema.slots.foldlM (fun into slot => slot.restore depth message into) schema.empty := by
  rw [merge, encode, readFields_writeFields (fields_fit numbered fits), Option.bind_some, fields,
    foldlM_fields numbered _ _ _ fun _ member => member]

theorem decode?_encode (numbered : Slot.Numbered schema.slots) {message : M}
    (fits : ∀ slot ∈ schema.slots, slot.Fits message) : schema.decode? (schema.encode message) =
      schema.slots.foldlM (fun into slot => slot.restore maxDepth message into) schema.empty :=
  merge_encode numbered fits maxDepth

end Schema

end Protobuf

namespace Frame

open Protobuf

variable {M : Type} {schema : Schema M} {body : M} {version : UInt8} {n : Nat}

theorem readVersion_digit (supported : version = 2 ∨ version = 3) : readVersion (48 + version) = .ok version := by
  rcases supported with rfl | rfl <;> rfl

theorem read_write (supported : version = 2 ∨ version = 3) (restores : schema.decode? (schema.encode body) = some body)
    (trailer : FixedBytes n) : read schema n (write version schema body ++ trailer.bytes) =
      .ok ⟨write version schema body, trailer, version, body⟩ := by
  have length : (write version schema body ++ trailer.bytes).length = (schema.encode body).length + 1 + n := by
    rw [List.length_append, trailer.length_bytes]
    rfl
  have content : (write version schema body ++ trailer.bytes).length - n = (write version schema body).length := by
    rw [length, Nat.add_sub_cancel]
    rfl
  have enough : ¬ (write version schema body ++ trailer.bytes).length < 1 + n := by omega
  rw [read, dif_neg enough]
  simp only [content, List.take_left', List.drop_left']
  have digit : (write version schema body).headD 0 = 48 + version := rfl
  have rest : (write version schema body).tail = schema.encode body := rfl
  rw [digit, rest, readVersion_digit supported, restores]
  rfl

end Frame

end DoubleRatchet
