import DoubleRatchet.Proofs.Protobuf.Schemas

/-! Messages inside messages. Each kind of slot gives back what it has written: a slot that leaves a default out gives the
default back, one that writes a message whenever there is one keeps apart a message of defaults and none at all. A schema
gives back all messages whose writing is short enough to be counted, if it is read far enough above the deepest level. -/
namespace DoubleRatchet.Protobuf

variable {M S : Type}

theorem Field.size_le_write (field : Field) : field.value.size ≤ field.write.length := by
  obtain ⟨number, value⟩ := field
  cases value with
  | delimited bytes =>
    simp only [write, Value.size, List.length_append]
    omega
  | _ => exact Nat.zero_le _

namespace Slot

/-! ## What a slot gives back -/

section Restore

variable {slot : Slot M} {message initial : M} {value : Value} (number depth : Nat)

theorem restore_of_nothing (written : slot.write message = []) : slot.restore depth message initial = some initial := by
  rw [restore, written]
  rfl

theorem restore_of_value (written : slot.write message = [value]) :
    slot.restore depth message initial = slot.merge depth value initial := by
  rw [restore, written]
  exact bind_pure _

@[simp] theorem uint32_restore {get : M → UInt32} {set : M → UInt32 → M} (unset : set initial 0 = initial) :
    (uint32 number get set).restore depth message initial = some (set initial (get message)) := by
  by_cases zero : get message = 0
  · have written : (uint32 number get set).write message = [] := if_pos zero
    rw [restore_of_nothing depth written, zero, unset]
  · have written : (uint32 number get set).write message = [.varint (get message).toNat] := if_neg zero
    rw [restore_of_value depth written]
    simp [uint32]

/-- The bits above the lowest 32 are dropped. -/
theorem toUInt32_extended (n : UInt32) : (n.toNat + (UInt64.size - UInt32.size)).toUInt32 = n := by
  have multiple : UInt64.size - UInt32.size = UInt32.size * (UInt32.size - 1) := rfl
  apply UInt32.toNat_inj.mp
  rw [multiple, Nat.toUInt32, UInt32.toNat_ofNat', Nat.add_mul_mod_self_left, Nat.mod_eq_of_lt n.toNat_lt_size]

@[simp] theorem int32_restore {get : M → UInt32} {set : M → UInt32 → M} (unset : set initial 0 = initial) :
    (int32 number get set).restore depth message initial = some (set initial (get message)) := by
  by_cases zero : get message = 0
  · have written : (int32 number get set).write message = [] := by simp [int32, zero]
    rw [restore_of_nothing depth written, zero, unset]
  · have nonzero : (get message).toNat ≠ 0 := fun none => zero (UInt32.toNat_inj.mp none)
    have written : (int32 number get set).write message =
        [.varint (if (get message).toNat < UInt32.size / 2 then (get message).toNat
          else (get message).toNat + (UInt64.size - UInt32.size))] := if_neg nonzero
    rw [restore_of_value depth written]
    simp only [int32]
    split
    · rw [Nat.toUInt32, UInt32.ofNat_toNat]
    · rw [toUInt32_extended]

@[simp] theorem bool_restore {get : M → Bool} {set : M → Bool → M} (unset : set initial false = initial) :
    (bool number get set).restore depth message initial = some (set initial (get message)) := by
  cases held : get message with
  | false =>
    have written : (bool number get set).write message = [] := by simp [bool, held]
    rw [restore_of_nothing depth written, unset]
  | true =>
    have written : (bool number get set).write message = [.varint 1] := by simp [bool, held]
    rw [restore_of_value depth written]
    rfl

@[simp] theorem fixed64_restore {get : M → UInt64} {set : M → UInt64 → M} (unset : set initial 0 = initial) :
    (fixed64 number get set).restore depth message initial = some (set initial (get message)) := by
  by_cases zero : get message = 0
  · have written : (fixed64 number get set).write message = [] := if_pos zero
    rw [restore_of_nothing depth written, zero, unset]
  · have written : (fixed64 number get set).write message = [.fixed64 (get message).toNat] := if_neg zero
    rw [restore_of_value depth written]
    simp [fixed64]

@[simp] theorem bytes_restore {get : M → Bytes} {set : M → Bytes → M} (unset : set initial [] = initial) :
    (bytes number get set).restore depth message initial = some (set initial (get message)) := by
  by_cases empty : get message = []
  · have written : (bytes number get set).write message = [] := by simp [bytes, empty]
    rw [restore_of_nothing depth written, empty, unset]
  · have written : (bytes number get set).write message = [.delimited (get message)] := by simp [bytes, empty]
    rw [restore_of_value depth written]
    rfl

variable {schema : Schema S}

theorem message_restore {get : M → Option S} {set : M → Option S → M} {depth : Nat}
    (restores : ∀ s ∈ get message, schema.merge depth schema.empty (schema.encode s) = some s)
    (vacant : get initial = none) (unset : set initial none = initial) :
    (Slot.message number schema get set).restore (depth + 1) message initial = some (set initial (get message)) := by
  cases held : get message with
  | none =>
    have written : (Slot.message number schema get set).write message = [] := by simp [Slot.message, held]
    rw [restore_of_nothing _ written, unset]
  | some s =>
    have written : (Slot.message number schema get set).write message = [.delimited (schema.encode s)] := by
      simp [Slot.message, held]
    rw [restore_of_value _ written]
    simp [Slot.message, vacant, restores s held]

theorem messages_restore {get : M → List S} {set : M → List S → M} {depth : Nat}
    (restores : ∀ s ∈ get message, schema.merge depth schema.empty (schema.encode s) = some s)
    (get_set : ∀ m v, get (set m v) = v) (set_set : ∀ m v w, set (set m v) w = set m w)
    (unset : set initial [] = initial) :
    (Slot.messages number schema get set).restore (depth + 1) message initial = some (set initial (get message)) := by
  -- What has been read before stays at the front.
  have appended (later : List S) : ∀ earlier,
      (∀ s ∈ later, schema.merge depth schema.empty (schema.encode s) = some s) →
      (later.map fun s => Value.delimited (schema.encode s)).foldlM
        (fun into value => (Slot.messages number schema get set).merge (depth + 1) value into) (set initial earlier) =
      some (set initial (earlier ++ later)) := by
    induction later with
    | nil =>
      intro earlier _
      simp
    | cons s rest ih =>
      intro earlier restores
      have first := restores s List.mem_cons_self
      have step := ih (earlier ++ [s]) fun other member => restores other (List.mem_cons_of_mem _ member)
      rw [List.append_assoc, List.singleton_append] at step
      rw [List.map_cons, List.foldlM_cons, ← step]
      simp [Slot.messages, first, get_set, set_set]
  have all := appended (get message) [] restores
  rwa [unset] at all

end Restore

/-! ## What a slot has room for -/

/-- What a slot writes for a message has room, as long as it is not too long. -/
def Sized (slot : Slot M) (message : M) : Prop := ∀ value ∈ slot.write message, value.size < UInt64.size → value.Fits

/-- The byte strings that a slot writes for a message are not too long. -/
def Short (slot : Slot M) (message : M) : Prop :=
  ∀ bytes, .delimited bytes ∈ slot.write message → bytes.length < UInt64.size

section Sizes

variable {message : M} (number : Nat)

@[simp] theorem uint32_fits (get : M → UInt32) (set : M → UInt32 → M) : (uint32 number get set).Fits message := by
  intro value written
  simp only [uint32] at written
  split at written
  · cases written
  · cases List.mem_singleton.mp written
    exact Nat.lt_trans (get message).toNat_lt_size (by decide)

@[simp] theorem int32_fits (get : M → UInt32) (set : M → UInt32 → M) : (int32 number get set).Fits message := by
  intro value written
  have bound := (get message).toNat_lt_size
  simp only [int32] at written
  split at written
  · cases written
  · cases List.mem_singleton.mp written
    simp only [Value.Fits]
    split
    · exact Nat.lt_trans bound (by decide)
    · have room : UInt32.size ≤ UInt64.size := by decide
      omega

@[simp] theorem bool_fits (get : M → Bool) (set : M → Bool → M) : (bool number get set).Fits message := by
  intro value written
  simp only [bool] at written
  split at written
  · cases List.mem_singleton.mp written
    exact (by decide : 1 < UInt64.size)
  · cases written

@[simp] theorem fixed64_fits (get : M → UInt64) (set : M → UInt64 → M) : (fixed64 number get set).Fits message := by
  intro value written
  simp only [fixed64] at written
  split at written
  · cases written
  · cases List.mem_singleton.mp written
    exact (get message).toNat_lt_size

@[simp] theorem bytes_fits (get : M → Bytes) (set : M → Bytes → M) :
    (bytes number get set).Fits message ↔ (get message).length < UInt64.size := by
  simp only [Fits, bytes]
  cases get message with
  | nil => simp
  | cons => simp [Value.Fits]

@[simp] theorem Fits.sized {slot : Slot M} (fits : slot.Fits message) : slot.Sized message :=
  fun value written _ => fits value written

@[simp] theorem bytes_sized (get : M → Bytes) (set : M → Bytes → M) : (bytes number get set).Sized message := by
  intro value written short
  simp only [bytes] at written
  split at written
  · cases written
  · cases List.mem_singleton.mp written
    exact short

@[simp] theorem message_sized (schema : Schema S) (get : M → Option S) (set : M → Option S → M) :
    (Slot.message number schema get set).Sized message := by
  intro value written short
  obtain ⟨s, _, rfl⟩ := Option.map_eq_some_iff.mp (Option.mem_toList.mp written)
  exact short

@[simp] theorem messages_sized (schema : Schema S) (get : M → List S) (set : M → List S → M) :
    (Slot.messages number schema get set).Sized message := by
  intro value written short
  obtain ⟨s, _, rfl⟩ := List.mem_map.mp written
  exact short

variable {number} {schema : Schema S}

theorem message_short {get : M → Option S} {set : M → Option S → M}
    (short : (Slot.message number schema get set).Short message) :
    ∀ s ∈ get message, (schema.encode s).length < UInt64.size :=
  fun _ held => short _ (Option.mem_toList.mpr (Option.mem_map_of_mem _ held))

theorem messages_short {get : M → List S} {set : M → List S → M}
    (short : (Slot.messages number schema get set).Short message) :
    ∀ s ∈ get message, (schema.encode s).length < UInt64.size :=
  fun _ held => short _ (List.mem_map_of_mem held)

end Sizes

end Slot

namespace Schema

variable {schema : Schema M} {message : M} {levels : Nat}

theorem size_le_encode {slot : Slot M} {value : Value} (member : slot ∈ schema.slots)
    (written : value ∈ slot.write message) : value.size ≤ (schema.encode message).length := by
  have listed : (⟨slot.number, value⟩ : Field) ∈ schema.fields message :=
    List.mem_flatMap.mpr ⟨slot, member, List.mem_map_of_mem written⟩
  have within : (⟨slot.number, value⟩ : Field).write.Sublist (schema.encode message) :=
    List.sublist_flatten_of_mem (List.mem_map_of_mem listed)
  exact Nat.le_trans (Field.size_le_write ⟨slot.number, value⟩) within.length_le

/-- The messages of a schema are read back as they were written, if that is `levels` levels or more above the deepest that
is allowed. -/
def Faithful (schema : Schema M) (levels : Nat) : Prop :=
  ∀ depth message, levels ≤ depth → (schema.encode message).length < UInt64.size →
    schema.merge depth schema.empty (schema.encode message) = some message

theorem faithful_of_slots (numbered : Slot.Numbered schema.slots)
    (sized : ∀ message, ∀ slot ∈ schema.slots, slot.Sized message)
    (restores : ∀ depth message, levels ≤ depth → (∀ slot ∈ schema.slots, slot.Short message) →
      schema.slots.foldlM (fun into slot => slot.restore depth message into) schema.empty = some message) :
    schema.Faithful levels := by
  intro depth message deep short
  have sizes {slot : Slot M} (member : slot ∈ schema.slots) {value : Value} (written : value ∈ slot.write message) :
      value.size < UInt64.size := Nat.lt_of_le_of_lt (size_le_encode member written) short
  have fits : ∀ slot ∈ schema.slots, slot.Fits message := fun slot member value written =>
    sized message slot member value written (sizes member written)
  have shorts : ∀ slot ∈ schema.slots, slot.Short message := fun slot member bytes written => sizes member written
  rw [merge_encode numbered fits, restores depth message deep shorts]

namespace Faithful

variable {schema : Schema S} (faithful : schema.Faithful levels)

include faithful

theorem decode?_encode (shallow : levels ≤ maxDepth) {message : S} (short : (schema.encode message).length < UInt64.size) :
    schema.decode? (schema.encode message) = some message :=
  faithful maxDepth message shallow short

variable {number depth : Nat} (deep : levels ≤ depth) {initial : M}

include deep

theorem message_restore {get : M → Option S} {set : M → Option S → M}
    (short : (Slot.message number schema get set).Short message) (vacant : get initial = none)
    (unset : set initial none = initial) :
    (Slot.message number schema get set).restore (depth + 1) message initial = some (set initial (get message)) :=
  Slot.message_restore number (fun s held => faithful depth s deep (Slot.message_short short s held)) vacant unset

theorem messages_restore {get : M → List S} {set : M → List S → M}
    (short : (Slot.messages number schema get set).Short message) (get_set : ∀ m v, get (set m v) = v)
    (set_set : ∀ m v w, set (set m v) w = set m w) (unset : set initial [] = initial) :
    (Slot.messages number schema get set).restore (depth + 1) message initial = some (set initial (get message)) :=
  Slot.messages_restore number (fun s held => faithful depth s deep (Slot.messages_short short s held)) get_set set_set unset

end Faithful

end Schema

end DoubleRatchet.Protobuf
