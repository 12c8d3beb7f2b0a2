import DoubleRatchet.Protobuf.Field

/-! What is written can be read again: numbers, fields and lists of fields, with whatever follows them left over. -/
namespace DoubleRatchet

theorem toNat_toUInt8 {n : Nat} (byte : n < 256) : n.toUInt8.toNat = n := UInt8.toNat_ofNat_of_lt' byte

theorem toUInt8_lt_iff {n : Nat} (byte : n < 256) : n.toUInt8 < 128 ↔ n < 128 := by
  rw [UInt8.lt_iff_toNat_lt, toNat_toUInt8 byte]
  rfl

namespace Bytes

/-- The numbers below this have so many digits of base 256. -/
def numberBound : (size : Nat) → Nat
  | 0 => 1
  | size + 1 => 256 * numberBound size

theorem toNatLE_ofNatLE {size n : Nat} (bound : n < numberBound size) : (ofNatLE size n).toNatLE = n := by
  induction size generalizing n with
  | zero => exact (Nat.lt_one_iff.mp bound).symm
  | succ size ih =>
    rw [numberBound] at bound
    have low : n.toUInt8.toNat = n % 256 := UInt8.toNat_ofNat'
    change n.toUInt8.toNat + 256 * (ofNatLE size (n / 256)).toNatLE = n
    rw [ih (by omega), low, Nat.mod_add_div]

end Bytes

namespace Protobuf

/-- The numbers below this are read from a digit and as many more, of which the tenth has one bit. -/
def digitBound : (more : Nat) → Nat
  | 0 => 2
  | more + 1 => 128 * digitBound more

theorem readDigits_writeDigits {more n : Nat} (bound : n < digitBound more) (rest : Bytes) :
    readDigits (more + 1) (writeDigits more n ++ rest) = some (n, rest) := by
  induction more generalizing n with
  | zero =>
    have byte : n < 256 := Nat.lt_trans bound (by decide)
    have one_bit : ¬ 2 ≤ n.toUInt8 := by
      rw [UInt8.le_iff_toNat_le, toNat_toUInt8 byte]
      exact Nat.not_le.mpr bound
    rw [writeDigits, List.singleton_append, readDigits,
      if_pos ((toUInt8_lt_iff byte).mpr (Nat.lt_trans bound (by decide))), if_neg fun last => one_bit last.2,
      toNat_toUInt8 byte]
  | succ more ih =>
    rw [digitBound] at bound
    rw [writeDigits]
    split
    · rename_i small
      have byte : n < 256 := Nat.lt_trans small (by decide)
      rw [List.singleton_append, readDigits, if_pos ((toUInt8_lt_iff byte).mpr small), if_neg fun last => Nat.succ_ne_zero _ last.1,
        toNat_toUInt8 byte]
    · have byte : n % 128 + 128 < 256 := by omega
      have marked : ¬ (n % 128 + 128).toUInt8 < 128 := by
        rw [toUInt8_lt_iff byte]
        omega
      rw [List.cons_append, readDigits, if_neg marked, ih (by omega), Option.map_some]
      dsimp only
      rw [toNat_toUInt8 byte, Nat.add_sub_cancel, Nat.mod_add_div]

theorem readVarint_writeVarint {n : Nat} (bound : n < UInt64.size) (rest : Bytes) :
    readVarint (writeVarint n ++ rest) = some (n, rest) :=
  readDigits_writeDigits bound rest

theorem writeDigits_length (more n : Nat) : (writeDigits more n).length ≤ more + 1 := by
  induction more generalizing n with
  | zero => exact Nat.le_refl 1
  | succ more ih =>
    rw [writeDigits]
    split
    · exact Nat.succ_le_succ (Nat.zero_le _)
    · exact Nat.succ_le_succ (ih (n / 128))

theorem writeVarint_length (n : Nat) : (writeVarint n).length ≤ 10 := writeDigits_length 9 n

theorem splitAt?_append (bytes rest : Bytes) : splitAt? bytes.length (bytes ++ rest) = some (bytes, rest) := by
  rw [splitAt?, List.take_left', if_pos rfl, List.drop_left' rfl]
  rfl

/-- A value that its way of encoding has room for, which a group never is. -/
def Value.Fits : Value → Prop
  | .varint n => n < UInt64.size
  | .fixed64 n => n < UInt64.size
  | .delimited bytes => bytes.length < UInt64.size
  | .group => False
  | .fixed32 n => n < UInt32.size

/-- A field that can be written: its number is not zero and leaves room in the key, and its value fits. -/
structure Field.Fits (field : Field) : Prop where
  positive : 0 < field.number
  number : 8 * field.number + 8 ≤ UInt32.size
  value : field.value.Fits

theorem Value.wire_lt (value : Value) : value.wire < 8 := by
  cases value <;> simp [wire]

theorem readKey_write {field : Field} (fits : field.Fits) (rest : Bytes) :
    readKey (writeVarint (8 * field.number + field.value.wire) ++ rest) =
      some ((field.number, field.value.wire), rest) := by
  have wire := field.value.wire_lt
  have positive := fits.positive
  have number := fits.number
  have bound : 8 * field.number + field.value.wire < UInt32.size := by omega
  have key : (8 * field.number + field.value.wire) / 8 = field.number := by omega
  have way : (8 * field.number + field.value.wire) % 8 = field.value.wire := by omega
  rw [readKey, readVarint_writeVarint (Nat.lt_trans bound (by decide))]
  dsimp only
  rw [if_pos ⟨bound, by omega⟩, key, way]

/-- What a field holds after its key. -/
def Value.payload : Value → Bytes
  | .varint n => writeVarint n
  | .fixed64 n => Bytes.ofNatLE 8 n
  | .delimited bytes => writeVarint bytes.length ++ bytes
  | .group => []
  | .fixed32 n => Bytes.ofNatLE 4 n

theorem Field.write_eq {field : Field} (fits : field.Fits) :
    field.write = writeVarint (8 * field.number + field.value.wire) ++ field.value.payload := by
  obtain ⟨number, value⟩ := field
  cases value with
  | group => exact fits.value.elim
  | delimited bytes => exact List.append_assoc _ _ _
  | _ => rfl

/-- How much of a field is for its value to say: the bytes that it counts. -/
def Value.size : Value → Nat
  | .delimited bytes => bytes.length
  | _ => 0

theorem Field.write_length (field : Field) : field.write.length ≤ 20 + field.value.size := by
  obtain ⟨number, value⟩ := field
  have key := writeVarint_length (8 * number + value.wire)
  cases value with
  | varint n =>
    have digits := writeVarint_length n
    simp only [write, List.length_append]
    omega
  | delimited bytes =>
    have digits := writeVarint_length bytes.length
    simp only [write, List.length_append, Value.size]
    omega
  | group => exact Nat.zero_le _
  | fixed64 n =>
    simp only [write, List.length_append, Bytes.length_ofNatLE]
    omega
  | fixed32 n =>
    simp only [write, List.length_append, Bytes.length_ofNatLE]
    omega

theorem readPlain_payload {value : Value} (fits : value.Fits) (rest : Bytes) :
    readPlain value.wire (value.payload ++ rest) = some (value, rest) := by
  cases value with
  | varint n =>
    change (readVarint _).map _ = _
    rw [Value.payload, readVarint_writeVarint fits]
    rfl
  | fixed64 n =>
    have split := splitAt?_append (Bytes.ofNatLE 8 n) rest
    rw [Bytes.length_ofNatLE] at split
    simp only [Value.wire, readPlain, Value.payload, split, Option.map_some]
    rw [Bytes.toNatLE_ofNatLE fits]
  | delimited bytes =>
    change (readVarint _).bind _ = _
    rw [Value.payload, List.append_assoc, readVarint_writeVarint fits, Option.bind_some]
    dsimp only
    rw [splitAt?_append]
    rfl
  | group => exact fits.elim
  | fixed32 n =>
    have split := splitAt?_append (Bytes.ofNatLE 4 n) rest
    rw [Bytes.length_ofNatLE] at split
    simp only [Value.wire, readPlain, Value.payload, split, Option.map_some]
    rw [Bytes.toNatLE_ofNatLE fits]

theorem readFields_writeFields {fields : List Field} (fits : ∀ field ∈ fields, field.Fits) (depth : Nat) :
    readFields depth (writeFields fields) = some fields := by
  induction fields with
  | nil => rw [readFields]; rfl
  | cons field rest ih =>
    have first := fits field List.mem_cons_self
    have later := ih fun other member => fits other (List.mem_cons_of_mem _ member)
    have not_group : field.value.wire ≠ 3 := by
      intro group
      have value := first.value
      cases held : field.value <;> rw [held] at group value <;> first | exact value.elim | cases group
    have written : writeFields (field :: rest) =
        writeVarint (8 * field.number + field.value.wire) ++ (field.value.payload ++ writeFields rest) := by
      rw [writeFields, List.flatMap_cons, Field.write_eq first, List.append_assoc]
      rfl
    have key := readKey_write first (field.value.payload ++ writeFields rest)
    rw [← written] at key
    have nonempty : (writeFields (field :: rest)).isEmpty = false := by
      cases empty : writeFields (field :: rest) with
      | nil =>
        rw [empty] at key
        cases key
      | cons => rfl
    rw [readFields, if_neg (by rw [nonempty]; exact Bool.false_ne_true)]
    split
    · rename_i none_read
      rw [key] at none_read
      cases none_read
    · rename_i number wire left read
      rw [key] at read
      cases read
      rw [if_neg not_group]
      split
      · rename_i none_read
        rw [readPlain_payload first.value] at none_read
        cases none_read
      · rename_i value left read
        rw [readPlain_payload first.value] at read
        cases read
        rw [later]
        rfl

end Protobuf

end DoubleRatchet
