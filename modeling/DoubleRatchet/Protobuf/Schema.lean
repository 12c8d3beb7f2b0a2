import DoubleRatchet.Protobuf.Field

/-!
Message schemas. A schema lists the slots of a message type in the order of their numbers; encoding writes the
slots in that order, and decoding merges the fields of a byte string one by one into an empty message.
-/
namespace DoubleRatchet.Protobuf

/-- A numbered part of messages of type `M`: the values it is written as, and how a value that is read changes
a message. A value of the wrong kind is refused. -/
structure Slot (M : Type) where
  number : Nat
  write : M → List Value
  merge : (depth : Nat) → Value → M → Option M

/-- The message that nothing has been read into, and the slots. -/
structure Schema (M : Type) where
  empty : M
  slots : List (Slot M)

namespace Schema

variable {M : Type}

/-- A field of an unknown number changes nothing. -/
def mergeField (schema : Schema M) (depth : Nat) (message : M) (field : Field) : Option M :=
  match schema.slots.find? (·.number == field.number) with
  | some slot => slot.merge depth field.value message
  | none => some message

/-- Reads the fields of a byte string into a message. -/
def merge (schema : Schema M) (depth : Nat) (message : M) (bytes : Bytes) : Option M :=
  (readFields depth bytes).bind fun fields => fields.foldlM (schema.mergeField depth) message

/-- How many levels messages and groups may be nested. -/
def maxDepth : Nat := 100

def decode? (schema : Schema M) (bytes : Bytes) : Option M := schema.merge maxDepth schema.empty bytes

/-- The fields of a message, in the order of their numbers. -/
def fields (schema : Schema M) (message : M) : List Field :=
  schema.slots.flatMap fun slot => (slot.write message).map fun value => ⟨slot.number, value⟩

def encode (schema : Schema M) (message : M) : Bytes := writeFields (schema.fields message)

end Schema

namespace Slot

variable {M S : Type}

/-- A number of 32 bits; zero is not written, and higher bits that are read are dropped. -/
def uint32 (number : Nat) (get : M → UInt32) (set : M → UInt32 → M) : Slot M where
  number
  write m := if get m = 0 then [] else [.varint (get m).toNat]
  merge
    | _, .varint n, m => some (set m n.toUInt32)
    | _, _, _ => none

/-- A number of 32 bits, written whenever there is one. -/
def optionalUint32 (number : Nat) (get : M → Option UInt32) (set : M → Option UInt32 → M) : Slot M where
  number
  write m := ((get m).map fun n => .varint n.toNat).toList
  merge
    | _, .varint n, m => some (set m (some n.toUInt32))
    | _, _, _ => none

/-- A number of 32 bits in two's complement, which is written extended to 64 bits. -/
def int32 (number : Nat) (get : M → UInt32) (set : M → UInt32 → M) : Slot M where
  number
  write m :=
    let n := (get m).toNat
    if n = 0 then [] else [.varint (if n < UInt32.size / 2 then n else n + (UInt64.size - UInt32.size))]
  merge
    | _, .varint n, m => some (set m n.toUInt32)
    | _, _, _ => none

def bool (number : Nat) (get : M → Bool) (set : M → Bool → M) : Slot M where
  number
  write m := if get m then [.varint 1] else []
  merge
    | _, .varint n, m => some (set m (n != 0))
    | _, _, _ => none

/-- A number of 64 bits in eight bytes; zero is not written. -/
def fixed64 (number : Nat) (get : M → UInt64) (set : M → UInt64 → M) : Slot M where
  number
  write m := if get m = 0 then [] else [.fixed64 (get m).toNat]
  merge
    | _, .fixed64 n, m => some (set m n.toUInt64)
    | _, _, _ => none

/-- A byte string; an empty one is not written. -/
def bytes (number : Nat) (get : M → Bytes) (set : M → Bytes → M) : Slot M where
  number
  write m := if (get m).isEmpty then [] else [.delimited (get m)]
  merge
    | _, .delimited b, m => some (set m b)
    | _, _, _ => none

/-- A byte string, written whenever there is one. -/
def optionalBytes (number : Nat) (get : M → Option Bytes) (set : M → Option Bytes → M) : Slot M where
  number
  write m := ((get m).map .delimited).toList
  merge
    | _, .delimited b, m => some (set m (some b))
    | _, _, _ => none

/-- A message inside the message. What is read is merged into the one that is there. -/
def message (number : Nat) (schema : Schema S) (get : M → Option S) (set : M → Option S → M) : Slot M where
  number
  write m := ((get m).map fun s => .delimited (schema.encode s)).toList
  merge
    | depth + 1, .delimited b, m =>
      (schema.merge depth ((get m).getD schema.empty) b).map fun s => set m (some s)
    | _, _, _ => none

/-- Any number of messages inside the message. What is read becomes the last of them. -/
def messages (number : Nat) (schema : Schema S) (get : M → List S) (set : M → List S → M) : Slot M where
  number
  write m := (get m).map fun s => .delimited (schema.encode s)
  merge
    | depth + 1, .delimited b, m => (schema.merge depth schema.empty b).map fun s => set m (get m ++ [s])
    | _, _, _ => none

end Slot

end DoubleRatchet.Protobuf
