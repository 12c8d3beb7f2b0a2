import DoubleRatchet.Protobuf.Varint

/-!
An encoded message as a list of numbered fields. Reading accepts any order and repetition; groups are passed
over and leave no more than a mark.
-/
namespace DoubleRatchet.Protobuf

/-- How a field is encoded, and what. -/
inductive Value where
  | varint (n : Nat)
  | fixed64 (n : Nat)
  | delimited (bytes : Bytes)
  | group
  | fixed32 (n : Nat)
  deriving DecidableEq

structure Field where
  number : Nat
  value : Value
  deriving DecidableEq

/-- The number that stands for a way of encoding. -/
def Value.wire : Value → Nat
  | varint _ => 0
  | fixed64 _ => 1
  | delimited _ => 2
  | group => 3
  | fixed32 _ => 5

/-- A field with its key. No group is ever written. -/
def Field.write (field : Field) : Bytes :=
  let key := writeVarint (8 * field.number + field.value.wire)
  match field.value with
  | .varint n => key ++ writeVarint n
  | .fixed64 n => key ++ Bytes.ofNatLE 8 n
  | .delimited bytes => key ++ writeVarint bytes.length ++ bytes
  | .group => []
  | .fixed32 n => key ++ Bytes.ofNatLE 4 n

def writeFields (fields : List Field) : Bytes := fields.flatMap Field.write

/-- A key of at most 32 bits: the number of a field, which is not zero, and its way of encoding. -/
def readKey (bytes : Bytes) : Option ((Nat × Nat) × Bytes) :=
  match readVarint bytes with
  | some (key, rest) => if key < UInt32.size ∧ 8 ≤ key then some ((key / 8, key % 8), rest) else none
  | none => none

/-- The first `n` bytes and the rest, if there are so many. -/
def splitAt? (n : Nat) (bytes : Bytes) : Option (Bytes × Bytes) :=
  let head := bytes.take n
  if head.length = n then some (head, bytes.drop n) else none

/-- A value encoded in a way that is not a group. -/
def readPlain (wire : Nat) (bytes : Bytes) : Option (Value × Bytes) :=
  match wire with
  | 0 => (readVarint bytes).map fun (n, rest) => (.varint n, rest)
  | 1 => (splitAt? 8 bytes).map fun (b, rest) => (.fixed64 b.toNatLE, rest)
  | 2 => (readVarint bytes).bind fun (n, rest) => (splitAt? n rest).map fun (b, rest) => (.delimited b, rest)
  | 5 => (splitAt? 4 bytes).map fun (b, rest) => (.fixed32 b.toNatLE, rest)
  | _ => none

theorem readKey_length {bytes rest : Bytes} {key : Nat × Nat} (h : readKey bytes = some (key, rest)) :
    rest.length < bytes.length := by
  unfold readKey at h
  split at h
  · next n r hr =>
    split at h
    · simp only [Option.some.injEq, Prod.mk.injEq] at h
      exact h.2 ▸ readVarint_length hr
    · contradiction
  · contradiction

theorem splitAt?_length {n : Nat} {bytes b rest : Bytes} (h : splitAt? n bytes = some (b, rest)) :
    rest.length ≤ bytes.length := by
  simp only [splitAt?] at h
  split at h
  · simp only [Option.some.injEq, Prod.mk.injEq] at h
    simp [← h.2]
  · contradiction

theorem readPlain_length {wire : Nat} {bytes rest : Bytes} {value : Value}
    (h : readPlain wire bytes = some (value, rest)) : rest.length ≤ bytes.length := by
  unfold readPlain at h
  split at h
  · obtain ⟨⟨n, r⟩, hr, he⟩ := Option.map_eq_some_iff.1 h
    simp only [Prod.mk.injEq] at he
    exact he.2 ▸ Nat.le_of_lt (readVarint_length hr)
  · obtain ⟨⟨b, r⟩, hr, he⟩ := Option.map_eq_some_iff.1 h
    simp only [Prod.mk.injEq] at he
    exact he.2 ▸ splitAt?_length hr
  · obtain ⟨⟨n, r⟩, hr, hm⟩ := Option.bind_eq_some_iff.1 h
    obtain ⟨⟨b, r'⟩, hb, he⟩ := Option.map_eq_some_iff.1 hm
    simp only [Prod.mk.injEq] at he
    exact he.2 ▸ Nat.le_of_lt (Nat.lt_of_le_of_lt (splitAt?_length hb) (readVarint_length hr))
  · obtain ⟨⟨b, r⟩, hr, he⟩ := Option.map_eq_some_iff.1 h
    simp only [Prod.mk.injEq] at he
    exact he.2 ▸ splitAt?_length hr
  · contradiction

/-- What follows the end of the outermost of the groups with numbers `opened`, the innermost first. Each must
end with its own number, and fewer than `depth` groups may be open where a field begins. -/
def skipGroups (depth : Nat) (opened : List Nat) (bytes : Bytes) : Option Bytes :=
  match _ : readKey bytes with
  | none => none
  | some ((number, wire), rest) =>
    if wire = 4 then
      match opened with
      | [] => none
      | innermost :: outer =>
        if innermost ≠ number then none
        else if outer.isEmpty then some rest
        else skipGroups depth outer rest
    else if depth ≤ opened.length then none
    else if wire = 3 then skipGroups depth (number :: opened) rest
    else match _ : readPlain wire rest with
      | none => none
      | some (_, rest') => skipGroups depth opened rest'
termination_by bytes.length
decreasing_by
  · exact readKey_length ‹_›
  · exact readKey_length ‹_›
  · exact Nat.lt_of_le_of_lt (readPlain_length ‹_›) (readKey_length ‹_›)

theorem skipGroups_length {depth : Nat} {opened : List Nat} {bytes rest : Bytes}
    (h : skipGroups depth opened bytes = some rest) : rest.length < bytes.length := by
  fun_induction skipGroups depth opened bytes with
  | case1 => contradiction
  | case2 => contradiction
  | case3 => contradiction
  | case4 =>
    cases h
    exact readKey_length ‹_›
  | case5 _ _ _ _ _ _ _ hk ih => exact Nat.lt_trans (ih h) (readKey_length hk)
  | case6 => contradiction
  | case7 _ _ _ _ _ hk _ ih => exact Nat.lt_trans (ih h) (readKey_length hk)
  | case8 => contradiction
  | case9 _ _ _ _ _ hk _ _ _ _ _ hp ih =>
    exact Nat.lt_trans (ih h) (Nat.lt_of_le_of_lt (readPlain_length hp) (readKey_length hk))

/-- The fields of a message whose own fields count as `depth` levels above the deepest that is allowed. -/
def readFields (depth : Nat) (bytes : Bytes) : Option (List Field) :=
  if bytes.isEmpty then some []
  else match _ : readKey bytes with
    | none => none
    | some ((number, wire), rest) =>
      if wire = 3 then
        match _ : skipGroups depth [number] rest with
        | none => none
        | some rest' => (readFields depth rest').map (⟨number, .group⟩ :: ·)
      else
        match _ : readPlain wire rest with
        | none => none
        | some (value, rest') => (readFields depth rest').map (⟨number, value⟩ :: ·)
termination_by bytes.length
decreasing_by
  · exact Nat.lt_trans (skipGroups_length ‹_›) (readKey_length ‹_›)
  · exact Nat.lt_of_le_of_lt (readPlain_length ‹_›) (readKey_length ‹_›)

end DoubleRatchet.Protobuf
