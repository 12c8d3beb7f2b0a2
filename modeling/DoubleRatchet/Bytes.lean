/-!
Byte strings: hexadecimal text, numbers in both byte orders, and strings of a length fixed by their type.
-/
namespace DoubleRatchet

abbrev Bytes := List UInt8

namespace Bytes

def ofText (text : String) : Bytes := text.toUTF8.toList

def hexDigit (n : UInt8) : Char :=
  Char.ofNat (if n < 10 then 48 + n.toNat else 87 + n.toNat)

def hex (bytes : Bytes) : String :=
  String.ofList (bytes.flatMap fun (b : UInt8) => [hexDigit (b >>> 4), hexDigit (b &&& 15)])

/-- The first `count` pieces of `size` bytes each. -/
def pieces (size : Nat) : (count : Nat) → Bytes → List Bytes
  | 0, _ => []
  | count + 1, bytes => bytes.take size :: pieces size count (bytes.drop size)

/-- The value of a hexadecimal digit of either case. -/
def hexValue? (c : Char) : Option UInt8 :=
  if '0' ≤ c ∧ c ≤ '9' then some (c.toNat - 48).toUInt8
  else if 'a' ≤ c ∧ c ≤ 'f' then some (c.toNat - 87).toUInt8
  else if 'A' ≤ c ∧ c ≤ 'F' then some (c.toNat - 55).toUInt8
  else none

/-- The bytes of hexadecimal text, two digits a byte. -/
def ofHex? (text : String) : Option Bytes :=
  (text.toList.mapM hexValue?).bind fun digits =>
    if digits.length % 2 = 0 then
      some ((Bytes.pieces 2 (digits.length / 2) digits).map fun pair => pair.foldl (fun b d => 16 * b + d) 0)
    else none

/-- The number whose base-256 digits are the bytes, the least significant first. -/
def toNatLE (bytes : Bytes) : Nat :=
  bytes.foldr (fun b n => b.toNat + 256 * n) 0

/-- The lowest `size` base-256 digits of a number, the least significant first. -/
def ofNatLE : (size : Nat) → Nat → Bytes
  | 0, _ => []
  | size + 1, n => n.toUInt8 :: ofNatLE size (n / 256)

/-- The lowest `size` base-256 digits of a number, the most significant first. -/
def ofNatBE (size n : Nat) : Bytes := (ofNatLE size n).reverse

@[simp] theorem length_ofNatLE (size n : Nat) : (ofNatLE size n).length = size := by
  induction size generalizing n with
  | zero => rfl
  | succ size ih => simp [ofNatLE, ih]

@[simp] theorem length_ofNatBE (size n : Nat) : (ofNatBE size n).length = size := by
  simp [ofNatBE]

end Bytes

/-- A byte string of `n` bytes. -/
structure FixedBytes (n : Nat) where
  bytes : Bytes
  length_bytes : bytes.length = n
  deriving DecidableEq

namespace FixedBytes

variable {n : Nat}

theorem ext {a b : FixedBytes n} (h : a.bytes = b.bytes) : a = b := by
  cases a; cases b; simp_all

/-- The string itself if it has `n` bytes. -/
def ofBytes? (n : Nat) (bytes : Bytes) : Option (FixedBytes n) :=
  if h : bytes.length = n then some ⟨bytes, h⟩ else none

/-- The `size` bytes that follow the first `start`. -/
def slice (a : FixedBytes n) (start size : Nat) (h : start + size ≤ n := by decide) : FixedBytes size :=
  ⟨(a.bytes.drop start).take size, by simp [a.length_bytes]; omega⟩

def halves (n : Nat) (a : FixedBytes (n + n)) : FixedBytes n × FixedBytes n :=
  (⟨a.bytes.take n, by simp [a.length_bytes]⟩, ⟨a.bytes.drop n, by simp [a.length_bytes]⟩)

@[simp] theorem ofBytes?_bytes (a : FixedBytes n) : ofBytes? n a.bytes = some a := by
  simp [ofBytes?, a.length_bytes]

theorem ofBytes?_eq_some_iff {bytes : Bytes} {a : FixedBytes n} :
    ofBytes? n bytes = some a ↔ bytes = a.bytes := by
  constructor
  · intro h
    unfold ofBytes? at h
    split at h
    · exact (congrArg FixedBytes.bytes (Option.some.inj h))
    · contradiction
  · rintro rfl
    exact ofBytes?_bytes a

theorem ofBytes?_eq_none_iff {bytes : Bytes} : ofBytes? n bytes = none ↔ bytes.length ≠ n := by
  simp [ofBytes?]

end FixedBytes

end DoubleRatchet
