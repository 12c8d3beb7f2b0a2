import DoubleRatchet.Curve.Montgomery
import DoubleRatchet.Curve.Xeddsa
import DoubleRatchet.Entropy
import DoubleRatchet.Fault

/-!
Key pairs: their stored form, agreement between two of them, and signatures.
-/
namespace DoubleRatchet

open Curve

/-- A public key, known by its coordinate on the Montgomery form of the curve. -/
structure PublicKey where
  raw : FixedBytes 32
  deriving DecidableEq

namespace PublicKey

/-- The byte that a stored public key begins with. -/
def typeByte : UInt8 := 5

/-- The stored form: the type byte and the coordinate. -/
def serialize (key : PublicKey) : Bytes := typeByte :: key.raw.bytes

def ofRaw (bytes : Bytes) : Except Fault PublicKey :=
  match FixedBytes.ofBytes? 32 bytes with
  | some raw => .ok ⟨raw⟩
  | none => .error (.badKeyLength bytes.length)

/-- Reads the stored form; the type is checked before the length. -/
def deserialize : Bytes → Except Fault PublicKey
  | [] => .error .emptyKey
  | tag :: body =>
    if tag ≠ typeByte then .error (.badKeyType tag)
    else match FixedBytes.ofBytes? 32 body with
      | some raw => .ok ⟨raw⟩
      | none => .error (.badKeyLength (body.length + 1))

def hex (key : PublicKey) : String := key.raw.bytes.hex

/-- The coordinate as it is shown to a developer. -/
def display (key : PublicKey) : String := s!"PublicKey(\"{key.hex}\")"

/-- Keys are ordered as byte strings. -/
instance : Ord PublicKey := ⟨fun a b => List.compareLex compare a.raw.bytes b.raw.bytes⟩

/-- Whether a byte string is a signature of the message under this key. -/
def verify (key : PublicKey) (message signature : Bytes) : Bool :=
  match FixedBytes.ofBytes? 64 signature with
  | some signature => Xeddsa.verify key.raw message signature
  | none => false

end PublicKey

/-- A private key: a multiple of eight between `2²⁵⁴` and `2²⁵⁵`, in little-endian. -/
structure PrivateKey where
  raw : FixedBytes 32
  clamped : clamp raw = raw
  deriving DecidableEq

namespace PrivateKey

theorem clamp_clamp (key : FixedBytes 32) : clamp (clamp key) = clamp key := by
  have low : ((· &&& 0xf8) ∘ (· &&& 0xf8) : UInt8 → UInt8) = (· &&& 0xf8) := by
    funext b; simp [UInt8.and_assoc]
  have high : ((fun b => (b &&& 0x7f) ||| 0x40) ∘ (fun b => (b &&& 0x7f) ||| 0x40) : UInt8 → UInt8) =
      fun b => (b &&& 0x7f) ||| 0x40 := by
    funext b
    apply UInt8.eq_of_toBitVec_eq
    simp only [Function.comp, UInt8.toBitVec_or, UInt8.toBitVec_and]
    generalize b.toBitVec = v
    revert v
    decide +kernel
  apply FixedBytes.ext
  simp only [clamp]
  rw [List.modify_modify_ne _ _ _ (by decide : (31 : Nat) ≠ 0), List.modify_modify_eq, List.modify_modify_eq,
    low, high]

/-- The private key nearest to a byte string: three low bits and the highest bit are cleared, the next is set. -/
def ofBytes (bytes : FixedBytes 32) : PrivateKey := ⟨clamp bytes, clamp_clamp bytes⟩

def deserialize (bytes : Bytes) : Except Fault PrivateKey :=
  match FixedBytes.ofBytes? 32 bytes with
  | some raw => .ok (ofBytes raw)
  | none => .error (.badKeyLength bytes.length)

def serialize (key : PrivateKey) : Bytes := key.raw.bytes

/-- The public key that belongs to a private key. -/
def publicKey (key : PrivateKey) : PublicKey := ⟨Curve.publicKey key.raw⟩

/-- The secret that the holders of two key pairs share. -/
def agree (key : PrivateKey) (peer : PublicKey) : Bytes :=
  (Montgomery.multiple key.raw.bytes.toNatLE (.ofBytes peer.raw.bytes)).toBytes

def sign (key : PrivateKey) (message : Bytes) : StateM Entropy (FixedBytes 64) :=
  return Xeddsa.sign key.raw message (← Entropy.draw 64)

end PrivateKey

/-- A private key with a public key, which need not belong to it. -/
structure KeyPair where
  publicKey : PublicKey
  privateKey : PrivateKey
  deriving DecidableEq

namespace KeyPair

def ofPrivate (key : PrivateKey) : KeyPair := ⟨key.publicKey, key⟩

/-- Reads the stored forms, the public key first. -/
def deserialize (publicKey privateKey : Bytes) : Except Fault KeyPair :=
  return ⟨← PublicKey.deserialize publicKey, ← PrivateKey.deserialize privateKey⟩

def generate : StateM Entropy KeyPair :=
  return ofPrivate (.ofBytes (← Entropy.draw 32))

end KeyPair

end DoubleRatchet
