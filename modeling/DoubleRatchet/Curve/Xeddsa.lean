import DoubleRatchet.Curve.Edwards
import DoubleRatchet.Hash.Sha2

/-!
Signatures by agreement keys. The signer works with the Edwards form of its key and leaves the sign of that
point in the one bit of the signature that its scalar does not fill; the verifier takes it from there.
-/
namespace DoubleRatchet.Curve

open Hash

/-- A private key with the bits set that every private key has: a multiple of eight between `2²⁵⁴` and `2²⁵⁵`. -/
def clamp (key : FixedBytes 32) : FixedBytes 32 :=
  ⟨(key.bytes.modify 0 (· &&& 0xf8)).modify 31 fun b => (b &&& 0x7f) ||| 0x40, by simp [key.length_bytes]⟩

/-- The point of the public key that belongs to a clamped private key. -/
def publicPoint (clamped : FixedBytes 32) : Point := Point.base.smul (.ofBytes clamped.bytes)

namespace Xeddsa

/-- What the nonce's hash begins with, so that no other hash shares its input. -/
def nonceDomain : Bytes := 0xfe :: List.replicate 31 0xff

def scalar (input : Bytes) : Scalar := Scalar.ofBytes (sha512 input).bytes

/-- The scalar that binds a commitment and a public key to a message. -/
def challenge (commitment publicKey : FixedBytes 32) (message : Bytes) : Scalar :=
  scalar (commitment.bytes ++ publicKey.bytes ++ message)

/-- The signature of a message by a clamped private key: the commitment, then the response and the sign. -/
def sign (clamped : FixedBytes 32) (message : Bytes) (entropy : FixedBytes 64) : FixedBytes 64 :=
  let secret := Scalar.ofBytes clamped.bytes
  let point := publicPoint clamped
  let nonce := scalar (nonceDomain ++ clamped.bytes ++ message ++ entropy.bytes)
  let commitment := (Point.base.smul nonce).compress
  let response := challenge commitment point.compress message * secret + nonce
  ⟨commitment.bytes ++ Bytes.ofNatLE 32 (response.val + if point.sign then highBit else 0), by
    simp [commitment.length_bytes]⟩

/-- Whether a signature is one of the message under the public key with Montgomery coordinate `publicKey`. -/
def verify (publicKey : FixedBytes 32) (message : Bytes) (signature : FixedBytes 64) : Bool :=
  let (commitment, rest) := FixedBytes.halves 32 signature
  let rest := rest.bytes.toNatLE
  match Point.ofMontgomery? (.ofBytes publicKey.bytes) (rest.testBit 255) with
  | none => false
  | some point =>
    let response := rest % highBit
    if response < order then
      let k := challenge commitment point.compress message
      let recomputed := (Point.base.smul (.ofNat order response)).add (point.neg.smul k)
      recomputed.compress == commitment
    else false

end Xeddsa

/-- The Montgomery coordinate of the public key that belongs to a clamped private key. -/
def publicKey (clamped : FixedBytes 32) : FixedBytes 32 :=
  ⟨(publicPoint clamped).toMontgomery.toBytes, Bytes.length_ofNatLE _ _⟩

end DoubleRatchet.Curve
