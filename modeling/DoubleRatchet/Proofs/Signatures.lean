import DoubleRatchet.Key
import DoubleRatchet.Proofs.Cipher.Aes
import DoubleRatchet.Proofs.Curve.Points
import DoubleRatchet.Proofs.Protobuf.Fields

/-! A signature by a private key is one under the public key that belongs to it, whatever the message and whatever is drawn. The
signer hashes the compressed point of its key, of which the public key keeps the Montgomery coordinate alone; the sign that is
missing is in the one bit that the response leaves free. -/
namespace DoubleRatchet

open Curve

/-! ## Numbers in bytes -/

namespace Bytes

theorem toNatLE_mod_eight (first : UInt8) (rest : Bytes) : toNatLE (first :: rest) % 8 = first.toNat % 8 := by
  change (first.toNat + 256 * toNatLE rest) % 8 = _
  omega

/-- A number lies where its last byte says. -/
theorem toNatLE_concat (bytes : Bytes) (last : UInt8) :
    last.toNat * numberBound bytes.length ≤ toNatLE (bytes ++ [last]) ∧
      toNatLE (bytes ++ [last]) < (last.toNat + 1) * numberBound bytes.length := by
  induction bytes with
  | nil =>
    change last.toNat * 1 ≤ last.toNat + 256 * 0 ∧ last.toNat + 256 * 0 < (last.toNat + 1) * 1
    omega
  | cons first rest ih =>
    change last.toNat * (256 * numberBound rest.length) ≤ first.toNat + 256 * toNatLE (rest ++ [last]) ∧
      first.toNat + 256 * toNatLE (rest ++ [last]) < (last.toNat + 1) * (256 * numberBound rest.length)
    have byte := first.toNat_lt
    rw [Nat.mul_left_comm, Nat.mul_left_comm (last.toNat + 1)]
    omega

end Bytes

namespace Curve

/-! ## Private keys -/

theorem clamped_first (b : UInt8) : (b &&& 0xf8).toNat % 8 = 0 :=
  Cipher.forall_byte (p := fun b => (b &&& 0xf8).toNat % 8 = 0) (by decide +kernel) b

theorem clamped_last (b : UInt8) : 64 ≤ ((b &&& 0x7f) ||| 0x40).toNat ∧ ((b &&& 0x7f) ||| 0x40).toNat < 128 :=
  Cipher.forall_byte (p := fun b => 64 ≤ ((b &&& 0x7f) ||| 0x40).toNat ∧ ((b &&& 0x7f) ||| 0x40).toNat < 128) (by decide +kernel) b

/-- What a private key is as a number: a multiple of eight between two powers of two. -/
theorem clamped_number {key : FixedBytes 32} (clamped : clamp key = key) :
    key.bytes.toNatLE % 8 = 0 ∧ highBit ≤ 2 * key.bytes.toNatLE ∧ key.bytes.toNatLE < highBit := by
  have same := congrArg FixedBytes.bytes clamped
  obtain ⟨bytes, length⟩ := key
  obtain ⟨first, rest, rfl⟩ := List.exists_cons_of_length_eq_add_one length
  obtain ⟨middle, last, rfl⟩ : ∃ middle last, rest = middle ++ [last] :=
    ⟨rest.dropLast, rest.getLast (by rintro rfl; cases length), (List.dropLast_append_getLast _).symm⟩
  have count : middle.length = 30 := by simpa using length
  have first_eq : first &&& 0xf8 = first := by
    have entry := congrArg (·[0]?) same
    simpa [clamp] using entry
  have last_eq : (last &&& 0x7f) ||| 0x40 = last := by
    have entry := congrArg (·[31]?) same
    simpa [clamp, count] using entry
  constructor
  · rw [Bytes.toNatLE_mod_eight, ← first_eq]
    exact clamped_first first
  · obtain ⟨above, below⟩ := Bytes.toNatLE_concat (first :: middle) last
    obtain ⟨least, greatest⟩ := clamped_last last
    rw [last_eq] at least greatest
    rw [List.length_cons, count] at above below
    have bound : highBit = 128 * Bytes.numberBound 31 := by decide
    have above := (Nat.mul_le_mul_right (Bytes.numberBound 31) least).trans above
    have below := below.trans_le (Nat.mul_le_mul_right (Bytes.numberBound 31) greatest)
    rw [List.cons_append] at above below
    dsimp only
    omega

/-- The base point's order divides no private key. -/
theorem not_order_dvd {key : FixedBytes 32} (clamped : clamp key = key) : ¬ order ∣ key.bytes.toNatLE := by
  obtain ⟨eights, large, small⟩ := clamped_number clamped
  rintro ⟨n, multiple⟩
  rw [multiple] at eights large small
  have divides : 8 ∣ n := Nat.Coprime.dvd_of_dvd_mul_left (by decide : Nat.Coprime 8 order) (Nat.dvd_of_mod_eq_zero eights)
  have beyond : highBit ≤ order * 8 := by decide
  have few : n < 8 := Nat.lt_of_mul_lt_mul_left (small.trans_le beyond)
  rw [Nat.eq_zero_of_dvd_of_lt divides few] at large
  exact absurd large (by decide)

/-! ## The bit of the sign -/

/-- A response and a sign in one number, which has them both. -/
theorem signed_number {response : ℕ} (small : response < order) (sign : Bool) :
    let number := response + if sign then highBit else 0
    number < Bytes.numberBound 32 ∧ number.testBit 255 = sign ∧ number % highBit = response := by
  have power : highBit = 2 ^ 255 := by decide
  have bound : Bytes.numberBound 32 = 2 * highBit := by decide
  have room : response < highBit := small.trans (by decide)
  rw [bound]
  cases sign with
  | false =>
    simp only [Bool.false_eq_true, if_false, Nat.add_zero]
    exact ⟨by omega, Nat.testBit_lt_two_pow (power ▸ room), Nat.mod_eq_of_lt room⟩
  | true =>
    simp only [if_true]
    refine ⟨by omega, ?_, by rw [Nat.add_mod_right, Nat.mod_eq_of_lt room]⟩
    rw [Nat.add_comm, power, Nat.testBit_two_pow_add_eq, Nat.testBit_lt_two_pow (power ▸ room)]
    rfl

/-- A coordinate is read back from its bytes. -/
theorem Coordinate.ofBytes_toBytes (a : Coordinate) : Coordinate.ofBytes (Coordinate.toBytes a) = a := by
  have fits : a.val < Bytes.numberBound 32 := a.isLt.trans (by decide)
  have room : a.val < highBit := a.isLt.trans (by decide)
  rw [ofBytes, toBytes, Bytes.toNatLE_ofNatLE fits, Nat.mod_eq_of_lt room]
  exact Fin.ext (Nat.mod_eq_of_lt a.isLt)

/-! ## Signing and verifying -/

theorem publicPoint_represents (key : FixedBytes 32) :
    (publicPoint key).Represents (key.bytes.toNatLE • Point.generator) := by
  have represents := Point.base_represents.smul (.ofBytes key.bytes)
  rwa [Scalar.ofBytes, Fin.val_ofNat, Point.mod_order_nsmul_generator] at represents

theorem publicPoint_nonzero {key : FixedBytes 32} (clamped : clamp key = key) :
    key.bytes.toNatLE • Point.generator ≠ 0 :=
  mt Point.nsmul_generator_eq_zero.mp (not_order_dvd clamped)

/-- The public key gives the point of the private key back to whoever has the sign. -/
theorem ofMontgomery?_publicKey {key : FixedBytes 32} (clamped : clamp key = key) :
    let point := publicPoint key
    Point.ofMontgomery? (.ofBytes (publicKey key).bytes) point.sign = some ⟨point.x, point.y, 1, point.x * point.y⟩ := by
  intro point
  rw [publicKey, Coordinate.ofBytes_toBytes]
  exact (publicPoint_represents key).ofMontgomery? (publicPoint_nonzero clamped)

namespace Xeddsa

section

variable (key : FixedBytes 32) (message : Bytes) (entropy : FixedBytes 64)

/-- The secret multiplier of the commitment of a signature. -/
def nonce : Scalar := scalar (nonceDomain ++ key.bytes ++ message ++ entropy.bytes)

def commitment : FixedBytes 32 := (Point.base.smul (nonce key message entropy)).compress

/-- What a signature answers to the challenge. -/
def response : Scalar :=
  challenge (commitment key message entropy) (publicPoint key).compress message * .ofBytes key.bytes +
    nonce key message entropy

/-- The second half of a signature as a number. -/
def signedResponse : ℕ := (response key message entropy).val + if (publicPoint key).sign then highBit else 0

theorem halves_sign : FixedBytes.halves 32 (sign key message entropy) =
    (commitment key message entropy, ⟨Bytes.ofNatLE 32 (signedResponse key message entropy), Bytes.length_ofNatLE _ _⟩) := by
  have length := (commitment key message entropy).length_bytes
  have bytes : (sign key message entropy).bytes =
    (commitment key message entropy).bytes ++ Bytes.ofNatLE 32 (signedResponse key message entropy) := rfl
  refine Prod.ext (FixedBytes.ext ?_) (FixedBytes.ext ?_)
  · exact (congrArg (List.take 32) bytes).trans (List.take_left' length)
  · exact (congrArg (List.drop 32) bytes).trans (List.drop_left' length)

/-- What the verifier reads from the second half. -/
theorem second_half_sign :
    let rest := (FixedBytes.halves 32 (sign key message entropy)).2.bytes.toNatLE
    rest = signedResponse key message entropy ∧ rest.testBit 255 = (publicPoint key).sign ∧
      rest % highBit = (response key message entropy).val := by
  obtain ⟨fits, sign_eq, response_eq⟩ := signed_number (response key message entropy).isLt (publicPoint key).sign
  intro rest
  have rest_eq : rest = signedResponse key message entropy := by
    simp only [rest, halves_sign]
    exact Bytes.toNatLE_ofNatLE fits
  rw [rest_eq]
  exact ⟨rfl, sign_eq, response_eq⟩

end

variable {key : FixedBytes 32} (clamped : clamp key = key) (message : Bytes) (entropy : FixedBytes 64)

/-- Whatever coordinates stand for the point of the key, the signer and the verifier hash the same. -/
theorem challenge_eq {point : Point} (represents : point.Represents (key.bytes.toNatLE • Point.generator)) :
    challenge (commitment key message entropy) point.compress message =
      challenge (commitment key message entropy) (publicPoint key).compress message := by
  rw [represents.compress_eq (publicPoint_represents key)]

/-- The response, less the challenged multiple of the key, leads to the nonce. -/
theorem response_nsmul (key : FixedBytes 32) : (response key message entropy).val • Point.generator +
    (challenge (commitment key message entropy) (publicPoint key).compress message).val •
      -(key.bytes.toNatLE • Point.generator) = (nonce key message entropy).val • Point.generator := by
  rw [response, Point.scalar_add_nsmul, Point.scalar_mul_nsmul, Scalar.ofBytes, Fin.val_ofNat,
    Point.mod_order_nsmul_generator, neg_nsmul, add_neg_cancel_comm]

include clamped

theorem verify_sign : verify (publicKey key) message (sign key message entropy) := by
  have found := ofMontgomery?_publicKey clamped
  have represents := (publicPoint_represents key).affine
  obtain ⟨-, sign_eq, response_eq⟩ := second_half_sign key message entropy
  have same : Fin.ofNat order (response key message entropy).val = response key message entropy :=
    Fin.ext (Nat.mod_eq_of_lt (response key message entropy).isLt)
  have recomputed := (Point.base_represents.smul (response key message entropy)).add
    (represents.neg.smul (challenge (commitment key message entropy) (publicPoint key).compress message))
  rw [response_nsmul] at recomputed
  have commits := recomputed.compress_eq (Point.base_represents.smul (nonce key message entropy))
  have hashed := challenge_eq message entropy represents
  unfold verify
  dsimp only
  rw [sign_eq, found, response_eq, same, halves_sign]
  dsimp only
  rw [if_pos (response key message entropy).isLt, hashed, commits]
  exact beq_self_eq_true _

end Xeddsa

end Curve

theorem PrivateKey.verify_sign (key : PrivateKey) (message : Bytes) (e : Entropy) :
    key.publicKey.verify message (key.sign message e).1.bytes := by
  rw [PublicKey.verify, FixedBytes.ofBytes?_bytes]
  exact Xeddsa.verify_sign key.clamped message (Entropy.draw 64 e).1

/-- What a private key signs, its public key verifies. The second half of the signature is a response below the order, which is
below `2²⁵³`, and in the highest bit the sign; with it the public key leads to the point whose compressed form was hashed. -/
theorem signatures_verify (key : PrivateKey) (message : Bytes) (e : Entropy) :
    let signature := (key.sign message e).1
    let rest := (FixedBytes.halves 32 signature).2.bytes.toNatLE
    let point := publicPoint key.raw
    key.publicKey.verify message signature.bytes ∧
      (∃ response < order, rest = response + if point.sign then highBit else 0) ∧
      ∃ found, Point.ofMontgomery? (.ofBytes key.publicKey.raw.bytes) (rest.testBit 255) = some found ∧
        found.x = point.x ∧ found.y = point.y := by
  intro signature rest point
  obtain ⟨rest_eq, sign_eq, -⟩ := Xeddsa.second_half_sign key.raw message (Entropy.draw 64 e).1
  have represents := publicPoint_represents key.raw
  refine ⟨key.verify_sign message e, ⟨_, (Xeddsa.response key.raw message (Entropy.draw 64 e).1).isLt, rest_eq⟩,
    ⟨point.x, point.y, 1, point.x * point.y⟩, ?_, ?_, ?_⟩
  · exact (congrArg _ sign_eq).trans (ofMontgomery?_publicKey key.clamped)
  · exact Coordinate.residue_injective (represents.affine.x_residue.trans represents.x_residue.symm)
  · exact Coordinate.residue_injective (represents.affine.y_residue.trans represents.y_residue.symm)

end DoubleRatchet
