import DoubleRatchet.Proofs.Curve.Group
import DoubleRatchet.Proofs.Curve.Residues
import Mathlib.GroupTheory.OrderOfElement

/-! The points that are computed with stand for points of the Edwards curve, and what is computed from them stands for their
sums, opposites and multiples. The base point has the order that scalars are reduced by. -/
namespace DoubleRatchet.Curve

open Coordinate

/-- The coefficient is no square: half way to the power at which all numbers but zero come to one, it comes to `-1`. -/
theorem coefficient_nonsquare (r : Residue) : r * r ≠ coefficient.residue := by
  intro square
  have evaluated : power 255 coefficient (prime / 2) = -1 := by decide +kernel
  have criterion := congrArg residue evaluated
  rw [residue_power, Nat.mod_eq_of_lt (by decide), ← square, ← pow_two, ← pow_mul, residue_neg, residue_one,
    show 2 * (prime / 2) = prime - 1 from rfl] at criterion
  by_cases zero : r = 0
  · rw [zero, zero_pow (by decide)] at criterion
    exact absurd criterion (by decide)
  · rw [ZMod.pow_card_sub_one_eq_one zero] at criterion
    exact absurd criterion (by decide)

/-- The curve that the points of keys and signatures are on. -/
def edwards : EdwardsCurve Residue where
  d := coefficient.residue
  i := rootOfMinusOne.residue
  i_mul_i := rootOfMinusOne_mul_self
  nonsquare := coefficient_nonsquare
  two_ne_zero := by decide

namespace Point

/-- Four coordinates stand for a point of the curve. -/
structure Represents (p : Point) (P : edwards.Point) : Prop where
  Z_ne_zero : p.Z.residue ≠ 0
  X_eq : p.X.residue = P.x * p.Z.residue
  Y_eq : p.Y.residue = P.y * p.Z.residue
  T_eq : p.T.residue = P.x * P.y * p.Z.residue

variable {p q : Point} {P Q : edwards.Point}

theorem zero_represents : zero.Represents 0 := by
  constructor <;> simp [zero]

theorem Represents.neg (represents : p.Represents P) : p.neg.Represents (-P) := by
  obtain ⟨Z_ne_zero, X_eq, Y_eq, T_eq⟩ := represents
  constructor <;> simp [Point.neg, *]

theorem Represents.add (first : p.Represents P) (second : q.Represents Q) : (p.add q).Represents (P + Q) := by
  obtain ⟨plus, minus⟩ := P.holds.denominators_ne_zero Q.holds
  obtain ⟨Z_ne_zero, X_eq, Y_eq, T_eq⟩ := first
  obtain ⟨Z_ne_zero', X_eq', Y_eq', T_eq'⟩ := second
  have scale : 2 * (p.Z.residue * q.Z.residue) ≠ 0 := mul_ne_zero edwards.two_ne_zero (mul_ne_zero Z_ne_zero Z_ne_zero')
  have e : ((p.Y + p.X) * (q.Y + q.X) - (p.Y - p.X) * (q.Y - q.X)).residue =
      2 * (p.Z.residue * q.Z.residue) * (P.x * Q.y + Q.x * P.y) := by
    simp only [residue_add, residue_sub, residue_mul, X_eq, Y_eq, X_eq', Y_eq']
    ring
  have h : ((p.Y + p.X) * (q.Y + q.X) + (p.Y - p.X) * (q.Y - q.X)).residue =
      2 * (p.Z.residue * q.Z.residue) * (P.y * Q.y + P.x * Q.x) := by
    simp only [residue_add, residue_sub, residue_mul, X_eq, Y_eq, X_eq', Y_eq']
    ring
  have product : (p.T * (2 * coefficient) * q.T).residue =
      2 * (p.Z.residue * q.Z.residue) * (edwards.d * P.x * Q.x * P.y * Q.y) := by
    simp only [residue_mul, residue_two, T_eq, T_eq', edwards]
    ring
  have f : (p.Z * 2 * q.Z - p.T * (2 * coefficient) * q.T).residue =
      2 * (p.Z.residue * q.Z.residue) * (1 - edwards.d * P.x * Q.x * P.y * Q.y) := by
    simp only [residue_sub, product, residue_mul, residue_two]
    ring
  have g : (p.Z * 2 * q.Z + p.T * (2 * coefficient) * q.T).residue =
      2 * (p.Z.residue * q.Z.residue) * (1 + edwards.d * P.x * Q.x * P.y * Q.y) := by
    simp only [residue_add, product, residue_mul, residue_two]
    ring
  generalize plus_eq : 1 + edwards.d * P.x * Q.x * P.y * Q.y = b at plus g
  generalize minus_eq : 1 - edwards.d * P.x * Q.x * P.y * Q.y = c at minus f
  constructor
  · simp only [Point.add, residue_mul, f, g]
    exact mul_ne_zero (mul_ne_zero scale minus) (mul_ne_zero scale plus)
  · simp only [Point.add, residue_mul, e, f, g, EdwardsCurve.Point.add_x, plus_eq]
    field_simp
  · simp only [Point.add, residue_mul, f, g, h, EdwardsCurve.Point.add_y, minus_eq]
    field_simp
  · simp only [Point.add, residue_mul, e, f, g, h, EdwardsCurve.Point.add_x, EdwardsCurve.Point.add_y, plus_eq, minus_eq]
    field_simp

theorem order_lt : order < 2 ^ 253 := by decide

theorem Represents.multiple (represents : p.Represents P) (bits n : ℕ) :
    (multiple bits n p).Represents ((n % 2 ^ bits) • P) := by
  induction bits generalizing n p P with
  | zero => simpa [Point.multiple, Nat.mod_one] using zero_represents
  | succ bits ih =>
    have rest := ih (represents.add represents) (n / 2)
    have halves : (n % 2 ^ (bits + 1)) • P = (n % 2) • P + (n / 2 % 2 ^ bits) • (P + P) := by
      rw [mod_two_pow_succ, add_nsmul, mul_nsmul, two_nsmul]
    simp only [Point.multiple]
    rw [halves]
    split
    · rename_i odd
      rw [odd, one_nsmul]
      exact represents.add rest
    · rename_i even
      rw [Nat.mod_two_ne_one.mp even, zero_nsmul, zero_add]
      exact rest

/-- All bits of a scalar are looked at. -/
theorem Represents.smul (represents : p.Represents P) (k : Scalar) : (p.smul k).Represents (k.val • P) := by
  have fits : k.val < 2 ^ 253 := k.isLt.trans order_lt
  have multiple := represents.multiple 253 k.val
  rwa [Nat.mod_eq_of_lt fits] at multiple

/-! ## What is seen of a point -/

theorem Represents.x_residue (represents : p.Represents P) : p.x.residue = P.x := by
  rw [x, residue_mul, residue_inverse, represents.X_eq, mul_inv_cancel_right₀ represents.Z_ne_zero]

theorem Represents.y_residue (represents : p.Represents P) : p.y.residue = P.y := by
  rw [y, residue_mul, residue_inverse, represents.Y_eq, mul_inv_cancel_right₀ represents.Z_ne_zero]

theorem compress_congr (x_eq : p.x = q.x) (y_eq : p.y = q.y) : p.compress = q.compress := by
  have sign_eq : p.sign = q.sign := congrArg isOdd x_eq
  apply FixedBytes.ext
  exact congrArg₂ (fun (y : Coordinate) (s : Bool) => Bytes.ofNatLE 32 (y.val + if s then highBit else 0)) y_eq sign_eq

/-- The compressed form is one of the point, whatever coordinates stand for it. -/
theorem Represents.compress_eq (represents : p.Represents P) (represents' : q.Represents P) : p.compress = q.compress :=
  compress_congr (residue_injective (represents.x_residue.trans represents'.x_residue.symm))
    (residue_injective (represents.y_residue.trans represents'.y_residue.symm))

/-! ## The base point -/

theorem base_holds : edwards.Holds base.X.residue base.Y.residue := by
  have evaluated : base.Y * base.Y = 1 + base.X * base.X + coefficient * (base.X * base.X) * (base.Y * base.Y) := by
    decide +kernel
  have equation := congrArg residue evaluated
  simp only [residue_add, residue_mul, residue_one] at equation
  exact equation

/-- The point of the curve that the base point stands for. -/
def generator : edwards.Point := ⟨base.X.residue, base.Y.residue, base_holds⟩

theorem base_represents : base.Represents generator := by
  have unit : base.Z = 1 := by decide +kernel
  have product : base.T = base.X * base.Y := by decide +kernel
  constructor <;> simp [unit, product, generator]

theorem order_nsmul_generator : order • generator = 0 := by
  have evaluated : (multiple 253 order base).X = 0 ∧ (multiple 253 order base).Y = (multiple 253 order base).Z := by
    decide +kernel
  have represents := base_represents.multiple 253 order
  rw [Nat.mod_eq_of_lt order_lt] at represents
  obtain ⟨Z_ne_zero, X_eq, Y_eq, -⟩ := represents
  rw [evaluated.1, residue_zero, zero_eq_mul] at X_eq
  rw [evaluated.2, right_eq_mul₀ Z_ne_zero] at Y_eq
  exact EdwardsCurve.Point.ext (X_eq.resolve_right Z_ne_zero) Y_eq

theorem generator_ne_zero : generator ≠ 0 := by
  intro zero
  have evaluated : ¬ base.X = 0 := by decide +kernel
  have none := congrArg EdwardsCurve.Point.x zero
  rw [EdwardsCurve.Point.zero_x, generator, residue_eq_zero] at none
  exact evaluated none

instance : Fact order.Prime := ⟨order_prime⟩

theorem nsmul_generator_eq_zero {n : ℕ} : n • generator = 0 ↔ order ∣ n := by
  rw [← addOrderOf_dvd_iff_nsmul_eq_zero, addOrderOf_eq_prime order_nsmul_generator generator_ne_zero]

theorem mod_order_nsmul_generator (n : ℕ) : (n % order) • generator = n • generator := by
  have whole := congrArg (· • generator) (Nat.mod_add_div n order)
  simp only [add_nsmul, mul_nsmul, order_nsmul_generator, nsmul_zero, add_zero] at whole
  exact whole

theorem scalar_add_nsmul (a b : Scalar) : (a + b).val • generator = a.val • generator + b.val • generator := by
  rw [Fin.val_add, mod_order_nsmul_generator, add_nsmul]

theorem scalar_mul_nsmul (a b : Scalar) : (a * b).val • generator = a.val • b.val • generator := by
  rw [Fin.val_mul, mod_order_nsmul_generator, mul_nsmul']

/-! ## The Montgomery form -/

theorem Represents.affine (represents : p.Represents P) : (⟨p.x, p.y, 1, p.x * p.y⟩ : Point).Represents P := by
  constructor <;> simp [represents.x_residue, represents.y_residue]

/-- The first coordinate is found again from the second and from its sign. -/
theorem Represents.ofY? (represents : p.Represents P) : ofY? p.y p.sign = some ⟨p.x, p.y, 1, p.x * p.y⟩ := by
  have square : p.y * p.y - 1 = p.x * p.x * (coefficient * (p.y * p.y) + 1) := by
    have on := P.holds
    apply residue_injective
    simp only [residue_add, residue_sub, residue_mul, residue_one, represents.x_residue, represents.y_residue]
    unfold EdwardsCurve.Holds edwards at on
    linear_combination on
  have denominator : coefficient * (p.y * p.y) + 1 ≠ 0 := by
    intro zero
    have zero := congrArg residue zero
    simp only [residue_add, residue_mul, residue_one, residue_zero] at zero
    exact EdwardsCurve.Holds.one_add_ne_zero (E := edwards) p.y.residue ((add_comm _ _).trans zero)
  have signed : (if p.sign then -even p.x else even p.x) = p.x := signed_even
  rw [Point.ofY?, sqrtRatio?_eq p.x square denominator, Option.map_some, signed]

section

variable (represents : p.Represents P) (nonzero : P ≠ 0)

include represents nonzero

theorem Represents.toMontgomery_residue : p.toMontgomery.residue = (1 + P.y) / (1 - P.y) := by
  have denominator := P.one_sub_ne_zero nonzero
  have Z_ne_zero := represents.Z_ne_zero
  have factored : p.Z.residue - P.y * p.Z.residue = (1 - P.y) * p.Z.residue := by ring
  rw [toMontgomery, residue_mul, residue_add, residue_inverse, residue_sub, represents.Y_eq, factored]
  field_simp

/-- The point is found again from its Montgomery coordinate and the sign. -/
theorem Represents.ofMontgomery? : ofMontgomery? p.toMontgomery p.sign = some ⟨p.x, p.y, 1, p.x * p.y⟩ := by
  have denominator := P.one_sub_ne_zero nonzero
  have two_ne_zero := edwards.two_ne_zero
  have u_eq := represents.toMontgomery_residue nonzero
  have less : (1 + P.y) / (1 - P.y) - 1 = 2 * P.y / (1 - P.y) := by
    field_simp
    ring
  have more : (1 + P.y) / (1 - P.y) + 1 = 2 / (1 - P.y) := by
    field_simp
    ring
  have finite : p.toMontgomery ≠ -1 := by
    intro infinite
    rw [infinite, residue_neg, residue_one, eq_comm, ← add_eq_zero_iff_eq_neg, more] at u_eq
    exact div_ne_zero two_ne_zero denominator u_eq
  have y_eq : (p.toMontgomery - 1) * inverse (p.toMontgomery + 1) = p.y := by
    apply residue_injective
    rw [residue_mul, residue_sub, residue_inverse, residue_add, residue_one, u_eq, less, more, represents.y_residue]
    field_simp
  rw [Point.ofMontgomery?, if_neg finite, y_eq, represents.ofY?]

end

end Point

end DoubleRatchet.Curve
