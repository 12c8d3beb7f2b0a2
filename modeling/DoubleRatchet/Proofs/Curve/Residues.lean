import DoubleRatchet.Proofs.Curve.Primality
import Mathlib.NumberTheory.LegendreSymbol.Basic

/-! Coordinates as elements of the field of integers modulo a prime. What is computed with them is sums, products, inverses and
square roots there. -/
namespace DoubleRatchet.Curve

instance : Fact prime.Prime := ⟨prime_prime⟩

/-- The field that coordinates are taken in. -/
abbrev Residue := ZMod prime

namespace Coordinate

/-- The element of the field that a coordinate stands for. -/
def residue (a : Coordinate) : Residue := (a.val : ZMod prime)

theorem residue_injective {a b : Coordinate} (same : a.residue = b.residue) : a = b := by
  have equal := (ZMod.natCast_eq_natCast_iff' _ _ _).mp same
  rw [Nat.mod_eq_of_lt a.isLt, Nat.mod_eq_of_lt b.isLt] at equal
  exact Fin.ext equal

theorem residue_inj {a b : Coordinate} : a.residue = b.residue ↔ a = b := ⟨residue_injective, congrArg residue⟩

theorem residue_ofNat (n : ℕ) : residue (Fin.ofNat prime n) = n := ZMod.natCast_mod n prime

@[simp] theorem residue_zero : (0 : Coordinate).residue = 0 := Nat.cast_zero

@[simp] theorem residue_one : (1 : Coordinate).residue = 1 := Nat.cast_one

@[simp] theorem residue_two : (2 : Coordinate).residue = 2 := residue_ofNat 2

variable (a b : Coordinate)

@[simp] theorem residue_add : (a + b).residue = a.residue + b.residue := by
  rw [residue, Fin.val_add, ZMod.natCast_mod, Nat.cast_add]
  rfl

@[simp] theorem residue_mul : (a * b).residue = a.residue * b.residue := by
  rw [residue, Fin.val_mul, ZMod.natCast_mod, Nat.cast_mul]
  rfl

@[simp] theorem residue_sub : (a - b).residue = a.residue - b.residue := by
  rw [residue, Fin.val_sub, ZMod.natCast_mod, Nat.cast_add, Nat.cast_sub b.isLt.le, ZMod.natCast_self]
  simp only [residue]
  ring

@[simp] theorem residue_neg : (-a).residue = -a.residue := by
  rw [residue, Fin.val_neg', ZMod.natCast_mod, Nat.cast_sub a.isLt.le, ZMod.natCast_self, zero_sub]
  rfl

@[simp] theorem residue_eq_zero : a.residue = 0 ↔ a = 0 := by
  rw [← residue_inj, residue_zero]

theorem residue_power (bits n : ℕ) : (power bits a n).residue = a.residue ^ (n % 2 ^ bits) := by
  induction bits generalizing a n with
  | zero => simp [power, Nat.mod_one]
  | succ bits ih =>
    have square : (a * a).residue ^ (n / 2 % 2 ^ bits) = a.residue ^ (2 * (n / 2 % 2 ^ bits)) := by
      rw [residue_mul, ← pow_two, pow_mul]
    simp only [power, mod_two_pow_succ]
    split
    · rename_i odd
      rw [residue_mul, ih, square, odd, pow_add, pow_one]
    · rename_i even
      rw [ih, square, Nat.mod_two_ne_one.mp even, Nat.zero_add]

/-- The power is the inverse, as in every field of this size. -/
@[simp] theorem residue_inverse : (inverse a).residue = a.residue⁻¹ := by
  rw [inverse, residue_power, Nat.mod_eq_of_lt (by decide)]
  by_cases zero : a.residue = 0
  · rw [zero, inv_zero, zero_pow (by decide)]
  · apply eq_inv_of_mul_eq_one_left
    have returns := ZMod.pow_card_sub_one_eq_one zero
    rwa [show prime - 1 = prime - 2 + 1 from rfl, pow_succ] at returns

/-! ## Square roots -/

section

variable {a}

theorem isOdd_neg (nonzero : a ≠ 0) : isOdd (-a) = !isOdd a := by
  have positive : a.val ≠ 0 := fun zero => nonzero (Fin.ext zero)
  have below := a.isLt
  have opposite : (-a).val = prime - a.val := by
    rw [Fin.val_neg', Nat.mod_eq_of_lt (by omega)]
  have odd : prime % 2 = 1 := by decide
  rw [isOdd, isOdd, opposite, Bool.eq_iff_iff, Bool.not_eq_true', beq_iff_eq, beq_eq_false_iff_ne]
  omega

theorem neg_neg' : - -a = a := by
  apply residue_injective
  simp

theorem neg_zero' : -(0 : Coordinate) = 0 := by
  apply residue_injective
  simp

/-- Opposite coordinates have one even form. -/
theorem even_neg : even (-a) = even a := by
  by_cases zero : a = 0
  · rw [zero, neg_zero']
  · rw [even, even, isOdd_neg zero, neg_neg']
    cases isOdd a <;> rfl

/-- From the even form and the parity a coordinate is found again. -/
theorem signed_even : (if isOdd a then -even a else even a) = a := by
  unfold even
  split
  · rw [neg_neg']
  · rfl

end

theorem rootOfMinusOne_mul_self : rootOfMinusOne.residue * rootOfMinusOne.residue = -1 := by
  have evaluated : rootOfMinusOne * rootOfMinusOne = -1 := by decide +kernel
  rw [← residue_mul, evaluated, residue_neg, residue_one]

/-- The root that is tried for the ratio `x² v / v`: up to the sign, its square is the ratio. For half way to the power at
which all numbers but zero come to one, each comes to one up to the sign. -/
theorem tried_root_squared (x v : Residue) :
    let u := x * x * v
    let root := u * (v * v * v) * (u * (v * v * v) * (v * v * v) * v) ^ ((prime - 5) / 8)
    v * (root * root) = u ∨ v * (root * root) = -u := by
  intro u root
  have power : v * (root * root) = u * (x * v ^ 4) ^ (prime / 2) := by
    have exponent : prime / 2 = 2 * (2 * ((prime - 5) / 8) + 1) := by decide
    have base : u * (v * v * v) * (v * v * v) * v = (x * v ^ 4) ^ 2 := by
      simp only [u]
      ring
    rw [exponent, pow_mul, ← base, pow_succ, pow_mul']
    simp only [root, u]
    ring
  rw [power]
  by_cases zero : x * v ^ 4 = 0
  · have none : u = 0 := by
      rcases mul_eq_zero.mp zero with zero | zero
      · simp [u, zero]
      · simp [u, pow_eq_zero_iff (by decide : 4 ≠ 0) |>.mp zero]
    simp [none]
  · rcases ZMod.pow_div_two_eq_neg_one_or_one prime zero with one | minus
    · simp [one]
    · simp [minus]

/-- Of a ratio that is a square, the even root is found. -/
theorem sqrtRatio?_eq {u v : Coordinate} (x : Coordinate) (square : u = x * x * v) (nonzero : v ≠ 0) :
    sqrtRatio? u v = some (even x) := by
  have v_nonzero : v.residue ≠ 0 := mt (residue_eq_zero v).mp nonzero
  have square : u.residue = x.residue * x.residue * v.residue := by simp [square]
  have of_root {r : Coordinate} (root : v.residue * (r.residue * r.residue) = u.residue) : some (even r) = some (even x) := by
    rw [square, mul_comm] at root
    rcases mul_self_eq_mul_self_iff.mp (mul_right_cancel₀ v_nonzero root) with same | opposite
    · rw [residue_injective same]
    · rw [residue_injective (opposite.trans (residue_neg x).symm), even_neg]
  have tried := tried_root_squared x.residue v.residue
  have exponent : (prime - 5) / 8 % 2 ^ 252 = (prime - 5) / 8 := Nat.mod_eq_of_lt (by decide)
  rw [← square, ← exponent] at tried
  simp only [← residue_mul, ← residue_power, ← residue_neg, residue_inj] at tried
  unfold sqrtRatio?
  dsimp only
  generalize u * (v * v * v) * power 252 (u * (v * v * v) * (v * v * v) * v) ((prime - 5) / 8) = root at tried ⊢
  split
  · rename_i check
    apply of_root
    simpa using congrArg residue check
  · rename_i other
    have check := tried.resolve_left other
    rw [if_pos check]
    apply of_root
    have check := congrArg residue check
    simp only [residue_mul, residue_neg] at check ⊢
    linear_combination v.residue * (root.residue * root.residue) * rootOfMinusOne_mul_self - check

end Coordinate

end DoubleRatchet.Curve
