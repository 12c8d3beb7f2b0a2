import Mathlib.Algebra.Field.Basic
import Mathlib.Algebra.Group.Defs
import Mathlib.Tactic.FieldSimp
import Mathlib.Tactic.LinearCombination
import Mathlib.Tactic.Ring

/-! The points of a twisted Edwards curve form a commutative group. Where `-1` is a square and the coefficient `d` is none, the
denominators of the sum are never zero, so that one formula holds for all points. -/
namespace DoubleRatchet.Curve

/-- The curve `y² = 1 + x² + d·x²·y²` over a field, with a square root of `-1` in the field and none of `d`. -/
structure EdwardsCurve (K : Type) [Field K] where
  d : K
  i : K
  i_mul_i : i * i = -1
  nonsquare : ∀ r, r * r ≠ d
  two_ne_zero : (2 : K) ≠ 0

namespace EdwardsCurve

variable {K : Type} [Field K] (E : EdwardsCurve K)

/-- The coordinates are those of a point. -/
def Holds (x y : K) : Prop := y * y = 1 + x * x + E.d * (x * x) * (y * y)

@[ext]
structure Point where
  x : K
  y : K
  holds : E.Holds x y

variable {E} {x₁ y₁ x₂ y₂ x₃ y₃ : K}

/-! ## Denominators -/

theorem eq_zero_of_scaled {x y : K} (square : E.d * (x * x) = y * y) : x = 0 := by
  by_contra nonzero
  apply E.nonsquare (y / x)
  field_simp
  linear_combination -square

/-- The product that stands in the denominators is neither `1` nor `-1`: else `d` would be the square of a quotient. -/
theorem Holds.product_ne (on₁ : E.Holds x₁ y₁) (on₂ : E.Holds x₂ y₂) :
    (E.d * x₁ * x₂ * y₁ * y₂) * (E.d * x₁ * x₂ * y₁ * y₂) ≠ 1 := by
  intro unit
  unfold Holds at on₁ on₂
  have plus : x₁ * y₁ * (E.i * x₂ + y₂) = 0 := by
    apply eq_zero_of_scaled (y := E.i * x₁ + E.d * x₁ * x₂ * y₁ * y₂ * y₁)
    linear_combination (E.d * x₁ ^ 2 * y₁ ^ 2 * x₂ ^ 2 - x₁ ^ 2) * E.i_mul_i + E.d * x₁ ^ 2 * y₁ ^ 2 * on₂ - on₁ +
      (1 - y₁ ^ 2) * unit
  have minus : x₁ * y₁ * (E.i * x₂ - y₂) = 0 := by
    apply eq_zero_of_scaled (y := E.i * x₁ - E.d * x₁ * x₂ * y₁ * y₂ * y₁)
    linear_combination (E.d * x₁ ^ 2 * y₁ ^ 2 * x₂ ^ 2 - x₁ ^ 2) * E.i_mul_i + E.d * x₁ ^ 2 * y₁ ^ 2 * on₂ - on₁ +
      (1 - y₁ ^ 2) * unit
  have none : 2 * E.i * (E.d * x₁ * x₂ * y₁ * y₂) = 0 := by
    linear_combination E.d * y₂ * (plus + minus)
  apply mul_ne_zero E.two_ne_zero E.two_ne_zero
  linear_combination -2 * E.i * (E.d * x₁ * x₂ * y₁ * y₂) * none - 4 * unit + 4 * (E.d * x₁ * x₂ * y₁ * y₂) ^ 2 * E.i_mul_i

theorem Holds.denominators_ne_zero (on₁ : E.Holds x₁ y₁) (on₂ : E.Holds x₂ y₂) :
    1 + E.d * x₁ * x₂ * y₁ * y₂ ≠ 0 ∧ 1 - E.d * x₁ * x₂ * y₁ * y₂ ≠ 0 := by
  have apart := on₁.product_ne on₂
  constructor
  · intro zero
    apply apart
    linear_combination (E.d * x₁ * x₂ * y₁ * y₂ - 1) * zero
  · intro zero
    apply apart
    linear_combination -(E.d * x₁ * x₂ * y₁ * y₂ + 1) * zero

/-- No second coordinate makes the first one of infinite size. -/
theorem Holds.one_add_ne_zero (y : K) : 1 + E.d * (y * y) ≠ 0 := by
  intro zero
  have square : E.d * (y * y) = E.i * E.i := by linear_combination zero - E.i_mul_i
  have none := E.i_mul_i
  rw [← square, eq_zero_of_scaled square, mul_zero, mul_zero, eq_comm, neg_eq_zero] at none
  exact one_ne_zero none

/-! ## Sums -/

theorem Holds.add (on₁ : E.Holds x₁ y₁) (on₂ : E.Holds x₂ y₂) :
    E.Holds ((x₁ * y₂ + x₂ * y₁) / (1 + E.d * x₁ * x₂ * y₁ * y₂)) ((y₁ * y₂ + x₁ * x₂) / (1 - E.d * x₁ * x₂ * y₁ * y₂)) := by
  obtain ⟨plus, minus⟩ := on₁.denominators_ne_zero on₂
  unfold Holds at *
  generalize plus_eq : 1 + E.d * x₁ * x₂ * y₁ * y₂ = b at plus ⊢
  generalize minus_eq : 1 - E.d * x₁ * x₂ * y₁ * y₂ = c at minus ⊢
  field_simp
  subst b c
  linear_combination
    ((y₂ ^ 2 - x₂ ^ 2) * (1 + E.d ^ 2 * x₁ ^ 2 * y₁ ^ 2 * x₂ ^ 2 * y₂ ^ 2) -
      E.d * x₂ ^ 2 * y₂ ^ 2 * (y₁ ^ 2 - x₁ ^ 2 + 1 + E.d * x₁ ^ 2 * y₁ ^ 2)) * on₁ +
    ((1 + E.d * x₁ ^ 2 * y₁ ^ 2) * (1 + E.d ^ 2 * x₁ ^ 2 * y₁ ^ 2 * x₂ ^ 2 * y₂ ^ 2) -
      E.d * x₁ ^ 2 * y₁ ^ 2 * (y₂ ^ 2 - x₂ ^ 2 + 1 + E.d * x₂ ^ 2 * y₂ ^ 2)) * on₂

namespace Point

def zero : E.Point := ⟨0, 1, by simp [Holds]⟩

def neg (p : E.Point) : E.Point := ⟨-p.x, p.y, by simpa [Holds] using p.holds⟩

def add (p q : E.Point) : E.Point := ⟨_, _, p.holds.add q.holds⟩

instance : Zero E.Point := ⟨zero⟩

instance : Neg E.Point := ⟨neg⟩

instance : Add E.Point := ⟨add⟩

variable (p q r : E.Point)

@[simp] theorem zero_x : (0 : E.Point).x = 0 := rfl

@[simp] theorem zero_y : (0 : E.Point).y = 1 := rfl

@[simp] theorem neg_x : (-p).x = -p.x := rfl

@[simp] theorem neg_y : (-p).y = p.y := rfl

theorem add_x : (p + q).x = (p.x * q.y + q.x * p.y) / (1 + E.d * p.x * q.x * p.y * q.y) := rfl

theorem add_y : (p + q).y = (p.y * q.y + p.x * q.x) / (1 - E.d * p.x * q.x * p.y * q.y) := rfl

/-- Only the neutral point has the second coordinate of it. -/
theorem eq_zero_of_y (one : p.y = 1) : p = 0 := by
  have on := p.holds
  have factor : 1 + E.d ≠ 0 := by simpa using Holds.one_add_ne_zero (E := E) 1
  unfold Holds at on
  rw [one] at on
  have square : p.x * p.x * (1 + E.d) = 0 := by linear_combination -on
  exact Point.ext (mul_self_eq_zero.mp ((mul_eq_zero.mp square).resolve_right factor)) one

theorem one_sub_ne_zero (nonzero : p ≠ 0) : 1 - p.y ≠ 0 :=
  fun zero => nonzero (p.eq_zero_of_y (sub_eq_zero.mp zero).symm)

protected theorem add_comm : p + q = q + p := by
  ext
  · rw [add_x, add_x]
    ring
  · rw [add_y, add_y]
    ring

protected theorem zero_add : 0 + p = p := by
  ext <;> simp [add_x, add_y]

protected theorem neg_add_cancel : -p + p = 0 := by
  have on := p.holds
  obtain ⟨-, minus⟩ := (-p).holds.denominators_ne_zero p.holds
  ext
  · rw [add_x, neg_x, neg_y, zero_x]
    ring
  · rw [add_y, zero_y, div_eq_one_iff_eq minus]
    simp only [neg_x, neg_y]
    unfold Holds at on
    linear_combination on

/-- Both sums of three have one first coordinate: without denominators their difference is a combination of the equations of
the three points. -/
theorem add_assoc_x : (p + q + r).x = (p + (q + r)).x := by
  obtain ⟨plus, minus⟩ := p.holds.denominators_ne_zero q.holds
  obtain ⟨plus', minus'⟩ := q.holds.denominators_ne_zero r.holds
  have left := ((p + q).holds.denominators_ne_zero r.holds).1
  have right := (p.holds.denominators_ne_zero (q + r).holds).1
  rw [add_x (p + q), add_x p (q + r), div_eq_div_iff left right, add_x, add_x, add_y, add_y]
  obtain ⟨x₁, y₁, on₁⟩ := p
  obtain ⟨x₂, y₂, on₂⟩ := q
  obtain ⟨x₃, y₃, on₃⟩ := r
  unfold Holds at on₁ on₂ on₃
  dsimp only at plus minus plus' minus' ⊢
  generalize plus_eq : 1 + E.d * x₁ * x₂ * y₁ * y₂ = b at plus ⊢
  generalize minus_eq : 1 - E.d * x₁ * x₂ * y₁ * y₂ = c at minus ⊢
  generalize plus_eq' : 1 + E.d * x₂ * x₃ * y₂ * y₃ = b' at plus' ⊢
  generalize minus_eq' : 1 - E.d * x₂ * x₃ * y₂ * y₃ = c' at minus' ⊢
  field_simp
  subst b c b' c'
  linear_combination E.d * x₂ * y₂ * (
    ((y₃ ^ 2 - x₃ ^ 2 - 1) * x₂ * y₂ * (x₂ * (x₁ * x₃ + y₁ * y₃) + y₂ * (x₁ * y₃ + y₁ * x₃)) +
      x₃ * y₃ * (x₂ * (x₁ * x₃ - y₁ * y₃) + y₂ * (x₁ * y₃ - y₁ * x₃))) * on₁ +
    E.d * x₁ * y₁ * x₃ * y₃ * (x₂ * (y₁ * y₃ - x₁ * x₃) * (x₁ * y₁ - x₃ * y₃) +
      y₂ * (y₁ * x₃ - x₁ * y₃) * (x₁ * y₁ + x₃ * y₃)) * on₂ +
    ((1 + x₁ ^ 2 - y₁ ^ 2) * x₂ * y₂ * (x₂ * (x₁ * x₃ + y₁ * y₃) + y₂ * (x₁ * y₃ + y₁ * x₃)) +
      x₁ * y₁ * (x₂ * (y₁ * y₃ - x₁ * x₃) + y₂ * (x₁ * y₃ - y₁ * x₃))) * on₃)

/-- The sum with the point `(i, 0)` of order four: it exchanges the coordinates. -/
def turn : E.Point where
  x := E.i * p.y
  y := E.i * p.x
  holds := by
    have on := p.holds
    unfold Holds at *
    linear_combination on + (p.x ^ 2 - p.y ^ 2 - E.d * p.x ^ 2 * p.y ^ 2 * (E.i ^ 2 - 1)) * E.i_mul_i

theorem turn_add : (p + q).turn = p.turn + q := by
  have product : E.d * p.turn.x * q.x * p.turn.y * q.y = -(E.d * p.x * q.x * p.y * q.y) := by
    simp only [turn]
    linear_combination E.d * p.x * q.x * p.y * q.y * E.i_mul_i
  ext
  · rw [add_x, product, ← sub_eq_add_neg]
    simp only [turn, add_y]
    ring
  · rw [add_y, product, sub_neg_eq_add]
    simp only [turn, add_x]
    ring

/-- The second coordinate is the first of the sum that is turned. -/
theorem add_assoc_y : (p + q + r).y = (p + (q + r)).y := by
  have i_ne_zero : E.i ≠ 0 := by
    intro zero
    have unit := E.i_mul_i
    rw [zero, mul_zero, eq_comm, neg_eq_zero] at unit
    exact one_ne_zero unit
  have turned := add_assoc_x p.turn q r
  rw [← turn_add, ← turn_add, ← turn_add] at turned
  exact mul_left_cancel₀ i_ne_zero turned

instance : AddCommGroup E.Point where
  add_assoc p q r := Point.ext (add_assoc_x p q r) (add_assoc_y p q r)
  zero_add := Point.zero_add
  add_zero p := (Point.add_comm p 0).trans (Point.zero_add p)
  neg_add_cancel := Point.neg_add_cancel
  add_comm := Point.add_comm
  nsmul := nsmulRec
  zsmul := zsmulRec

end Point

end EdwardsCurve

end DoubleRatchet.Curve
