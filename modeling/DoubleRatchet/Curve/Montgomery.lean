import DoubleRatchet.Curve.Field

/-!
Key agreement on the Montgomery form of the curve, where a point is known by its `u` coordinate alone.
-/
namespace DoubleRatchet.Curve.Montgomery

open Coordinate

/-- Two multiples of one point that differ by the point itself, each as a ratio of coordinates. -/
structure Rung where
  (x₂ z₂ x₃ z₃ : Coordinate)

/-- The multiples `2n` and `2n + 1` from `n` and `n + 1`. -/
def Rung.double (u : Coordinate) (r : Rung) : Rung :=
  let sum := r.x₂ + r.z₂
  let difference := r.x₂ - r.z₂
  let sumSquared := sum * sum
  let differenceSquared := difference * difference
  let gap := sumSquared - differenceSquared
  let cross := (r.x₃ - r.z₃) * sum
  let cross' := (r.x₃ + r.z₃) * difference
  ⟨sumSquared * differenceSquared, gap * (sumSquared + 121665 * gap),
    (cross + cross') * (cross + cross'), u * ((cross - cross') * (cross - cross'))⟩

def Rung.swap (r : Rung) : Rung := ⟨r.x₃, r.z₃, r.x₂, r.z₂⟩

/-- The multiples `n` and `n + 1` become `2n` and `2n + 1`, or for a set bit `2n + 1` and `2n + 2`. -/
def Rung.step (u : Coordinate) (r : Rung) (bit : Bool) : Rung :=
  if bit then (r.swap.double u).swap else r.double u

/-- The coordinate of the multiple of a point by the lowest 255 bits of `n`, and zero at infinity. -/
def multiple (n : Nat) (u : Coordinate) : Coordinate :=
  let r := (List.range 255).foldl (fun (r : Rung) i => r.step u (n.testBit (254 - i))) ⟨1, 0, u, 1⟩
  r.x₂ * inverse r.z₂

end DoubleRatchet.Curve.Montgomery
