import DoubleRatchet.Curve.Field

/-!
The group of points on the twisted Edwards form `y² = 1 + x² + d·x²·y²` of the curve, their compressed form,
and the map to the Montgomery form and back.
-/
namespace DoubleRatchet.Curve

open Coordinate

/-- The order of the base point, a prime between `2²⁵²` and `2²⁵³`. -/
def order : Nat := 0x1000000000000000000000000000000014def9dea2f79cd65812631a5cf5d3ed

instance : @NeZero Nat Zero.ofOfNat0 order := ⟨by decide⟩

/-- A multiplier of points of the base point's group. -/
abbrev Scalar := Fin order

def Scalar.ofBytes (bytes : Bytes) : Scalar := Fin.ofNat order bytes.toNatLE

/-- The coefficient `d` of the curve. -/
def coefficient : Coordinate := -121665 * inverse 121666

/-- The point with `x = X / Z` and `y = Y / Z`, where `T = X·Y / Z`. -/
structure Point where
  (X Y Z T : Coordinate)

namespace Point

def zero : Point := ⟨0, 1, 1, 0⟩

/-- The sum of two points; the formulas hold for equal points too. -/
def add (p q : Point) : Point :=
  let a := (p.Y - p.X) * (q.Y - q.X)
  let b := (p.Y + p.X) * (q.Y + q.X)
  let c := p.T * (2 * coefficient) * q.T
  let d := p.Z * 2 * q.Z
  let e := b - a
  let f := d - c
  let g := d + c
  let h := b + a
  ⟨e * f, g * h, f * g, e * h⟩

def neg (p : Point) : Point := ⟨-p.X, p.Y, p.Z, -p.T⟩

/-- The multiple of a point by the lowest `bits` bits of `n`. -/
def multiple : (bits : Nat) → (n : Nat) → Point → Point
  | 0, _, _ => zero
  | bits + 1, n, p =>
    let rest := multiple bits (n / 2) (p.add p)
    if n % 2 = 1 then p.add rest else rest

def smul (k : Scalar) (p : Point) : Point := multiple 253 k.val p

def x (p : Point) : Coordinate := p.X * inverse p.Z
def y (p : Point) : Coordinate := p.Y * inverse p.Z

/-- Whether `x` is odd: the sign that the compressed form keeps of it. -/
def sign (p : Point) : Bool := isOdd p.x

/-- The `y` coordinate in little-endian, with the sign of `x` in the highest bit. -/
def compress (p : Point) : FixedBytes 32 :=
  ⟨Bytes.ofNatLE 32 (p.y.val + if p.sign then highBit else 0), Bytes.length_ofNatLE _ _⟩

/-- The point with coordinate `y` and the sign of `x`, if there is one; where `x` is zero both signs will do. -/
def ofY? (y : Coordinate) (sign : Bool) : Option Point :=
  (sqrtRatio? (y * y - 1) (coefficient * (y * y) + 1)).map fun root =>
    let x := if sign then -root else root
    ⟨x, y, 1, x * y⟩

/-- The `u` coordinate of a point on the Montgomery form. -/
def toMontgomery (p : Point) : Coordinate := (p.Z + p.Y) * inverse (p.Z - p.Y)

/-- The point with Montgomery coordinate `u` and the sign of `x`, if there is one. -/
def ofMontgomery? (u : Coordinate) (sign : Bool) : Option Point :=
  if u = -1 then none else ofY? ((u - 1) * inverse (u + 1)) sign

def base : Point := (ofY? (4 * inverse 5) false).getD zero

end Point

end DoubleRatchet.Curve
