import DoubleRatchet.Bytes

/-!
The field of integers modulo `2²⁵⁵ - 19`, with powers, inverses and square roots.
-/
namespace DoubleRatchet.Curve

/-- The prime that the curve's coordinates are taken modulo, `2²⁵⁵ - 19`. -/
def prime : Nat := 0x7fffffffffffffffffffffffffffffffffffffffffffffffffffffffffffffed

instance : @NeZero Nat Zero.ofOfNat0 prime := ⟨by decide⟩

/-- The highest bit of 32 bytes, which no coordinate reaches. -/
def highBit : Nat := 0x8000000000000000000000000000000000000000000000000000000000000000

abbrev Coordinate := Fin prime

namespace Coordinate

/-- The residue of a little-endian number, of which the highest bit does not count. -/
def ofBytes (bytes : Bytes) : Coordinate := Fin.ofNat prime (bytes.toNatLE % highBit)

/-- The 32 bytes of the least residue, little-endian. -/
def toBytes (a : Coordinate) : Bytes := Bytes.ofNatLE 32 a.val

/-- `a` to the power of the number that the lowest `bits` bits of `n` make. -/
def power : (bits : Nat) → (a : Coordinate) → (n : Nat) → Coordinate
  | 0, _, _ => 1
  | bits + 1, a, n =>
    let rest := power bits (a * a) (n / 2)
    if n % 2 = 1 then a * rest else rest

/-- The inverse, and zero for zero. -/
def inverse (a : Coordinate) : Coordinate := power 255 a (prime - 2)

/-- Whether the least residue is odd, which tells a coordinate from its opposite. -/
def isOdd (a : Coordinate) : Bool := a.val % 2 == 1

/-- The one of `a` and `-a` that is even. -/
def even (a : Coordinate) : Coordinate := if isOdd a then -a else a

/-- A square root of `-1`. -/
def rootOfMinusOne : Coordinate := power 255 2 ((prime - 1) / 4)

/-- The even square root of `u / v`, if there is one. -/
def sqrtRatio? (u v : Coordinate) : Option Coordinate :=
  let v3 := v * v * v
  let root := u * v3 * power 252 (u * v3 * v3 * v) ((prime - 5) / 8)
  let check := v * (root * root)
  if check = u then some (even root)
  else if check = -u then some (even (root * rootOfMinusOne))
  else none

end Coordinate

end DoubleRatchet.Curve
