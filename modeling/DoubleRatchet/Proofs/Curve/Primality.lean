import DoubleRatchet.Curve.Edwards
import Mathlib.Data.List.Prime
import Mathlib.NumberTheory.LucasPrimality
import Mathlib.Tactic.NormNum.Prime

/-! The modulus of the coordinates and the order of the base point are prime. A certificate of a number names a root modulo
it, and the primes that its predecessor is the product of: the powers of a root that return to one at the predecessor, and at
no quotient of it by one of these primes, are as many as only a prime leaves room for. The large primes among them are
certified before it. -/
namespace DoubleRatchet.Curve

/-- The lowest bits of a number: the last of them, and those of its half. -/
theorem mod_two_pow_succ (n bits : ℕ) : n % 2 ^ (bits + 1) = n % 2 + 2 * (n / 2 % 2 ^ bits) := by
  rw [pow_succ', Nat.mod_mul]

/-- `a` to the power of the number that the lowest `bits` bits of `n` make, modulo `m`. -/
def powerMod (m : Nat) : (bits : Nat) → (a n : Nat) → Nat
  | 0, _, _ => 1 % m
  | bits + 1, a, n =>
    let rest := powerMod m bits (a * a % m) (n / 2)
    if n % 2 = 1 then a * rest % m else rest

theorem powerMod_eq (m bits a n : ℕ) : powerMod m bits a n = a ^ (n % 2 ^ bits) % m := by
  induction bits generalizing a n with
  | zero => simp [powerMod, Nat.mod_one]
  | succ bits ih =>
    have square : (a * a % m) ^ (n / 2 % 2 ^ bits) % m = a ^ (2 * (n / 2 % 2 ^ bits)) % m := by
      rw [← Nat.pow_mod, ← pow_two, pow_mul]
    simp only [powerMod, ih, square, mod_two_pow_succ]
    split
    · rename_i odd
      rw [odd, pow_add, pow_one, Nat.mul_mod, Nat.mod_mod, ← Nat.mul_mod]
    · rename_i even
      rw [Nat.mod_two_ne_one.mp even, Nat.zero_add]

theorem powerMod_eq_one {m : ℕ} (large : 1 < m) {bits n : ℕ} (fits : n < 2 ^ bits) (a : ℕ) :
    powerMod m bits a n = 1 ↔ (a : ZMod m) ^ n = 1 := by
  have cast : (a : ZMod m) ^ n = 1 ↔ ((a ^ n : ℕ) : ZMod m) = ((1 : ℕ) : ZMod m) := by
    rw [Nat.cast_pow, Nat.cast_one]
  rw [powerMod_eq, Nat.mod_eq_of_lt fits, cast, ZMod.natCast_eq_natCast_iff', Nat.mod_eq_of_lt large]

/-- A number of at most 256 bits, a root modulo it, and the primes that its predecessor is the product of. -/
structure Certificate where
  number : Nat
  root : Nat
  primes : List Nat

namespace Certificate

/-- The certificate is checked: all its primes are known, their product is the predecessor of the number, and the powers of
the root return to one there, and not before. -/
def holds (known : List Nat) (c : Certificate) : Bool :=
  1 < c.number && c.number.log2 < 256 && c.primes.prod == c.number - 1 &&
    powerMod c.number 256 c.root (c.number - 1) == 1 &&
    c.primes.all fun q => known.contains q && powerMod c.number 256 c.root ((c.number - 1) / q) != 1

theorem prime_of_holds {known : List Nat} {c : Certificate} (primes : ∀ q ∈ known, q.Prime) (holds : c.holds known) :
    c.number.Prime := by
  simp only [Certificate.holds, Bool.and_eq_true, decide_eq_true_eq, beq_iff_eq, List.all_eq_true, List.contains_iff_mem,
    bne_iff_ne, ne_eq] at holds
  obtain ⟨⟨⟨⟨large, small⟩, product⟩, returns⟩, first⟩ := holds
  have fits : c.number < 2 ^ 256 := (Nat.log2_lt (by omega)).mp small
  refine lucas_primality c.number c.root ((powerMod_eq_one large (by omega) _).mp returns) fun q prime divides => ?_
  -- A prime divisor of the product is one of its factors, all of which are known to be prime.
  rw [← product] at divides
  obtain ⟨r, member, divides⟩ := (Prime.dvd_prod_iff prime.prime).mp divides
  obtain ⟨is_known, early⟩ := first r member
  obtain rfl := (Nat.prime_dvd_prime_iff_eq prime (primes r is_known)).mp divides
  exact fun returns => early ((powerMod_eq_one large (by have := Nat.div_le_self (c.number - 1) q; omega) _).mpr returns)

/-- Certificates hold in turn, each with the numbers of those before it known. -/
def allHold : List Nat → List Certificate → Bool
  | _, [] => true
  | known, c :: rest => c.holds known && allHold (c.number :: known) rest

theorem prime_of_allHold {known : List Nat} {certificates : List Certificate} (primes : ∀ q ∈ known, q.Prime)
    (hold : allHold known certificates) : ∀ c ∈ certificates, c.number.Prime := by
  induction certificates generalizing known with
  | nil => simp
  | cons first rest ih =>
    simp only [allHold, Bool.and_eq_true] at hold
    have prime := prime_of_holds primes hold.1
    exact List.forall_mem_cons.mpr ⟨prime, ih (List.forall_mem_cons.mpr ⟨prime, primes⟩) hold.2⟩

end Certificate

def smallPrimes : List Nat := [
  2, 3, 5, 7, 11, 13, 19, 23, 31, 41, 43, 47, 73, 103, 107, 127, 223, 269, 307, 353, 991, 1361, 2437, 2551, 2851, 3727, 4153,
  5879, 30703, 57467, 65147, 75707, 82163, 132049, 132667, 137849, 409477, 430751, 531581, 569003]

theorem prime_of_mem_smallPrimes : ∀ q ∈ smallPrimes, q.Prime := by
  norm_num [smallPrimes]

def certificates : List Certificate := [
  ⟨1224481, 13, [2, 2, 2, 2, 2, 3, 5, 2551]⟩,
  ⟨1923133, 2, [2, 2, 3, 43, 3727]⟩,
  ⟨8574133, 2, [2, 2, 3, 7, 103, 991]⟩,
  ⟨14741173, 2, [2, 2, 3, 3, 409477]⟩,
  ⟨58964693, 2, [2, 2, 14741173]⟩,
  ⟨292386187, 2, [2, 3, 3, 3, 3, 307, 5879]⟩,
  ⟨2773320623, 5, [2, 2437, 569003]⟩,
  ⟨72106336199, 7, [2, 13, 2773320623]⟩,
  ⟨213441916511, 13, [2, 5, 73, 292386187]⟩,
  ⟨1257559732178653, 2, [2, 2, 3, 7, 23, 531581, 1224481]⟩,
  ⟨1919519569386763, 2, [2, 3, 7, 19, 47, 47, 127, 8574133]⟩,
  ⟨31757755568855353, 10, [2, 2, 2, 3, 31, 107, 223, 4153, 430751]⟩,
  ⟨4434155615661930479, 17, [2, 41, 43, 1257559732178653]⟩,
  ⟨3044861653679985063343, 5, [2, 3, 11, 30703, 82163, 132667, 137849]⟩,
  ⟨172054593956031949258510691, 2, [2, 5, 1361, 2851, 4434155615661930479]⟩,
  ⟨198211423230930754013084525763697, 5, [2, 2, 2, 2, 3, 23, 58964693, 3044861653679985063343]⟩,
  ⟨75445702479781427272750846543864801, 7, [2, 2, 2, 2, 2, 3, 3, 5, 5, 75707, 72106336199, 1919519569386763]⟩,
  ⟨19757330305831588566944191468367130476339, 2, [2, 269, 213441916511, 172054593956031949258510691]⟩,
  ⟨276602624281642239937218680557139826668747, 2, [2, 7, 19757330305831588566944191468367130476339]⟩,
  ⟨74058212732561358302231226437062788676166966415465897661863160754340907, 2,
    [2, 3, 353, 57467, 132049, 1923133, 31757755568855353, 75445702479781427272750846543864801]⟩,
  ⟨order, 2, [2, 2, 3, 11, 198211423230930754013084525763697, 276602624281642239937218680557139826668747]⟩,
  ⟨prime, 2, [2, 2, 3, 65147, 74058212732561358302231226437062788676166966415465897661863160754340907]⟩]

theorem certificates_hold : Certificate.allHold smallPrimes certificates := by decide +kernel

theorem prime_prime : prime.Prime :=
  Certificate.prime_of_allHold prime_of_mem_smallPrimes certificates_hold
    ⟨prime, 2, [2, 2, 3, 65147, 74058212732561358302231226437062788676166966415465897661863160754340907]⟩
    (by simp [certificates])

theorem order_prime : order.Prime :=
  Certificate.prime_of_allHold prime_of_mem_smallPrimes certificates_hold
    ⟨order, 2, [2, 2, 3, 11, 198211423230930754013084525763697, 276602624281642239937218680557139826668747]⟩
    (by simp [certificates])

end DoubleRatchet.Curve
