import DoubleRatchet.Cipher.Aes

/-! Deciphering a block undoes enciphering it, layer by layer: the substitution of bytes by its inverse on all 256 of
them, the mixing of columns by linearity, the rounds by induction on their keys. -/
namespace DoubleRatchet.Cipher

/-! ## Bytes -/

/-- `next` of a number that is computed first. The inverses of all bytes are computed below; without this every number
on the way would be computed at each of its uses. -/
def computed (n : Nat) (next : Nat → Nat) : Nat :=
  match n with
  | 0 => next 0
  | m + 1 => next (m + 1)

theorem computed_eq (n : Nat) (next : Nat → Nat) : computed n next = next n := by
  cases n <;> rfl

namespace Gf

def doubleNat (a : Nat) : Nat := (2 * a) ^^^ (if 128 ≤ a then 0x11b else 0)

def mulNat (a b : Nat) : Nat :=
  (List.range 8).foldl (fun sum i => computed sum fun sum => doubleNat sum ^^^ (if b.testBit (7 - i) then a else 0)) 0

def inverseNat (a : Nat) : Nat :=
  computed (mulNat a a) fun a2 => computed (mulNat a2 a2) fun a4 => computed (mulNat a4 a4) fun a8 =>
  computed (mulNat a8 a8) fun a16 => computed (mulNat a16 a16) fun a32 => computed (mulNat a32 a32) fun a64 =>
  computed (mulNat a64 a64) fun a128 => computed (mulNat a4 a2) fun a6 => computed (mulNat a8 a6) fun a14 =>
  computed (mulNat a16 a14) fun a30 => computed (mulNat a32 a30) fun a62 => computed (mulNat a64 a62) fun a126 =>
  mulNat a128 a126

end Gf

theorem forall_byte {p : UInt8 → Prop} (all : ∀ i : Fin 256, p (UInt8.ofNat i)) (a : UInt8) : p a := by
  have := all ⟨a.toNat, a.toNat_lt⟩
  rwa [UInt8.ofNat_toNat] at this

namespace Gf

theorem toNat_double (a : UInt8) : (double a).toNat = doubleNat a.toNat :=
  forall_byte (p := fun a => (double a).toNat = doubleNat a.toNat) (by decide +kernel) a

theorem toNat_mul (a b : UInt8) : (mul a b).toNat = mulNat a.toNat b.toNat := by
  have folds : ∀ (places : List Nat) (sum : UInt8),
      (places.foldl (fun sum i => double sum ^^^ (if b.toNat.testBit (7 - i) then a else 0)) sum).toNat =
        places.foldl (fun sum i => computed sum fun sum =>
          doubleNat sum ^^^ (if b.toNat.testBit (7 - i) then a.toNat else 0)) sum.toNat := by
    intro places
    induction places with
    | nil => exact fun _ => rfl
    | cons i rest ih =>
      intro sum
      rw [List.foldl_cons, List.foldl_cons, ih, UInt8.toNat_xor, toNat_double, computed_eq]
      split <;> rfl
  exact folds (List.range 8) 0

theorem toNat_inverse (a : UInt8) : (inverse a).toNat = inverseNat a.toNat := by
  simp only [inverse, square, inverseNat, computed_eq, toNat_mul]

theorem inverse_inverse (a : UInt8) : inverse (inverse a) = a := by
  apply UInt8.toNat_inj.mp
  rw [toNat_inverse, toNat_inverse]
  have all : ∀ i : Fin 256, computed (inverseNat i) inverseNat = i := by decide +kernel
  have found := all ⟨a.toNat, a.toNat_lt⟩
  rwa [computed_eq] at found

def carry (bit : Bool) : BitVec 8 := if bit then 0x1b else 0

theorem toBitVec_double (a : UInt8) : (double a).toBitVec = a.toBitVec <<< 1 ^^^ carry a.toBitVec.msb :=
  forall_byte (p := fun a => (double a).toBitVec = a.toBitVec <<< 1 ^^^ carry a.toBitVec.msb) (by decide +kernel) a

theorem double_xor (a b : UInt8) : double (a ^^^ b) = double a ^^^ double b := by
  have carry_xor : ∀ p q, carry (p ^^ q) = carry p ^^^ carry q := by decide
  apply UInt8.eq_of_toBitVec_eq
  rw [UInt8.toBitVec_xor, toBitVec_double, toBitVec_double, toBitVec_double, UInt8.toBitVec_xor,
    BitVec.shiftLeft_xor_distrib, BitVec.msb_xor, carry_xor]
  ac_rfl

end Gf

/-- The affine map of the substitution is undone by that of `unsubstitute`. -/
theorem unsubstitute_substitute (a : UInt8) : unsubstitute (substitute a) = a := by
  have affine : ∀ b : UInt8,
      let c := b ^^^ rotateByte b 1 ^^^ rotateByte b 2 ^^^ rotateByte b 3 ^^^ rotateByte b 4 ^^^ 0x63
      rotateByte c 1 ^^^ rotateByte c 3 ^^^ rotateByte c 6 ^^^ 0x05 = b :=
    forall_byte (by decide +kernel)
  unfold unsubstitute substitute
  rw [affine, Gf.inverse_inverse]

theorem getD_table (f : UInt8 → UInt8) (a : UInt8) : (table f).getD a.toNat 0 = f a := by
  have bound : a.toNat < (table f).size := by
    rw [table, Array.size_ofFn]
    exact a.toNat_lt
  rw [Array.getD_eq_getD_getElem?, Array.getElem?_eq_getElem bound]
  simp [table]

theorem unsub_sub (a : UInt8) : unsub (sub a) = a := by
  rw [unsub, sub, unsubstitutions, substitutions, getD_table, getD_table, unsubstitute_substitute]

/-! ## Columns and blocks -/

namespace Column

theorem mix_add (s t : Column) : (s.add t).mix = s.mix.add t.mix := by
  simp only [mix, add, Gf.double_xor, mk.injEq]
  refine ⟨?_, ?_, ?_, ?_⟩ <;> ac_rfl

def correction (s : Column) : Column :=
  let u := Gf.double (Gf.double (s.a ^^^ s.c))
  let v := Gf.double (Gf.double (s.b ^^^ s.d))
  ⟨u, v, u, v⟩

theorem unmix_eq (s : Column) : s.unmix = (s.add s.correction).mix := rfl

theorem unmix_add (s t : Column) : (s.add t).unmix = s.unmix.add t.unmix := by
  have correction_add : (s.add t).correction = s.correction.add t.correction := by
    simp only [correction, add, Gf.double_xor, mk.injEq]
    refine ⟨?_, ?_, ?_, ?_⟩ <;> ac_rfl
  have regroup : ∀ p q r t : Column, (p.add q).add (r.add t) = (p.add r).add (q.add t) := by
    intro p q r t
    simp only [add, mk.injEq]
    refine ⟨?_, ?_, ?_, ?_⟩ <;> ac_rfl
  rw [unmix_eq, unmix_eq, unmix_eq, correction_add, regroup, mix_add]

/-- Both maps are linear, so it is enough to undo the mixing of columns with a single byte. -/
theorem unmix_mix (s : Column) : s.mix.unmix = s := by
  have first : ∀ a : UInt8, (mix ⟨a, 0, 0, 0⟩).unmix = ⟨a, 0, 0, 0⟩ := forall_byte (by decide +kernel)
  have second : ∀ b : UInt8, (mix ⟨0, b, 0, 0⟩).unmix = ⟨0, b, 0, 0⟩ := forall_byte (by decide +kernel)
  have third : ∀ c : UInt8, (mix ⟨0, 0, c, 0⟩).unmix = ⟨0, 0, c, 0⟩ := forall_byte (by decide +kernel)
  have fourth : ∀ d : UInt8, (mix ⟨0, 0, 0, d⟩).unmix = ⟨0, 0, 0, d⟩ := forall_byte (by decide +kernel)
  have parts : s = ((add ⟨s.a, 0, 0, 0⟩ ⟨0, s.b, 0, 0⟩).add ⟨0, 0, s.c, 0⟩).add ⟨0, 0, 0, s.d⟩ := by
    simp [add]
  rw [parts, mix_add, mix_add, mix_add, unmix_add, unmix_add, unmix_add, first, second, third, fourth]

theorem map_unsub_sub (s : Column) : (s.map sub).map unsub = s := by
  simp only [map, unsub_sub]

theorem add_add (s t : Column) : (s.add t).add t = s := by
  simp only [add, UInt8.xor_assoc, UInt8.xor_self, UInt8.xor_zero]

end Column

namespace Block

theorem add_add (s t : Block) : (s.add t).add t = s := by
  simp only [add, Column.add_add]

theorem unshiftRows_shiftRows (s : Block) : s.shiftRows.unshiftRows = s := rfl

theorem map_map_of_inverse {f g : Column → Column} (inverse : ∀ s, g (f s) = s) (s : Block) : (s.map f).map g = s := by
  simp only [map, inverse]

end Block

/-! ## Rounds -/

theorem unrounds_rounds (keys : List Block) (s : Block) : unrounds keys (rounds keys s) = s := by
  induction keys generalizing s with
  | nil => rfl
  | cons key keys ih =>
    cases keys with
    | nil =>
      change (((((s.map (·.map sub)).shiftRows).add key).add key).unshiftRows).map (·.map unsub) = s
      rw [Block.add_add, Block.unshiftRows_shiftRows, Block.map_map_of_inverse Column.map_unsub_sub]
    | cons next keys =>
      let mixed := ((s.map (·.map sub)).shiftRows).map Column.mix
      change ((((unrounds (next :: keys) (rounds (next :: keys) (mixed.add key))).add key).map
        Column.unmix).unshiftRows).map (·.map unsub) = s
      rw [ih, Block.add_add, Block.map_map_of_inverse Column.unmix_mix, Block.unshiftRows_shiftRows,
        Block.map_map_of_inverse Column.map_unsub_sub]

theorem decryptBlock_encryptBlock (keys : List Block) (s : Block) : decryptBlock keys (encryptBlock keys s) = s := by
  cases keys with
  | nil => rfl
  | cons key keys => rw [encryptBlock, decryptBlock, unrounds_rounds, Block.add_add]

end DoubleRatchet.Cipher
