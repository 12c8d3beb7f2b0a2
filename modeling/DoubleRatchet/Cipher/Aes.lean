import DoubleRatchet.Bytes

/-!
The AES-256 block cipher. A block is four columns of four bytes; a round substitutes every byte, shifts the
rows, mixes the columns and adds a round key. `decryptBlock` undoes the rounds one by one.
-/
namespace DoubleRatchet.Cipher

/-! ## The field of 256 elements -/

namespace Gf

/-- A polynomial over two elements times `x`, modulo `x⁸ + x⁴ + x³ + x + 1`. -/
def double (a : UInt8) : UInt8 := (a <<< 1) ^^^ (if a ≥ 0x80 then 0x1b else 0)

/-- The product of two polynomials, one coefficient of `b` at a time. -/
def mul (a b : UInt8) : UInt8 :=
  (List.range 8).foldl (fun sum i => double sum ^^^ (if b.toNat.testBit (7 - i) then a else 0)) 0

def square (a : UInt8) : UInt8 := mul a a

/-- `a ^ 254`, which is the inverse of `a`, and zero for zero. -/
def inverse (a : UInt8) : UInt8 :=
  let a2 := square a
  let a4 := square a2
  let a8 := square a4
  let a16 := square a8
  let a32 := square a16
  let a64 := square a32
  mul (square a64) (mul a64 (mul a32 (mul a16 (mul a8 (mul a4 a2)))))

end Gf

/-- A byte with its bits turned left by `n`. -/
def rotateByte (a n : UInt8) : UInt8 := (a <<< n) ||| (a >>> (8 - n))

/-- The substitution of a byte: its inverse, under an affine map. -/
def substitute (a : UInt8) : UInt8 :=
  let b := Gf.inverse a
  b ^^^ rotateByte b 1 ^^^ rotateByte b 2 ^^^ rotateByte b 3 ^^^ rotateByte b 4 ^^^ 0x63

def unsubstitute (a : UInt8) : UInt8 :=
  Gf.inverse (rotateByte a 1 ^^^ rotateByte a 3 ^^^ rotateByte a 6 ^^^ 0x05)

/-- The values of a function on bytes, in order. -/
def table (f : UInt8 → UInt8) : Array UInt8 := Array.ofFn fun i : Fin 256 => f i.val.toUInt8

def substitutions : Array UInt8 := table substitute
def unsubstitutions : Array UInt8 := table unsubstitute

def sub (a : UInt8) : UInt8 := substitutions.getD a.toNat 0

def unsub (a : UInt8) : UInt8 := unsubstitutions.getD a.toNat 0

/-! ## Columns and blocks -/

/-- Four bytes. -/
structure Column where
  (a b c d : UInt8)
  deriving DecidableEq

namespace Column

def map (f : UInt8 → UInt8) (s : Column) : Column := ⟨f s.a, f s.b, f s.c, f s.d⟩

def add (s t : Column) : Column := ⟨s.a ^^^ t.a, s.b ^^^ t.b, s.c ^^^ t.c, s.d ^^^ t.d⟩

/-- The column whose first byte is `2·a + 3·b + c + d`, and the others likewise in turn. -/
def mix (s : Column) : Column :=
  let all := s.a ^^^ s.b ^^^ s.c ^^^ s.d
  ⟨s.a ^^^ all ^^^ Gf.double (s.a ^^^ s.b), s.b ^^^ all ^^^ Gf.double (s.b ^^^ s.c),
    s.c ^^^ all ^^^ Gf.double (s.c ^^^ s.d), s.d ^^^ all ^^^ Gf.double (s.d ^^^ s.a)⟩

/-- Undoes `mix`: adding four times `a + c` and `b + d` first makes `mix` its own inverse. -/
def unmix (s : Column) : Column :=
  let u := Gf.double (Gf.double (s.a ^^^ s.c))
  let v := Gf.double (Gf.double (s.b ^^^ s.d))
  mix ⟨s.a ^^^ u, s.b ^^^ v, s.c ^^^ u, s.d ^^^ v⟩

def rotate (s : Column) : Column := ⟨s.b, s.c, s.d, s.a⟩

end Column

/-- Sixteen bytes as four columns. -/
structure Block where
  (w x y z : Column)
  deriving DecidableEq

namespace Block

def map (f : Column → Column) (s : Block) : Block := ⟨f s.w, f s.x, f s.y, f s.z⟩

def add (s t : Block) : Block := ⟨s.w.add t.w, s.x.add t.x, s.y.add t.y, s.z.add t.z⟩

def shiftRows (s : Block) : Block :=
  ⟨⟨s.w.a, s.x.b, s.y.c, s.z.d⟩, ⟨s.x.a, s.y.b, s.z.c, s.w.d⟩,
    ⟨s.y.a, s.z.b, s.w.c, s.x.d⟩, ⟨s.z.a, s.w.b, s.x.c, s.y.d⟩⟩

def unshiftRows (s : Block) : Block :=
  ⟨⟨s.w.a, s.z.b, s.y.c, s.x.d⟩, ⟨s.x.a, s.w.b, s.z.c, s.y.d⟩,
    ⟨s.y.a, s.x.b, s.w.c, s.z.d⟩, ⟨s.z.a, s.y.b, s.x.c, s.w.d⟩⟩

def toBytes (s : Block) : Bytes :=
  [s.w.a, s.w.b, s.w.c, s.w.d, s.x.a, s.x.b, s.x.c, s.x.d,
    s.y.a, s.y.b, s.y.c, s.y.d, s.z.a, s.z.b, s.z.c, s.z.d]

/-- The block of the first sixteen bytes; zeros stand for bytes that are missing. -/
def ofBytes (bytes : Bytes) : Block :=
  let byte (i : Nat) := bytes.getD i 0
  ⟨⟨byte 0, byte 1, byte 2, byte 3⟩, ⟨byte 4, byte 5, byte 6, byte 7⟩,
    ⟨byte 8, byte 9, byte 10, byte 11⟩, ⟨byte 12, byte 13, byte 14, byte 15⟩⟩

@[simp] theorem ofBytes_toBytes (s : Block) : ofBytes s.toBytes = s := rfl

@[simp] theorem length_toBytes (s : Block) : s.toBytes.length = 16 := rfl

end Block

/-! ## Rounds -/

/-- Each column of `s` plus all before it and `c`. -/
def chainColumns (c : Column) (s : Block) : Block :=
  let w := s.w.add c
  let x := s.x.add w
  let y := s.y.add x
  ⟨w, x, y, s.z.add y⟩

/-- The keys of the rounds, two at a time from the two before them, and one more. -/
def roundKeys : (pairs : Nat) → (constant : UInt8) → Block → Block → List Block
  | 0, _, s, _ => [s]
  | pairs + 1, constant, s, t =>
    let s' := chainColumns ((t.z.rotate.map sub).add ⟨constant, 0, 0, 0⟩) s
    let t' := chainColumns (s'.z.map sub) t
    s :: t :: roundKeys pairs (Gf.double constant) s' t'

/-- The rounds with the given keys; the last one mixes no columns. -/
def rounds : List Block → Block → Block
  | [], s => s
  | [key], s => ((s.map (·.map sub)).shiftRows).add key
  | key :: keys, s => rounds keys ((((s.map (·.map sub)).shiftRows).map Column.mix).add key)

/-- Undoes `rounds`, the last key first. -/
def unrounds : List Block → Block → Block
  | [], s => s
  | [key], s => ((s.add key).unshiftRows).map (·.map unsub)
  | key :: keys, s => ((((unrounds keys s).add key).map Column.unmix).unshiftRows).map (·.map unsub)

/-- The fifteen keys that AES-256 derives from its key: one added before the rounds and fourteen in them. -/
def keySchedule (key : FixedBytes 32) : List Block :=
  roundKeys 7 1 (Block.ofBytes key.bytes) (Block.ofBytes (key.bytes.drop 16))

def encryptBlock : List Block → Block → Block
  | [], s => s
  | key :: keys, s => rounds keys (s.add key)

def decryptBlock : List Block → Block → Block
  | [], s => s
  | key :: keys, s => (unrounds keys s).add key

end DoubleRatchet.Cipher
