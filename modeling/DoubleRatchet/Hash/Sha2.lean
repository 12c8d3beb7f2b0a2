import DoubleRatchet.Bytes

/-!
The SHA-2 family over words of 32 bits (`sha256`) and of 64 bits (`sha512`). Both run the same
compression; a word type says how long it is, which mixing functions it has and which constants.
-/
namespace DoubleRatchet.Hash

/-- What the compression needs of a word type `W`. -/
class Word (W : Type) extends Add W, AndOp W, XorOp W, Complement W, Inhabited W where
  /-- How many bytes a word has. -/
  size : Nat
  ofBytes : Bytes → W
  toBytes : W → Bytes
  length_toBytes : ∀ w, (toBytes w).length = size
  /-- Mixes of one word: in a round, of its words `a` and `e`; in the schedule, of an old and of a recent word. -/
  mixA : W → W
  mixE : W → W
  mixOld : W → W
  mixRecent : W → W
  /-- One constant a round. -/
  constants : Array W

namespace Sha2

/-- The eight words that a message is compressed into. -/
structure Digest (W : Type) where
  (a b c d e f g h : W)

variable {W : Type} [Word W]

namespace Digest

def toBytes (s : Digest W) : Bytes :=
  Word.toBytes s.a ++ Word.toBytes s.b ++ Word.toBytes s.c ++ Word.toBytes s.d ++
    Word.toBytes s.e ++ Word.toBytes s.f ++ Word.toBytes s.g ++ Word.toBytes s.h

theorem length_toBytes (s : Digest W) : s.toBytes.length = 8 * Word.size W := by
  simp [toBytes, Word.length_toBytes]; omega

@[inline] def add (s t : Digest W) : Digest W :=
  ⟨s.a + t.a, s.b + t.b, s.c + t.c, s.d + t.d, s.e + t.e, s.f + t.f, s.g + t.g, s.h + t.h⟩

/-- One round with its constant and its word of the schedule. -/
@[inline] def round (s : Digest W) (constant word : W) : Digest W :=
  let choice := (s.e &&& s.f) ^^^ (~~~ s.e &&& s.g)
  let majority := (s.a &&& s.b) ^^^ (s.a &&& s.c) ^^^ (s.b &&& s.c)
  let fresh := s.h + Word.mixE s.e + choice + constant + word
  ⟨fresh + Word.mixA s.a + majority, s.a, s.b, s.c, s.d + fresh, s.e, s.f, s.g⟩

end Digest

/-- The sixteen words of a block, continued to one word a round. -/
@[specialize] def schedule (block : Array W) : Array W :=
  ((Word.constants (W := W)).size - 16).fold (fun i _ ws =>
    ws.push (Word.mixRecent ws[i + 14]! + ws[i + 9]! + Word.mixOld ws[i + 1]! + ws[i]!)) block

/-- Mixes a block of sixteen words into a digest. -/
@[specialize] def compress (s : Digest W) (block : Bytes) : Digest W :=
  let words := schedule ((block.pieces (Word.size W) 16).map Word.ofBytes).toArray
  s.add <| (Word.constants (W := W)).size.fold (fun i _ s => s.round (Word.constants[i]!) words[i]!) s

/-- A message followed by a one bit, zeros, and its length in bits as a number of two words, to a multiple
of sixteen words. -/
def pad (wordSize : Nat) (message : Bytes) : Bytes :=
  let block := 16 * wordSize
  let zeros := (2 * block - 1 - 2 * wordSize - message.length % block) % block
  message ++ 0x80 :: List.replicate zeros 0 ++ Bytes.ofNatBE (2 * wordSize) (8 * message.length)

/-- The digest of a message, from the initial words of the variant. -/
@[specialize] def digest (initial : Digest W) (message : Bytes) : Digest W :=
  let padded := pad (Word.size W) message
  let block := 16 * Word.size W
  (padded.pieces block (padded.length / block)).foldl compress initial

end Sha2

open Sha2

/-- A word with its bits turned right by `n`. -/
@[inline] def rotate32 (x n : UInt32) : UInt32 := (x >>> n) ||| (x <<< (32 - n))

/-- A word with its bits turned right by `n`. -/
@[inline] def rotate64 (x n : UInt64) : UInt64 := (x >>> n) ||| (x <<< (64 - n))

/-- The first 32 bits of the fractional parts of the cube roots of the first 64 primes. -/
def constants32 : Array UInt32 := #[
  0x428a2f98, 0x71374491, 0xb5c0fbcf, 0xe9b5dba5, 0x3956c25b, 0x59f111f1, 0x923f82a4, 0xab1c5ed5,
  0xd807aa98, 0x12835b01, 0x243185be, 0x550c7dc3, 0x72be5d74, 0x80deb1fe, 0x9bdc06a7, 0xc19bf174,
  0xe49b69c1, 0xefbe4786, 0x0fc19dc6, 0x240ca1cc, 0x2de92c6f, 0x4a7484aa, 0x5cb0a9dc, 0x76f988da,
  0x983e5152, 0xa831c66d, 0xb00327c8, 0xbf597fc7, 0xc6e00bf3, 0xd5a79147, 0x06ca6351, 0x14292967,
  0x27b70a85, 0x2e1b2138, 0x4d2c6dfc, 0x53380d13, 0x650a7354, 0x766a0abb, 0x81c2c92e, 0x92722c85,
  0xa2bfe8a1, 0xa81a664b, 0xc24b8b70, 0xc76c51a3, 0xd192e819, 0xd6990624, 0xf40e3585, 0x106aa070,
  0x19a4c116, 0x1e376c08, 0x2748774c, 0x34b0bcb5, 0x391c0cb3, 0x4ed8aa4a, 0x5b9cca4f, 0x682e6ff3,
  0x748f82ee, 0x78a5636f, 0x84c87814, 0x8cc70208, 0x90befffa, 0xa4506ceb, 0xbef9a3f7, 0xc67178f2]

instance : Word UInt32 where
  size := 4
  ofBytes bytes := bytes.foldl (fun w b => (w <<< 8) ||| b.toUInt32) 0
  toBytes w := [(w >>> 24).toUInt8, (w >>> 16).toUInt8, (w >>> 8).toUInt8, w.toUInt8]
  length_toBytes _ := rfl
  mixA x := rotate32 x 2 ^^^ rotate32 x 13 ^^^ rotate32 x 22
  mixE x := rotate32 x 6 ^^^ rotate32 x 11 ^^^ rotate32 x 25
  mixOld x := rotate32 x 7 ^^^ rotate32 x 18 ^^^ (x >>> 3)
  mixRecent x := rotate32 x 17 ^^^ rotate32 x 19 ^^^ (x >>> 10)
  constants := constants32

/-- The first 32 bits of the fractional parts of the square roots of the first eight primes. -/
def initial32 : Digest UInt32 :=
  ⟨0x6a09e667, 0xbb67ae85, 0x3c6ef372, 0xa54ff53a, 0x510e527f, 0x9b05688c, 0x1f83d9ab, 0x5be0cd19⟩

/-- The first 64 bits of the fractional parts of the cube roots of the first 80 primes. -/
def constants64 : Array UInt64 := #[
  0x428a2f98d728ae22, 0x7137449123ef65cd, 0xb5c0fbcfec4d3b2f, 0xe9b5dba58189dbbc,
  0x3956c25bf348b538, 0x59f111f1b605d019, 0x923f82a4af194f9b, 0xab1c5ed5da6d8118,
  0xd807aa98a3030242, 0x12835b0145706fbe, 0x243185be4ee4b28c, 0x550c7dc3d5ffb4e2,
  0x72be5d74f27b896f, 0x80deb1fe3b1696b1, 0x9bdc06a725c71235, 0xc19bf174cf692694,
  0xe49b69c19ef14ad2, 0xefbe4786384f25e3, 0x0fc19dc68b8cd5b5, 0x240ca1cc77ac9c65,
  0x2de92c6f592b0275, 0x4a7484aa6ea6e483, 0x5cb0a9dcbd41fbd4, 0x76f988da831153b5,
  0x983e5152ee66dfab, 0xa831c66d2db43210, 0xb00327c898fb213f, 0xbf597fc7beef0ee4,
  0xc6e00bf33da88fc2, 0xd5a79147930aa725, 0x06ca6351e003826f, 0x142929670a0e6e70,
  0x27b70a8546d22ffc, 0x2e1b21385c26c926, 0x4d2c6dfc5ac42aed, 0x53380d139d95b3df,
  0x650a73548baf63de, 0x766a0abb3c77b2a8, 0x81c2c92e47edaee6, 0x92722c851482353b,
  0xa2bfe8a14cf10364, 0xa81a664bbc423001, 0xc24b8b70d0f89791, 0xc76c51a30654be30,
  0xd192e819d6ef5218, 0xd69906245565a910, 0xf40e35855771202a, 0x106aa07032bbd1b8,
  0x19a4c116b8d2d0c8, 0x1e376c085141ab53, 0x2748774cdf8eeb99, 0x34b0bcb5e19b48a8,
  0x391c0cb3c5c95a63, 0x4ed8aa4ae3418acb, 0x5b9cca4f7763e373, 0x682e6ff3d6b2b8a3,
  0x748f82ee5defb2fc, 0x78a5636f43172f60, 0x84c87814a1f0ab72, 0x8cc702081a6439ec,
  0x90befffa23631e28, 0xa4506cebde82bde9, 0xbef9a3f7b2c67915, 0xc67178f2e372532b,
  0xca273eceea26619c, 0xd186b8c721c0c207, 0xeada7dd6cde0eb1e, 0xf57d4f7fee6ed178,
  0x06f067aa72176fba, 0x0a637dc5a2c898a6, 0x113f9804bef90dae, 0x1b710b35131c471b,
  0x28db77f523047d84, 0x32caab7b40c72493, 0x3c9ebe0a15c9bebc, 0x431d67c49c100d4c,
  0x4cc5d4becb3e42b6, 0x597f299cfc657e2a, 0x5fcb6fab3ad6faec, 0x6c44198c4a475817]

instance : Word UInt64 where
  size := 8
  ofBytes bytes := bytes.foldl (fun w b => (w <<< 8) ||| b.toUInt64) 0
  toBytes w := [(w >>> 56).toUInt8, (w >>> 48).toUInt8, (w >>> 40).toUInt8, (w >>> 32).toUInt8,
    (w >>> 24).toUInt8, (w >>> 16).toUInt8, (w >>> 8).toUInt8, w.toUInt8]
  length_toBytes _ := rfl
  mixA x := rotate64 x 28 ^^^ rotate64 x 34 ^^^ rotate64 x 39
  mixE x := rotate64 x 14 ^^^ rotate64 x 18 ^^^ rotate64 x 41
  mixOld x := rotate64 x 1 ^^^ rotate64 x 8 ^^^ (x >>> 7)
  mixRecent x := rotate64 x 19 ^^^ rotate64 x 61 ^^^ (x >>> 6)
  constants := constants64

/-- The first 64 bits of the fractional parts of the square roots of the first eight primes. -/
def initial64 : Digest UInt64 :=
  ⟨0x6a09e667f3bcc908, 0xbb67ae8584caa73b, 0x3c6ef372fe94f82b, 0xa54ff53a5f1d36f1,
    0x510e527fade682d1, 0x9b05688c2b3e6c1f, 0x1f83d9abfb41bd6b, 0x5be0cd19137e2179⟩

def sha256 (message : Bytes) : FixedBytes 32 :=
  ⟨(digest initial32 message).toBytes, Digest.length_toBytes _⟩

def sha512 (message : Bytes) : FixedBytes 64 :=
  ⟨(digest initial64 message).toBytes, Digest.length_toBytes _⟩

end DoubleRatchet.Hash
