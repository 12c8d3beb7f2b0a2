import DoubleRatchet.Bytes

/-!
Randomness as a value: an endless stream of bytes and how many of them have been drawn.
-/
namespace DoubleRatchet

/-- A stream of random bytes, read from a position on. -/
structure Entropy where
  stream : Nat → UInt8
  position : Nat := 0

namespace Entropy

def draw (n : Nat) : StateM Entropy (FixedBytes n) := fun e =>
  (⟨(List.range n).map fun i => e.stream (e.position + i), by simp⟩, { e with position := e.position + n })

/-- The next four bytes as a little-endian number. -/
def drawWord : StateM Entropy UInt32 := return (← draw 4).bytes.toNatLE.toUInt32

/-- The bytes of a string, over and over; zeros for an empty one. -/
def repeating (bytes : Bytes) : Entropy :=
  let all := bytes.toArray
  { stream := fun i => all.getD (i % all.size) 0 }

/-- Mixes the bits of a word of the SplitMix64 generator. -/
def mix (word : UInt64) : UInt64 :=
  let word := (word ^^^ (word >>> 30)) * 0xbf58476d1ce4e5b9
  let word := (word ^^^ (word >>> 27)) * 0x94d049bb133111eb
  word ^^^ (word >>> 31)

/-- The words of the SplitMix64 generator with a seed, in little-endian order of bytes. -/
def ofSeed (seed : UInt64) : Entropy where
  stream i :=
    let word := mix (seed + 0x9e3779b97f4a7c15 * (i / 8 + 1).toUInt64)
    (word >>> (8 * (i % 8)).toUInt64).toUInt8

end Entropy

end DoubleRatchet
