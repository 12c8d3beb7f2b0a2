import DoubleRatchet.Hash.Sha2

/-!
Keyed hashing with SHA-256 (`hmac`) and the derivation of key material of any length from it (`hkdf`).
-/
namespace DoubleRatchet.Hash

/-- A key brought to the block length of the hash: a longer key is hashed first, a shorter one is filled with
zeros. -/
def blockKey (key : Bytes) : Bytes :=
  let short := if key.length ≤ 64 then key else (sha256 key).bytes
  short ++ List.replicate (64 - short.length) 0

/-- HMAC-SHA256; a key of any length will do. -/
def hmac (key message : Bytes) : FixedBytes 32 :=
  let key := blockKey key
  sha256 (key.map (· ^^^ 0x5c) ++ (sha256 (key.map (· ^^^ 0x36) ++ message)).bytes)

namespace Hkdf

/-- Concentrates input key material into a key of 32 bytes; without a salt, under 32 zeros. -/
def extract (salt : Option Bytes) (material : Bytes) : FixedBytes 32 :=
  hmac (salt.getD (List.replicate 32 0)) material

/-- The output blocks with numbers `number`, `number + 1`, …, each bound to the one before it. -/
def blocks (key : FixedBytes 32) (info : Bytes) : (count : Nat) → (number : Nat) → (before : Bytes) → Bytes
  | 0, _, _ => []
  | count + 1, number, before =>
    let block := (hmac key.bytes (before ++ info ++ [number.toUInt8])).bytes
    block ++ blocks key info count (number + 1) block

theorem length_blocks (key : FixedBytes 32) (info : Bytes) (count number : Nat) (before : Bytes) :
    (blocks key info count number before).length = 32 * count := by
  induction count generalizing number before with
  | zero => rfl
  | succ count ih => simp [blocks, ih, FixedBytes.length_bytes]; omega

/-- The first `n` bytes of the output blocks. -/
def expand (key : FixedBytes 32) (info : Bytes) (n : Nat) : FixedBytes n :=
  ⟨(blocks key info ((n + 31) / 32) 1 []).take n, by simp [length_blocks]; omega⟩

end Hkdf

/-- HKDF-SHA256: `n` bytes of key material for the purpose named by `info`. -/
def hkdf (material : Bytes) (salt : Option Bytes) (info : Bytes) (n : Nat) : FixedBytes n :=
  Hkdf.expand (Hkdf.extract salt material) info n

end DoubleRatchet.Hash
