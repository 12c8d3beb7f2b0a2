import DoubleRatchet.Cipher.Cbc
import DoubleRatchet.Proofs.Cipher.Aes

/-! Deciphering a text undoes enciphering it: the chain of blocks, the cut into blocks, the padding. -/
namespace DoubleRatchet.Cipher

theorem unchain_chain {encipher decipher : Block → Block} (inverse : ∀ s, decipher (encipher s) = s) (before : Block)
    (texts : List Block) : unchain decipher before (chain encipher before texts) = texts := by
  induction texts generalizing before with
  | nil => rfl
  | cons s rest ih => rw [chain, unchain, inverse, Block.add_add, ih]

theorem length_chain (encipher : Block → Block) (before : Block) (texts : List Block) :
    (chain encipher before texts).length = texts.length := by
  induction texts generalizing before with
  | nil => rfl
  | cons s rest ih => rw [chain, List.length_cons, List.length_cons, ih]

/-! ## The cut into blocks -/

theorem length_blocks (text : Bytes) : (blocks text).length = text.length / 16 := by
  rw [blocks, List.length_map]
  generalize text.length / 16 = count
  induction count generalizing text with
  | zero => rfl
  | succ count ih => rw [Bytes.pieces, List.length_cons, ih]

theorem length_joined (all : List Block) : (all.flatMap Block.toBytes).length = 16 * all.length := by
  simp only [List.length_flatMap, Block.length_toBytes, List.map_const', List.sum_replicate_nat]
  omega

theorem blocks_joined (all : List Block) : blocks (all.flatMap Block.toBytes) = all := by
  have count : (all.flatMap Block.toBytes).length / 16 = all.length := by
    rw [length_joined]
    omega
  rw [blocks, count]
  induction all with
  | nil => rfl
  | cons s rest ih =>
    have tail : (rest.flatMap Block.toBytes).length / 16 = rest.length := by
      rw [length_joined]
      omega
    rw [List.length_cons, List.flatMap_cons, Bytes.pieces, List.take_left' (Block.length_toBytes s),
      List.drop_left' (Block.length_toBytes s), List.map_cons, Block.ofBytes_toBytes, ih tail]

theorem Block.toBytes_ofBytes {bytes : Bytes} (length : bytes.length = 16) : (ofBytes bytes).toBytes = bytes := by
  match bytes, length with
  | [_, _, _, _, _, _, _, _, _, _, _, _, _, _, _, _], _ => rfl

theorem joined_blocks {text : Bytes} (whole : text.length % 16 = 0) :
    (blocks text).flatMap Block.toBytes = text := by
  obtain ⟨count, size⟩ := Nat.dvd_of_mod_eq_zero whole
  have blocks_count : text.length / 16 = count := by omega
  rw [blocks, blocks_count]
  clear blocks_count whole
  induction count generalizing text with
  | zero => exact (List.length_eq_zero_iff.mp size).symm
  | succ count ih =>
    have head : (text.take 16).length = 16 := by
      rw [List.length_take]
      omega
    have tail : (text.drop 16).length = 16 * count := by
      rw [List.length_drop]
      omega
    rw [Bytes.pieces, List.map_cons, List.flatMap_cons, Block.toBytes_ofBytes head, ih tail, List.take_append_drop]

/-! ## Padding -/

theorem length_pad (text : Bytes) : (pad text).length = 16 * (text.length / 16 + 1) := by
  simp only [pad, List.length_append, List.length_replicate]
  omega

theorem unpad?_pad (text : Bytes) : unpad? (pad text) = some text := by
  have positive : 1 ≤ 16 - text.length % 16 := by omega
  have bound : 16 - text.length % 16 ≤ 16 := by omega
  unfold pad
  generalize 16 - text.length % 16 = n at positive bound
  have value : n.toUInt8.toNat = n := by
    rw [Nat.toUInt8, UInt8.toNat_ofNat']
    omega
  have last : (text ++ List.replicate n n.toUInt8).getLastD 0 = n.toUInt8 := by
    obtain ⟨m, rfl⟩ := Nat.exists_eq_add_of_le' positive
    rw [List.replicate_succ', ← List.append_assoc, List.getLastD_concat]
  have size : (text ++ List.replicate n n.toUInt8).length - n = text.length := by
    rw [List.length_append, List.length_replicate]
    omega
  rw [unpad?, last, value]
  dsimp only
  rw [size, List.drop_left, List.take_left, if_pos ⟨positive, bound, rfl⟩]

/-! ## Texts -/

theorem length_encrypt (key : FixedBytes 32) (iv : FixedBytes 16) (text : Bytes) :
    (encrypt key iv text).length = 16 * (text.length / 16 + 1) := by
  have count : (chain (encryptBlock (keySchedule key)) (Block.ofBytes iv.bytes) (blocks (pad text))).length =
      text.length / 16 + 1 := by
    rw [length_chain, length_blocks, length_pad]
    omega
  rw [encrypt, length_joined, count]

theorem decrypt?_encrypt (key : FixedBytes 32) (iv : FixedBytes 16) (text : Bytes) :
    decrypt? key iv (encrypt key iv text) = some text := by
  have whole : (pad text).length % 16 = 0 := by
    rw [length_pad]
    omega
  have size := length_encrypt key iv text
  have accepted : WholeBlocks (encrypt key iv text) := by
    refine ⟨fun empty => ?_, by omega⟩
    rw [empty, List.length_nil] at size
    omega
  rw [decrypt?, if_pos accepted, encrypt, blocks_joined,
    unchain_chain (decryptBlock_encryptBlock (keySchedule key)), joined_blocks whole, unpad?_pad]

end DoubleRatchet.Cipher
