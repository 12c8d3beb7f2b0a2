import DoubleRatchet.Cipher.Aes
import DoubleRatchet.Fault

/-!
AES-256 in cipher block chaining mode with PKCS #7 padding: texts of any length under a key of 32 bytes and
an initial vector of 16.
-/
namespace DoubleRatchet.Cipher

/-- Fills the last block with one to sixteen bytes that all give their number. -/
def pad (text : Bytes) : Bytes :=
  let n := 16 - text.length % 16
  text ++ List.replicate n n.toUInt8

/-- What was padded; nothing if the text does not end in one to sixteen bytes that all give their number. -/
def unpad? (padded : Bytes) : Option Bytes :=
  let n := (padded.getLastD 0).toNat
  let size := padded.length - n
  if 1 ≤ n ∧ n ≤ 16 ∧ padded.drop size = List.replicate n n.toUInt8 then some (padded.take size) else none

def blocks (text : Bytes) : List Block :=
  (text.pieces 16 (text.length / 16)).map Block.ofBytes

/-- Every block is added to the enciphered one before it, then enciphered. -/
def chain (encipher : Block → Block) : (before : Block) → List Block → List Block
  | _, [] => []
  | before, s :: rest =>
    let t := encipher (s.add before)
    t :: chain encipher t rest

/-- Undoes `chain`, given the inverse of its function on blocks. -/
def unchain (decipher : Block → Block) : (before : Block) → List Block → List Block
  | _, [] => []
  | before, t :: rest => (decipher t).add before :: unchain decipher t rest

def encrypt (key : FixedBytes 32) (iv : FixedBytes 16) (text : Bytes) : Bytes :=
  (chain (encryptBlock (keySchedule key)) (Block.ofBytes iv.bytes) (blocks (pad text))).flatMap Block.toBytes

/-- Whether a byte string can be a ciphertext: one or more whole blocks. -/
def WholeBlocks (ciphertext : Bytes) : Prop := ciphertext ≠ [] ∧ ciphertext.length % 16 = 0

instance (ciphertext : Bytes) : Decidable (WholeBlocks ciphertext) := inferInstanceAs (Decidable (_ ∧ _))

/-- The text of a ciphertext; nothing if it has no whole blocks or its padding is wrong. -/
def decrypt? (key : FixedBytes 32) (iv : FixedBytes 16) (ciphertext : Bytes) : Option Bytes :=
  if WholeBlocks ciphertext then
    unpad? <| (unchain (decryptBlock (keySchedule key)) (Block.ofBytes iv.bytes) (blocks ciphertext)).flatMap
      Block.toBytes
  else none

/-- A key and an initial vector of any length, if they have the lengths that the cipher takes. -/
def parameters (key iv : Bytes) : Except Fault (FixedBytes 32 × FixedBytes 16) :=
  match FixedBytes.ofBytes? 32 key, FixedBytes.ofBytes? 16 iv with
  | some key, some iv => .ok (key, iv)
  | _, _ => .error (.badCipherParameters key.length iv.length)

/-- `encrypt` with a key and an initial vector of any length. -/
def encryptBytes (key iv text : Bytes) : Except Fault Bytes := do
  let (key, iv) ← parameters key iv
  return encrypt key iv text

/-- `decrypt?` with a key and an initial vector of any length. That there are whole blocks is checked first. -/
def decryptBytes (key iv ciphertext : Bytes) : Except Fault Bytes := do
  if ¬ WholeBlocks ciphertext then throw .badCiphertext
  let (key, iv) ← parameters key iv
  match decrypt? key iv ciphertext with
  | some text => return text
  | none => throw .badCiphertext

end DoubleRatchet.Cipher
