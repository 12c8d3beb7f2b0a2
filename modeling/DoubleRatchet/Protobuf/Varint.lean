import DoubleRatchet.Bytes

/-!
Numbers below `2⁶⁴` in base 128, the lowest digit first, each digit but the last marked by its high bit. A
reader takes up to ten digits, also more than a number needs.
-/
namespace DoubleRatchet.Protobuf

/-- The digits of a number, at most `more` beyond the first. -/
def writeDigits : (more : Nat) → Nat → Bytes
  | 0, n => [n.toUInt8]
  | more + 1, n => if n < 128 then [n.toUInt8] else (n % 128 + 128).toUInt8 :: writeDigits more (n / 128)

def writeVarint (n : Nat) : Bytes := writeDigits 9 n

/-- A number of at most `left` digits, the last of which may hold one bit only if it is the tenth, and what
follows it. -/
def readDigits : (left : Nat) → Bytes → Option (Nat × Bytes)
  | 0, _ => none
  | _ + 1, [] => none
  | left + 1, digit :: rest =>
    if digit < 128 then
      if left = 0 ∧ 2 ≤ digit then none else some (digit.toNat, rest)
    else
      (readDigits left rest).map fun (n, rest) => (digit.toNat - 128 + 128 * n, rest)

/-- The number at the head of a byte string, and what follows it. -/
def readVarint (bytes : Bytes) : Option (Nat × Bytes) := readDigits 10 bytes

theorem readDigits_length {left : Nat} {bytes rest : Bytes} {n : Nat}
    (h : readDigits left bytes = some (n, rest)) : rest.length < bytes.length := by
  induction left, bytes using readDigits.induct generalizing n rest with
  | case1 => simp [readDigits] at h
  | case2 => simp [readDigits] at h
  | case3 left digit tail hd hl =>
    rw [readDigits, if_pos hd, if_pos hl] at h
    contradiction
  | case4 left digit tail hd hl =>
    rw [readDigits, if_pos hd, if_neg hl] at h
    simp only [Option.some.injEq, Prod.mk.injEq] at h
    simp [h.2]
  | case5 left digit tail hd ih =>
    rw [readDigits, if_neg hd, Option.map_eq_some_iff] at h
    obtain ⟨⟨m, r⟩, hr, he⟩ := h
    simp only [Prod.mk.injEq] at he
    have := ih hr
    simp only [List.length_cons, ← he.2]
    omega

theorem readVarint_length {bytes rest : Bytes} {n : Nat}
    (h : readVarint bytes = some (n, rest)) : rest.length < bytes.length :=
  readDigits_length h

end DoubleRatchet.Protobuf
