/-!
Lists of bounded length that grow at one end and lose their oldest entries at the other.
-/
namespace DoubleRatchet.Window

variable {A : Type}

/-- The entries of `old` followed by those of `fresh`, the oldest first. Each fresh one beyond the limit pushes out
one, the oldest. -/
def append (limit : Nat) (old fresh : List A) : List A :=
  (old ++ fresh).drop (min fresh.length (old.length + fresh.length - limit))

/-- Whether the next entry would push out one. -/
def isFull (limit : Nat) (entries : List A) : Bool := limit ≤ entries.length

theorem length_append_le {limit : Nat} {old fresh : List A} (h : old.length ≤ limit) :
    (append limit old fresh).length ≤ limit := by
  simp only [append, List.length_drop, List.length_append]
  omega

/-- Appending in two parts is appending at once. -/
theorem append_append (limit : Nat) (old first second : List A) :
    append limit (append limit old first) second = append limit old (first ++ second) := by
  simp only [append, List.length_drop, List.length_append]
  rw [← List.drop_append_of_le_length (by rw [List.length_append]; omega), List.drop_drop, List.append_assoc]
  congr 1
  omega

/-- Appending is adding one entry after the other, each of which pushes out the oldest if there are then too many. -/
theorem append_eq_foldl (limit : Nat) (old fresh : List A) :
    append limit old fresh = fresh.foldl (fun entries a =>
      if limit < (entries ++ [a]).length then (entries ++ [a]).tail else entries ++ [a]) old := by
  induction fresh generalizing old with
  | nil => simp [append]
  | cons a rest ih =>
    rw [← List.singleton_append, ← append_append, ih, List.singleton_append, List.foldl_cons]
    congr 1
    rw [append, List.length_append, List.length_singleton]
    split
    · rw [Nat.min_eq_left (by omega), List.drop_one]
    · rw [Nat.sub_eq_zero_of_le (by omega), Nat.min_zero, List.drop_zero]

/-- Of entries with different numbers none is left with the number of the one taken out. -/
theorem number_ne_of_mem_eraseP {N : Type} [BEq N] [LawfulBEq N] {number : A → N} {entries : List A} {n : N} {kept : A}
    (distinct : (entries.map number).Nodup) (member : kept ∈ entries.eraseP (number · == n)) : number kept ≠ n := by
  have others : number kept ∈ (entries.map number).erase n := by
    rw [List.erase_eq_eraseP', List.eraseP_map]
    exact List.mem_map_of_mem member
  exact (distinct.mem_erase_iff.mp others).1

end DoubleRatchet.Window
