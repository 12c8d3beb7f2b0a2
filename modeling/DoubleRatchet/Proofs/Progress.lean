import DoubleRatchet.Window

/-! How far the reader of a chain has come: where it stands, which of the messages that it has passed over it can still
read, and which it has had to give up. -/
namespace DoubleRatchet

theorem find?_of_unique {A : Type} {p : A → Bool} {entries : List A} {a : A} (member : a ∈ entries) (holds : p a)
    (unique : ∀ b ∈ entries, p b → b = a) : entries.find? p = some a := by
  cases found : entries.find? p with
  | none => exact absurd holds (List.find?_eq_none.mp found a member)
  | some b => rw [unique b (List.mem_of_find?_eq_some found) (List.find?_some found)]

theorem ofNat_lt_iff {m n : Nat} (m_bound : m < UInt32.size) (n_bound : n < UInt32.size) :
    UInt32.ofNat m < UInt32.ofNat n ↔ m < n := by
  rw [UInt32.lt_iff_toNat_lt, UInt32.toNat_ofNat_of_lt' m_bound, UInt32.toNat_ofNat_of_lt' n_bound]

theorem ofNat_eq_iff {m n : Nat} (m_bound : m < UInt32.size) (n_bound : n < UInt32.size) :
    UInt32.ofNat m = UInt32.ofNat n ↔ m = n := by
  rw [← UInt32.toNat_inj, UInt32.toNat_ofNat_of_lt' m_bound, UInt32.toNat_ofNat_of_lt' n_bound]

theorem ofNat_toNat_succ (n : UInt32) : .ofNat (n.toNat + 1) = n + 1 := by
  rw [UInt32.ofNat_add, UInt32.ofNat_toNat]
  rfl

/-- Only the last number of all has none after it. -/
theorem succ_toNat_lt {n : UInt32} (bounded : n ≠ 0xffffffff) : n.toNat + 1 < UInt32.size :=
  Nat.lt_of_le_of_ne n.toNat_lt_size fun last => bounded (UInt32.toNat_inj.mp (Nat.succ.inj last))

/-- How far the reader of a chain has come: the number of the message after the last it has passed, the numbers of the
messages passed over whose keys it keeps, and those whose keys it has had to give up. -/
structure Progress where
  index : Nat := 0
  kept : List Nat := []
  lost : List Nat := []

namespace Progress

/-- The messages that have been passed over once message `n` is read, but for those whose keys are lost or used. -/
def waiting (progress : Progress) (n : Nat) : List Nat :=
  progress.kept ++ List.range' progress.index (n - progress.index)

def limit : Nat := 2000

/-- How many of the messages passed over are given up, the oldest first. -/
def excess (progress : Progress) (n : Nat) : Nat := (progress.waiting n).length - limit

def read (progress : Progress) (n : Nat) : Progress :=
  if n < progress.index then { progress with kept := progress.kept.erase n }
  else {
    index := n + 1
    kept := (progress.waiting n).drop (progress.excess n)
    lost := progress.lost ++ (progress.waiting n).take (progress.excess n) }

variable {progress : Progress} {n : Nat}

/-- What holds of the progress in a chain whose messages can be numbered. -/
structure Bounded (progress : Progress) : Prop where
  index : progress.index < UInt32.size
  numbered : ∀ n ∈ progress.kept, n < UInt32.size
  few : progress.kept.length ≤ limit

/-- What is kept is of messages that have been passed over. -/
structure Sound (progress : Progress) : Prop extends progress.Bounded where
  behind : ∀ n ∈ progress.kept, n < progress.index

theorem Bounded.index_toNat (bounded : progress.Bounded) : (UInt32.ofNat progress.index).toNat = progress.index :=
  UInt32.toNat_ofNat_of_lt' bounded.index

theorem Bounded.lt_index_iff (bounded : progress.Bounded) (n : UInt32) :
    n < .ofNat progress.index ↔ n.toNat < progress.index := by
  rw [UInt32.lt_iff_toNat_lt, bounded.index_toNat]

theorem Bounded.index_le_iff (bounded : progress.Bounded) (n : UInt32) :
    .ofNat progress.index ≤ n ↔ progress.index ≤ n.toNat := by
  rw [UInt32.le_iff_toNat_le, bounded.index_toNat]

theorem Sound.of_behind (index : progress.index < UInt32.size) (behind : ∀ n ∈ progress.kept, n < progress.index)
    (few : progress.kept.length ≤ limit) : progress.Sound :=
  ⟨⟨index, fun n member => Nat.lt_trans (behind n member) index, few⟩, behind⟩

theorem Sound.begun (bound : n < UInt32.size) : ({ index := n } : Progress).Sound := .of_behind bound nofun (Nat.zero_le _)

theorem read_of_behind (behind : n < progress.index) :
    progress.read n = { progress with kept := progress.kept.erase n } := if_pos behind

theorem index_le_read : progress.index ≤ (progress.read n).index := by
  by_cases behind : n < progress.index
  · exact Nat.le_of_eq (congrArg Progress.index (read_of_behind behind)).symm
  · rw [read, if_neg behind]
    exact Nat.le_succ_of_le (Nat.le_of_not_lt behind)

theorem read_index_of_ahead (ahead : ¬ n < progress.index) : (progress.read n).index = n + 1 := by
  rw [read, if_neg ahead]

theorem read_kept_of_ahead (ahead : ¬ n < progress.index) :
    (progress.read n).kept = (progress.waiting n).drop (progress.excess n) := by
  rw [read, if_neg ahead]

theorem read_lost_of_ahead (ahead : ¬ n < progress.index) :
    (progress.read n).lost = progress.lost ++ (progress.waiting n).take (progress.excess n) := by
  rw [read, if_neg ahead]

theorem mem_waiting {m : Nat} (ahead : ¬ n < progress.index) :
    m ∈ progress.waiting n ↔ m ∈ progress.kept ∨ progress.index ≤ m ∧ m < n := by
  rw [waiting, List.mem_append, List.mem_range'_1, Nat.add_sub_cancel' (Nat.le_of_not_lt ahead)]

/-- What is kept stays within the numbers of messages and the limit, whether or not the last message is passed. -/
theorem Bounded.read_kept (bounded : progress.Bounded) (bound : n < UInt32.size) :
    (∀ m ∈ (progress.read n).kept, m < UInt32.size) ∧ (progress.read n).kept.length ≤ limit := by
  by_cases behind : n < progress.index
  · rw [read_of_behind behind]
    exact ⟨fun m member => bounded.numbered m (List.mem_of_mem_erase member),
      Nat.le_trans List.length_erase_le bounded.few⟩
  · rw [read_kept_of_ahead behind]
    refine ⟨fun m member => ?_, ?_⟩
    · rcases (mem_waiting behind).mp (List.mem_of_mem_drop member) with old | ⟨_, passed⟩
      · exact bounded.numbered m old
      · exact Nat.lt_trans passed bound
    · rw [List.length_drop, excess]
      omega

theorem Bounded.read (bounded : progress.Bounded) (bound : n + 1 < UInt32.size) : (progress.read n).Bounded := by
  obtain ⟨numbered, few⟩ := bounded.read_kept (Nat.lt_of_succ_lt bound)
  refine ⟨?_, numbered, few⟩
  by_cases behind : n < progress.index
  · rw [read_of_behind behind]
    exact bounded.index
  · rw [read_index_of_ahead behind]
    exact bound

theorem read_sound (sound : progress.Sound) (bound : n + 1 < UInt32.size) : (progress.read n).Sound := by
  refine ⟨sound.toBounded.read bound, fun m member => ?_⟩
  by_cases behind : n < progress.index
  · rw [read_of_behind behind] at member ⊢
    exact sound.behind m (List.mem_of_mem_erase member)
  · rw [read_kept_of_ahead behind] at member
    rw [read_index_of_ahead behind]
    rcases (mem_waiting behind).mp (List.mem_of_mem_drop member) with old | ⟨_, passed⟩
    · exact Nat.lt_succ_of_lt (Nat.lt_of_lt_of_le (sound.behind m old) (Nat.le_of_not_lt behind))
    · exact Nat.lt_succ_of_lt passed

/-- If each message that is behind has been read, or its key is kept, or lost, so it is after one more. -/
theorem read_covers {P : Nat → Prop}
    (covers : ∀ m < progress.index, m ∈ progress.kept ∨ m ∈ progress.lost ∨ P m) (now : P n) :
    ∀ m < (progress.read n).index, m ∈ (progress.read n).kept ∨ m ∈ (progress.read n).lost ∨ P m := by
  intro m lt
  by_cases same : m = n
  · exact .inr (.inr (same ▸ now))
  by_cases behind : n < progress.index
  · rw [read_of_behind behind] at lt ⊢
    rcases covers m lt with kept | rest
    · exact .inl ((List.mem_erase_of_ne same).mpr kept)
    · exact .inr rest
  · rw [read_index_of_ahead behind] at lt
    rw [read_kept_of_ahead behind, read_lost_of_ahead behind]
    have waits : m ∈ progress.waiting n ∨ m ∈ progress.lost ∨ P m := by
      rw [mem_waiting behind]
      by_cases old : m < progress.index
      · rcases covers m old with kept | rest
        · exact .inl (.inl kept)
        · exact .inr rest
      · exact .inl (.inr ⟨Nat.le_of_not_lt old, Nat.lt_of_le_of_ne (Nat.le_of_lt_succ lt) same⟩)
    rcases waits with waits | lost | read
    · rw [← List.take_append_drop (progress.excess n) (progress.waiting n)] at waits
      rcases List.mem_append.mp waits with lost | kept
      · exact .inr (.inl (List.mem_append_right _ lost))
      · exact .inl kept
    · exact .inr (.inl (List.mem_append_left _ lost))
    · exact .inr (.inr read)

/-! ## Used keys

The key of a message that has been read is kept no longer, and no later message brings it back. -/

/-- The messages whose keys are kept are in the order of their numbers, so that none is kept twice. -/
def Rising (progress : Progress) : Prop := progress.kept.Pairwise (· < ·)

/-- The message is behind, and its key is not kept: it was used, given up, or never there. -/
def Spent (progress : Progress) (n : Nat) : Prop := n < progress.index ∧ n ∉ progress.kept

theorem Rising.read (rising : progress.Rising) (sound : progress.Sound) (n : Nat) : (progress.read n).Rising := by
  unfold Rising
  by_cases behind : n < progress.index
  · rw [read_of_behind behind]
    exact rising.sublist List.erase_sublist
  · rw [read_kept_of_ahead behind]
    refine List.Pairwise.sublist (List.drop_sublist _ _) (List.pairwise_append.mpr ⟨rising, ?_, ?_⟩)
    · exact List.pairwise_lt_range'
    · intro m kept k passed
      exact Nat.lt_of_lt_of_le (sound.behind m kept) (List.mem_range'_1.mp passed).1

theorem Rising.spent_read (rising : progress.Rising) (sound : progress.Sound) (n : Nat) : (progress.read n).Spent n := by
  by_cases behind : n < progress.index
  · rw [read_of_behind behind]
    have distinct : progress.kept.Nodup := rising.imp Nat.ne_of_lt
    exact ⟨behind, fun kept => (distinct.mem_erase_iff.mp kept).1 rfl⟩
  · refine ⟨read_index_of_ahead behind ▸ Nat.lt_succ_self n, fun kept => ?_⟩
    rw [read_kept_of_ahead behind] at kept
    rcases (mem_waiting behind).mp (List.mem_of_mem_drop kept) with old | ⟨_, passed⟩
    · exact behind (sound.behind n old)
    · exact Nat.lt_irrefl n passed

theorem Spent.read (spent : progress.Spent n) (m : Nat) : (progress.read m).Spent n := by
  refine ⟨Nat.lt_of_lt_of_le spent.1 index_le_read, fun kept => ?_⟩
  by_cases behind : m < progress.index
  · rw [read_of_behind behind] at kept
    exact spent.2 (List.mem_of_mem_erase kept)
  · rw [read_kept_of_ahead behind] at kept
    rcases (mem_waiting behind).mp (List.mem_of_mem_drop kept) with old | ⟨reached, _⟩
    · exact spent.2 old
    · exact Nat.not_lt_of_le reached spent.1

/-! ## Entries kept for the messages passed over

Whatever is kept of a message, its number tells it from the others, and the list of what is kept follows the progress. -/

section Numbered

variable {A : Type} (entry : Nat → A) (number : A → UInt32) (numbered : ∀ m, number (entry m) = .ofNat m)

include numbered

theorem Bounded.find_kept (bounded : progress.Bounded) (kept : n ∈ progress.kept) :
    (progress.kept.map entry).find? (fun a => number a == .ofNat n) = some (entry n) := by
  refine find?_of_unique (List.mem_map_of_mem kept) (beq_iff_eq.mpr (numbered n)) ?_
  intro other member same
  obtain ⟨m, m_kept, rfl⟩ := List.mem_map.mp member
  have numbers : UInt32.ofNat m = UInt32.ofNat n := (numbered m).symm.trans (beq_iff_eq.mp same)
  rw [(ofNat_eq_iff (bounded.numbered m m_kept) (bounded.numbered n kept)).mp numbers]

theorem Bounded.find_spent (bounded : progress.Bounded) (spent : progress.Spent n) :
    (progress.kept.map entry).find? (fun a => number a == .ofNat n) = none := by
  rw [List.find?_eq_none]
  intro other member same
  obtain ⟨m, kept, rfl⟩ := List.mem_map.mp member
  have numbers : UInt32.ofNat m = UInt32.ofNat n := (numbered m).symm.trans (beq_iff_eq.mp same)
  exact spent.2 ((ofNat_eq_iff (bounded.numbered m kept) (Nat.lt_trans spent.1 bounded.index)).mp numbers ▸ kept)

theorem erase_kept {kept : List Nat} (bounded : ∀ m ∈ kept, m < UInt32.size) (bound : n < UInt32.size) :
    (kept.map entry).eraseP (fun a => number a == .ofNat n) = (kept.erase n).map entry := by
  induction kept with
  | nil => rfl
  | cons m rest ih =>
    by_cases same : m = n
    · rw [List.map_cons, List.eraseP_cons_of_pos (by rw [numbered, same, beq_self_eq_true]), same, List.erase_cons_head]
    · have other : ¬ UInt32.ofNat m = UInt32.ofNat n := mt (ofNat_eq_iff (bounded m List.mem_cons_self) bound).mp same
      rw [List.map_cons, List.eraseP_cons_of_neg (by rw [numbered, beq_iff_eq]; exact other),
        ih fun m member => bounded m (List.mem_cons_of_mem _ member), List.erase_cons_tail (by simpa using same),
        List.map_cons]

end Numbered

/-- The entries of the messages passed over push out as many as there are beyond the limit. -/
theorem Bounded.append_waiting {A : Type} (bounded : progress.Bounded) (entry : Nat → A) (ahead : ¬ n < progress.index) :
    Window.append limit (progress.kept.map entry) ((List.range' progress.index (n - progress.index)).map entry) =
      (progress.read n).kept.map entry := by
  have surplus : min (n - progress.index) (progress.kept.length + (n - progress.index) - limit) = progress.excess n := by
    have few := bounded.few
    rw [excess, waiting, List.length_append, List.length_range']
    omega
  rw [Window.append, read_kept_of_ahead ahead, ← List.map_append, List.map_drop]
  simp only [List.length_map, List.length_range', surplus, waiting]

/-- The number of steps to a message, as a machine number. -/
theorem Bounded.steps_toNat (bounded : progress.Bounded) (bound : n < UInt32.size) (ahead : progress.index ≤ n) :
    (UInt32.ofNat n - UInt32.ofNat progress.index).toNat = n - progress.index := by
  have le : UInt32.ofNat progress.index ≤ UInt32.ofNat n := by
    rw [UInt32.le_iff_toNat_le, UInt32.toNat_ofNat_of_lt' bounded.index, UInt32.toNat_ofNat_of_lt' bound]
    exact ahead
  rw [UInt32.toNat_sub_of_le _ _ le, UInt32.toNat_ofNat_of_lt' bounded.index, UInt32.toNat_ofNat_of_lt' bound]

end Progress

end DoubleRatchet
