import DoubleRatchet.Proofs.Progress
import DoubleRatchet.Proofs.Session.Handshake

/-! How far one side of a conversation has come in reading the other, told from the headings of the messages that it
has read: where each chain stands, which messages passed over it can still read, and which chains it has. The chain of
a state is then a function of this progress. -/
namespace DoubleRatchet

/-- The progress in the chain of a ratchet key, after messages with the headings given, the latest first. -/
def progress : List (PublicKey × UInt32) → PublicKey → Progress
  | [], _ => {}
  | heading :: earlier, key =>
    if heading.1 = key then (progress earlier key).read heading.2.toNat else progress earlier key

/-- The ratchet keys that messages have been read under, the one that came up last first. -/
def chains : List (PublicKey × UInt32) → List PublicKey
  | [] => []
  | heading :: earlier => if heading.1 ∈ chains earlier then chains earlier else heading.1 :: chains earlier

theorem mem_chains {reads : List (PublicKey × UInt32)} {key : PublicKey} :
    key ∈ chains reads ↔ ∃ heading ∈ reads, heading.1 = key := by
  induction reads with
  | nil => simp [chains]
  | cons first earlier ih =>
    rw [chains]
    split
    · rename_i known
      simp only [ih, List.mem_cons, exists_eq_or_imp]
      refine ⟨.inr, ?_⟩
      rintro (rfl | found)
      · exact ih.mp known
      · exact found
    · simp only [List.mem_cons, ih, exists_eq_or_imp, @eq_comm _ key first.1]

theorem progress_sound {reads : List (PublicKey × UInt32)} (bounded : ∀ heading ∈ reads, heading.2 ≠ 0xffffffff)
    (key : PublicKey) : (progress reads key).Sound := by
  induction reads with
  | nil => exact .begun (Nat.succ_pos _)
  | cons first earlier ih =>
    have sound := ih fun heading member => bounded heading (List.mem_cons_of_mem _ member)
    rw [progress]
    split
    · exact Progress.read_sound sound (succ_toNat_lt (bounded first List.mem_cons_self))
    · exact sound

theorem progress_covers (reads : List (PublicKey × UInt32)) (key : PublicKey) : ∀ n < (progress reads key).index,
    n ∈ (progress reads key).kept ∨ n ∈ (progress reads key).lost ∨ ∃ heading ∈ reads, heading.1 = key ∧ heading.2.toNat = n := by
  induction reads with
  | nil => exact fun n lt => absurd lt (Nat.not_lt_zero n)
  | cons first earlier ih =>
    have covers : ∀ n < (progress earlier key).index, n ∈ (progress earlier key).kept ∨ n ∈ (progress earlier key).lost ∨
        ∃ heading ∈ first :: earlier, heading.1 = key ∧ heading.2.toNat = n := by
      intro n lt
      refine (ih n lt).imp_right (Or.imp_right ?_)
      rintro ⟨heading, member, found⟩
      exact ⟨heading, List.mem_cons_of_mem _ member, found⟩
    rw [progress]
    split
    · exact Progress.read_covers covers ⟨first, List.mem_cons_self, ‹_›, rfl⟩
    · exact covers

theorem progress_of_new {reads : List (PublicKey × UInt32)} {key : PublicKey} (new : key ∉ chains reads) :
    progress reads key = {} := by
  induction reads with
  | nil => rfl
  | cons first earlier ih =>
    have unread : ∀ heading ∈ first :: earlier, heading.1 ≠ key := fun heading member same =>
      new (mem_chains.mpr ⟨heading, member, same⟩)
    rw [progress, if_neg (unread first List.mem_cons_self)]
    refine ih fun known => ?_
    obtain ⟨heading, member, same⟩ := mem_chains.mp known
    exact unread heading (List.mem_cons_of_mem _ member) same

end DoubleRatchet
