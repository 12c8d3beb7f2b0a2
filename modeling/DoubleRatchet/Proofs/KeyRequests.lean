import DoubleRatchet.Fault
import DoubleRatchet.Proofs.Progress
import Mathlib.Data.List.DropRight
import Mathlib.Data.List.Sort

/-! Requests in turn for the keys of messages. Each request finds what the last answered one has left. Where that is
determined by the progress of a reader, it is told from the numbers of the messages that have been asked for; and as long
as no key is given up, the order in which they were asked for leaves no trace. -/
namespace DoubleRatchet

namespace KeyRequests

variable {S K : Type} (request : S → UInt32 → Except Fault (K × S))

/-- What is gone on with after a request: where it is refused, all as it was. -/
def left (holder : S) (n : UInt32) : S :=
  match request holder n with
  | .ok (_, after) => after
  | .error _ => holder

def after (holder : S) (requests : List UInt32) : S := requests.foldl (left request) holder

/-- The requests that are answered, each by its number and with what it is answered. -/
def answers (holder : S) : List UInt32 → List (UInt32 × K)
  | [] => []
  | n :: rest =>
    let later := answers (left request holder n) rest
    match request holder n with
    | .ok (key, _) => (n, key) :: later
    | .error _ => later

/-- The numbers of the messages whose keys have been served. -/
def served (holder : S) (requests : List UInt32) : List UInt32 := (answers request holder requests).map Prod.fst

/-- None of the requests meets the condition where it is made. -/
def Never (condition : S → UInt32 → Prop) (holder : S) (requests : List UInt32) : Prop :=
  ∀ before n later, requests = before ++ n :: later → ¬ condition (after request holder before) n

variable {request} {holder later : S} {key : K} {n : UInt32}

theorem left_of_ok (asked : request holder n = .ok (key, later)) : left request holder n = later := by
  rw [left, asked]

theorem left_of_error {fault : Fault} (asked : request holder n = .error fault) : left request holder n = holder := by
  rw [left, asked]

theorem after_cons (rest : List UInt32) : after request holder (n :: rest) = after request (left request holder n) rest := rfl

theorem answers_cons_of_ok (asked : request holder n = .ok (key, later)) (rest : List UInt32) :
    answers request holder (n :: rest) = (n, key) :: answers request later rest := by
  rw [answers, left_of_ok asked, asked]

theorem answers_cons_of_error {fault : Fault} (asked : request holder n = .error fault) (rest : List UInt32) :
    answers request holder (n :: rest) = answers request holder rest := by
  rw [answers, left_of_error asked, asked]

theorem answers_append (first rest : List UInt32) : answers request holder (first ++ rest) =
    answers request holder first ++ answers request (after request holder first) rest := by
  induction first generalizing holder with
  | nil => rfl
  | cons n first ih =>
    rw [after_cons, List.cons_append]
    cases asked : request holder n with
    | ok answer => rw [answers_cons_of_ok asked, answers_cons_of_ok asked, ih, left_of_ok asked, List.cons_append]
    | error fault => rw [answers_cons_of_error asked, answers_cons_of_error asked, ih, left_of_error asked]

theorem served_subset {requests : List UInt32} : served request holder requests ⊆ requests := by
  induction requests generalizing holder with
  | nil => exact List.nil_subset _
  | cons n rest ih =>
    rw [served]
    cases asked : request holder n with
    | ok answer =>
      rw [answers_cons_of_ok asked]
      exact List.cons_subset_cons n ih
    | error fault =>
      rw [answers_cons_of_error asked]
      exact List.subset_cons_of_subset n ih

theorem never_cons {condition : S → UInt32 → Prop} {rest : List UInt32} (never : Never request condition holder (n :: rest)) :
    ¬ condition holder n ∧ Never request condition (left request holder n) rest :=
  ⟨never [] n rest rfl, fun before m later split => never (n :: before) m later (congrArg (n :: ·) split)⟩

end KeyRequests

namespace Progress

/-- The key of the message is kept, or the message is not passed yet, and at most `far` ahead. -/
def Reaches (far : Nat) (progress : Progress) (n : Nat) : Prop :=
  n ∈ progress.kept ∨ progress.index ≤ n ∧ n ≤ progress.index + far

/-- A message is within reach, or its key is used up, or it is too far ahead. -/
theorem reaches_or (far : Nat) (progress : Progress) (n : Nat) :
    progress.Reaches far n ∨ progress.Spent n ∨ progress.index + far < n := by
  unfold Reaches Spent
  grind

/-- The progress of a reader that began at message `first` and has read some messages since. -/
structure Since (first : Nat) (read : List Nat) (progress : Progress) : Prop where
  sound : progress.Sound
  rising : progress.Rising
  started : first ≤ progress.index
  /-- Nothing is kept from before the beginning. -/
  kept : ∀ n ∈ progress.kept, first ≤ n
  after : ∀ n ∈ read, first ≤ n
  distinct : read.Nodup
  spent : ∀ n ∈ read, progress.Spent n
  /-- The reader stands after the furthest message that it has read. -/
  top : progress.index = first ∨ ∃ n ∈ read, n + 1 = progress.index
  covers : ∀ n < progress.index, n ∈ progress.kept ∨ n ∈ progress.lost ∨ n < first ∨ n ∈ read

variable {first far n : Nat} {done : List Nat} {progress : Progress}

theorem Since.begun (bound : first < UInt32.size) : Since first [] { index := first } where
  sound := .begun bound
  rising := List.Pairwise.nil
  started := Nat.le_refl first
  kept := nofun
  after := nofun
  distinct := List.nodup_nil
  spent := nofun
  top := .inl rfl
  covers _ lt := .inr (.inr (.inl lt))

theorem Reaches.not_spent (reaches : progress.Reaches far n) : ¬ progress.Spent n := by
  rintro ⟨behind, gone⟩
  rcases reaches with kept | ⟨ahead, _⟩
  · exact gone kept
  · exact Nat.not_lt.mpr ahead behind

theorem Reaches.near (reaches : progress.Reaches far n) (sound : progress.Sound) : n ≤ progress.index + far := by
  rcases reaches with kept | ⟨_, near⟩
  · exact Nat.le_trans (Nat.le_of_lt (sound.behind n kept)) (Nat.le_add_right _ _)
  · exact near

theorem Since.read (since : Since first done progress) (reaches : progress.Reaches far n) (bound : n + 1 < UInt32.size) :
    Since first (done ++ [n]) (progress.read n) where
  sound := read_sound since.sound bound
  rising := since.rising.read since.sound n
  started := Nat.le_trans since.started index_le_read
  kept m member := by
    by_cases behind : n < progress.index
    · rw [read_of_behind behind] at member
      exact since.kept m (List.mem_of_mem_erase member)
    · rw [read_kept_of_ahead behind] at member
      rcases (mem_waiting behind).mp (List.mem_of_mem_drop member) with old | ⟨passed, _⟩
      · exact since.kept m old
      · exact Nat.le_trans since.started passed
  after m member := by
    rcases List.mem_append.mp member with old | new
    · exact since.after m old
    · rw [List.mem_singleton.mp new]
      rcases reaches with kept | ⟨ahead, _⟩
      · exact since.kept n kept
      · exact Nat.le_trans since.started ahead
  distinct := by
    have unread : n ∉ done := fun member => reaches.not_spent (since.spent n member)
    rw [List.nodup_append]
    refine ⟨since.distinct, List.nodup_singleton n, fun m member other here same => ?_⟩
    rw [List.mem_singleton.mp here] at same
    exact unread (same ▸ member)
  spent m member := by
    rcases List.mem_append.mp member with old | new
    · exact (since.spent m old).read n
    · rw [List.mem_singleton.mp new]
      exact since.rising.spent_read since.sound n
  top := by
    by_cases behind : n < progress.index
    · rw [read_of_behind behind]
      exact since.top.imp_right fun ⟨m, member, same⟩ => ⟨m, List.mem_append_left _ member, same⟩
    · exact .inr ⟨n, List.mem_append_right _ List.mem_cons_self, (read_index_of_ahead behind).symm⟩
  covers := by
    refine read_covers (fun m lt => ?_) (.inr (List.mem_append_right _ List.mem_cons_self))
    exact (since.covers m lt).imp_right (Or.imp_right (Or.imp_right fun member => List.mem_append_left _ member))

/-- If nothing was given up, what is kept are the messages passed over and not read. -/
theorem Since.mem_kept_iff (since : Since first done progress) (nothing : progress.lost = []) :
    n ∈ progress.kept ↔ (first ≤ n ∧ n < progress.index) ∧ n ∉ done := by
  constructor
  · intro kept
    exact ⟨⟨since.kept n kept, since.sound.behind n kept⟩, fun member => (since.spent n member).2 kept⟩
  · rintro ⟨⟨started, behind⟩, unread⟩
    rcases since.covers n behind with kept | lost | before | member
    · exact kept
    · rw [nothing] at lost
      cases lost
    · exact absurd started (Nat.not_le.mpr before)
    · exact absurd member unread

theorem Since.index_le {other : Progress} {done' : List Nat} (since : Since first done progress)
    (since' : Since first done' other) (same : ∀ n ∈ done, n ∈ done') : progress.index ≤ other.index := by
  rcases since.top with start | ⟨n, member, last⟩
  · exact start ▸ since'.started
  · exact last ▸ (since'.spent n (same n member)).1

/-- If nothing was given up, the progress is told from the messages that have been read, in whatever order. -/
theorem Since.eq_of_nothing_lost {other : Progress} {done' : List Nat} (since : Since first done progress)
    (since' : Since first done' other) (same : ∀ n, n ∈ done ↔ n ∈ done') (nothing : progress.lost = [])
    (nothing' : other.lost = []) : progress = other := by
  have index : progress.index = other.index :=
    Nat.le_antisymm (since.index_le since' fun n => (same n).mp) (since'.index_le since fun n => (same n).mpr)
  have members : ∀ n, n ∈ progress.kept ↔ n ∈ other.kept := by
    intro n
    rw [since.mem_kept_iff nothing, since'.mem_kept_iff nothing', index, same]
  have kept : progress.kept = other.kept := since.rising.eq_of_mem_iff since'.rising (by grind)
  cases progress
  cases other
  simp_all

section Numbered

variable {A : Type} (entry : Nat → A) (number : A → UInt32) (numbered : ∀ m, number (entry m) = .ofNat m)

include numbered

theorem Bounded.kept_iff (bounded : progress.Bounded) (n : UInt32) :
    n ∈ (progress.kept.map entry).map number ↔ n.toNat ∈ progress.kept := by
  simp only [List.map_map, List.mem_map, Function.comp, numbered]
  constructor
  · rintro ⟨m, kept, rfl⟩
    rwa [UInt32.toNat_ofNat_of_lt' (bounded.numbered m kept)]
  · intro kept
    exact ⟨n.toNat, kept, UInt32.ofNat_toNat⟩

theorem Bounded.kept_entry (bounded : progress.Bounded) : ∀ a ∈ progress.kept.map entry, a = entry (number a).toNat := by
  intro a member
  obtain ⟨m, kept, rfl⟩ := List.mem_map.mp member
  rw [numbered, UInt32.toNat_ofNat_of_lt' (bounded.numbered m kept)]

theorem Sound.kept_behind (sound : progress.Sound) : ∀ a ∈ progress.kept.map entry, number a < .ofNat progress.index := by
  intro a member
  obtain ⟨m, kept, rfl⟩ := List.mem_map.mp member
  have behind := sound.behind m kept
  exact numbered m ▸ (ofNat_lt_iff (Nat.lt_trans behind sound.index) sound.index).mpr behind

/-- Entries are kept in the order of their numbers. -/
theorem Rising.numbers (rising : progress.Rising) (sound : progress.Sound) :
    ((progress.kept.map entry).map number).Pairwise (· < ·) := by
  rw [List.map_map, List.pairwise_map]
  refine List.Pairwise.imp_of_mem (fun {m k} m_kept k_kept lt => ?_) rising
  simpa only [Function.comp, numbered, ofNat_lt_iff (sound.numbered m m_kept) (sound.numbered k k_kept)] using lt

/-- What is kept of all messages but one, whose key has been served. -/
theorem Rising.map_erase_kept (rising : progress.Rising) (sound : progress.Sound) (bound : n < UInt32.size) :
    (progress.kept.erase n).map entry = (progress.kept.map entry).filter (number · ≠ .ofNat n) := by
  have distinct : progress.kept.Nodup := rising.imp Nat.ne_of_lt
  rw [distinct.erase_eq_filter, List.filter_map]
  refine congrArg (List.map entry) (List.filter_congr fun m member => ?_)
  rw [Bool.eq_iff_iff]
  simp [numbered, ofNat_eq_iff (sound.numbered m member) bound]

end Numbered

/-- What is kept after messages have been passed over: the latest entries. -/
theorem map_read_kept {A : Type} (entry : Nat → A) (ahead : progress.index ≤ n) :
    (progress.read n).kept.map entry =
      (progress.kept.map entry ++ (List.range' progress.index (n - progress.index)).map entry).rtake limit := by
  have surplus : progress.excess n = progress.kept.length + (n - progress.index) - limit := by
    rw [excess, waiting, List.length_append, List.length_range']
  rw [read_kept_of_ahead (Nat.not_lt.mpr ahead), ← List.map_append, List.map_drop, List.rtake, surplus, waiting]
  simp only [List.length_map, List.length_append, List.length_range']

/-- As many can be kept as there are messages since the beginning. -/
theorem Since.length_kept_le (since : Since first done progress) : progress.kept.length ≤ progress.index - first := by
  have distinct : progress.kept.Nodup := since.rising.imp Nat.ne_of_lt
  have within : progress.kept ⊆ List.range' first (progress.index - first) := by
    intro m kept
    rw [List.mem_range'_1, Nat.add_sub_cancel' since.started]
    exact ⟨since.kept m kept, since.sound.behind m kept⟩
  simpa using (List.subperm_of_subset distinct within).length_le

/-- Nothing is given up for a message that finds room for those that it passes over. -/
theorem read_lost_of_room (room : progress.index ≤ n → progress.kept.length + (n - progress.index) ≤ limit) :
    (progress.read n).lost = progress.lost := by
  by_cases behind : n < progress.index
  · rw [read_of_behind behind]
  · have none : progress.excess n = 0 := by
      have := room (Nat.le_of_not_lt behind)
      rw [excess, waiting, List.length_append, List.length_range']
      omega
    rw [read_lost_of_ahead behind, none, List.take_zero, List.append_nil]

end Progress

namespace KeyRequests

variable {S K : Type} {request : S → UInt32 → Except Fault (K × S)}

/-- What holds the keys is determined by the progress of its reader, and if it answers a request for message `n`, then as
the progress says. -/
def Follows (request : S → UInt32 → Except Fault (K × S)) (standing : Progress → S) (key : Nat → K) (first far : Nat)
    (n : UInt32) : Prop :=
  ∀ progress : Progress, progress.Sound → first ≤ progress.index → ∀ answer, request (standing progress) n = .ok answer →
    n.toNat + 1 < UInt32.size ∧ progress.Reaches far n.toNat ∧ answer = (key n.toNat, standing (progress.read n.toNat))

/-- A request that is answered meets the condition if there is no room for the keys of the messages that it passes over. -/
def Noticed (request : S → UInt32 → Except Fault (K × S)) (standing : Progress → S) (crowded : S → UInt32 → Prop) : Prop :=
  ∀ progress n, progress.Sound → ∀ answer, request (standing progress) n = .ok answer → progress.index ≤ n.toNat →
    Progress.limit < progress.kept.length + (n.toNat - progress.index) → crowded (standing progress) n

variable {standing : Progress → S} {key : Nat → K} {first far : Nat} {requests : List UInt32} {crowded : S → UInt32 → Prop}

/-- After any requests in turn what holds the keys is determined by the progress of its reader, who has read the messages
whose keys were served, and has given up none if there was always room. -/
theorem after_standing (follows : ∀ n ∈ requests, Follows request standing key first far n)
    (noticed : Noticed request standing crowded) {done : List Nat} {progress : Progress} (since : progress.Since first done) :
    ∃ reached : Progress, after request (standing progress) requests = standing reached ∧
      reached.Since first (done ++ (served request (standing progress) requests).map UInt32.toNat) ∧
      (∀ answer ∈ answers request (standing progress) requests, answer.2 = key answer.1.toNat) ∧
      (Never request crowded (standing progress) requests → reached.lost = progress.lost) := by
  induction requests generalizing done progress with
  | nil => exact ⟨progress, rfl, by simpa [served, answers] using since, nofun, fun _ => rfl⟩
  | cons n rest ih =>
    have rest_follows := fun m member => follows m (List.mem_cons_of_mem n member)
    cases asked : request (standing progress) n with
    | error fault =>
      obtain ⟨reached, stands, since, keys, nothing⟩ := ih rest_follows since
      rw [after_cons, served, answers_cons_of_error asked, left_of_error asked]
      refine ⟨reached, stands, since, keys, fun never => nothing ?_⟩
      simpa only [left_of_error asked] using (never_cons never).2
    | ok answer =>
      obtain ⟨bound, reaches, rfl⟩ := follows n List.mem_cons_self progress since.sound since.started answer asked
      obtain ⟨reached, stands, since', keys, nothing⟩ := ih rest_follows (since.read reaches bound)
      rw [after_cons, served, answers_cons_of_ok asked, left_of_ok asked]
      refine ⟨reached, stands, ?_, List.forall_mem_cons.mpr ⟨rfl, keys⟩, fun never => ?_⟩
      · rwa [List.append_assoc] at since'
      · obtain ⟨roomy, never⟩ := never_cons never
        rw [left_of_ok asked] at never
        rw [nothing never]
        refine Progress.read_lost_of_room fun ahead => Nat.le_of_not_lt fun crowd => ?_
        exact roomy (noticed progress n since.sound _ asked ahead crowd)

/-- If no key had to be given up, the order in which keys were served makes no difference to what is left. -/
theorem after_eq_of_same_served {others : List UInt32} (follows : ∀ n ∈ requests, Follows request standing key first far n)
    (others_follow : ∀ n ∈ others, Follows request standing key first far n) (noticed : Noticed request standing crowded)
    (bound : first < UInt32.size) (roomy : Never request crowded (standing { index := first }) requests)
    (others_roomy : Never request crowded (standing { index := first }) others)
    (same : ∀ n, n ∈ served request (standing { index := first }) requests ↔
      n ∈ served request (standing { index := first }) others) :
    after request (standing { index := first }) requests = after request (standing { index := first }) others := by
  obtain ⟨reached, stands, since, -, nothing⟩ := after_standing follows noticed (.begun bound)
  obtain ⟨reached', stands', since', -, nothing'⟩ := after_standing others_follow noticed (.begun bound)
  have progress : reached = reached' := by
    refine since.eq_of_nothing_lost since' (fun n => ?_) (nothing roomy) (nothing' others_roomy)
    simp only [List.nil_append, List.mem_map, same]
  rw [stands, stands', progress]

/-! ## Early messages

There is room for the keys of all messages that are at most so far from the first as keys can be kept. -/

section Early

variable (follows : ∀ n ∈ requests, Follows request standing key first far n) (noticed : Noticed request standing crowded)
  (early : ∀ n ∈ requests, first ≤ n.toNat ∧ n.toNat ≤ first + Progress.limit) (bound : first < UInt32.size)

include follows noticed early bound

theorem never_of_early (crowding : ∀ progress n, progress.Sound → crowded (standing progress) n → progress.index ≤ n.toNat ∧
      Progress.limit < progress.kept.length + (n.toNat - progress.index)) :
    Never request crowded (standing { index := first }) requests := by
  rintro before n later rfl crowd
  have follows_before := fun m member => follows m (List.mem_append_left (n :: later) member)
  obtain ⟨progress, stands, since, -⟩ := after_standing follows_before noticed (.begun bound)
  rw [stands] at crowd
  obtain ⟨ahead, many⟩ := crowding progress n since.sound crowd
  obtain ⟨-, near⟩ := early n (List.mem_append_right before List.mem_cons_self)
  have few := since.length_kept_le
  have started := since.started
  omega

theorem mem_served_of_early (roomy : Never request crowded (standing { index := first }) requests)
    (wide : Progress.limit ≤ far) (serves : ∀ (progress : Progress) n, progress.Sound → first ≤ progress.index → n ∈ requests →
      progress.Reaches far n.toNat → ∃ answer, request (standing progress) n = .ok answer) (n : UInt32) :
    n ∈ served request (standing { index := first }) requests ↔ n ∈ requests := by
  refine ⟨fun member => served_subset member, fun member => ?_⟩
  obtain ⟨before, later, rfl⟩ := List.append_of_mem member
  have follows_before := fun m member => follows m (List.mem_append_left (n :: later) member)
  obtain ⟨progress, stands, since, -, nothing⟩ := after_standing follows_before noticed (.begun bound)
  have nothing := nothing fun first m rest split => roomy first m (rest ++ n :: later) (by rw [split]; simp)
  rw [served, answers_append, List.map_append, stands, List.mem_append]
  -- Either it has been served before, or it is served now.
  by_cases done : n ∈ served request (standing { index := first }) before
  · exact .inl done
  have undone : n.toNat ∉ (served request (standing { index := first }) before).map UInt32.toNat := by
    rintro again
    obtain ⟨m, member, same⟩ := List.mem_map.mp again
    exact done (UInt32.toNat_inj.mp same ▸ member)
  obtain ⟨started, near⟩ := early n member
  have reaches : progress.Reaches far n.toNat := by
    by_cases behind : n.toNat < progress.index
    · exact .inl ((since.mem_kept_iff nothing).mpr ⟨⟨started, behind⟩, undone⟩)
    · exact .inr ⟨Nat.le_of_not_lt behind, by have := since.started; omega⟩
  obtain ⟨answer, asked⟩ := serves progress n since.sound since.started member reaches
  rw [answers_cons_of_ok asked]
  exact .inr List.mem_cons_self

end Early

end KeyRequests

end DoubleRatchet
