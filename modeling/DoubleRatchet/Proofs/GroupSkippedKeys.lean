import DoubleRatchet.Proofs.Group.Chain
import DoubleRatchet.Proofs.KeyRequests

/-! The keys of messages to a group that a member has passed over. Whatever is asked of a sender's chain, and in whatever
order, whether the key of a message is served is decided by where the chain stands and by the seeds that it still keeps. The
last number of all has no key. Where it is asked for nevertheless, a chain that is near keeps the seeds of all messages up to
it and stays where it stands, so that it then has one more copy of each to give. Whoever gives up what a refused request
leaves, as the reader of messages does, is served no key twice. -/
namespace DoubleRatchet

open DoubleRatchet.Group

namespace Progress

variable {progress : Progress} {n : Nat}

/-- The messages up to the last of all are passed over, but the reader stays where it stands. -/
def overrun (progress : Progress) : Progress := { progress.read 0xffffffff with index := progress.index }

theorem Bounded.overrun (bounded : progress.Bounded) : progress.overrun.Bounded := by
  obtain ⟨numbered, few⟩ := bounded.read_kept (n := 0xffffffff) (by decide)
  exact ⟨bounded.index, numbered, few⟩

theorem overrun_kept (ahead : ¬ 0xffffffff < progress.index) :
    progress.overrun.kept = (progress.waiting 0xffffffff).drop (progress.excess 0xffffffff) := read_kept_of_ahead ahead

/-! ### Copies

Of each message there is one key to serve, and one more for each time that the last message of all was asked for. -/

/-- Whether a key is served or kept, it counts as a copy. -/
structure Tally (first overruns : Nat) (served : List Nat) (progress : Progress) : Prop where
  bounded : progress.Bounded
  started : first ≤ progress.index
  kept : ∀ n ∈ progress.kept, first ≤ n
  copies : ∀ n, served.count n + progress.kept.count n ≤ overruns + if n < progress.index then 1 else 0

variable {first overruns : Nat} {served : List Nat}

theorem Tally.begun (bound : first < UInt32.size) : Tally first 0 [] { index := first } where
  bounded := (Sound.begun bound).toBounded
  started := Nat.le_refl first
  kept := nofun
  copies _ := Nat.zero_le _

/-- What is kept after messages have been passed over is some of what was kept and of what was passed. -/
theorem count_drop_waiting (ahead : ¬ n < progress.index) (k m : Nat) :
    ((progress.waiting n).drop k).count m ≤ progress.kept.count m + if progress.index ≤ m ∧ m < n then 1 else 0 := by
  refine Nat.le_trans ((List.drop_sublist k _).count_le m) ?_
  have within : m ∈ List.range' progress.index (n - progress.index) ↔ progress.index ≤ m ∧ m < n := by
    rw [List.mem_range'_1, Nat.add_sub_cancel' (Nat.le_of_not_lt ahead)]
  rw [waiting, List.count_append, List.Nodup.count List.nodup_range']
  simp only [within, Nat.le_refl]

/-- Nothing is kept from before the reader's beginning. -/
theorem Tally.kept_waiting (tally : Tally first overruns served progress) (ahead : ¬ n < progress.index) (k : Nat) :
    ∀ m ∈ (progress.waiting n).drop k, first ≤ m := by
  intro m member
  rcases (mem_waiting ahead).mp (List.mem_of_mem_drop member) with old | ⟨passed, _⟩
  · exact tally.kept m old
  · exact Nat.le_trans tally.started passed

theorem Tally.read_kept_behind (tally : Tally first overruns served progress) (behind : n < progress.index)
    (kept : n ∈ progress.kept) : Tally first overruns (served ++ [n]) (progress.read n) := by
  rw [read_of_behind behind]
  constructor
  · have bound : n + 1 < UInt32.size := Nat.lt_of_le_of_lt behind tally.bounded.index
    exact read_of_behind behind ▸ tally.bounded.read bound
  · exact tally.started
  · exact fun m member => tally.kept m (List.mem_of_mem_erase member)
  · intro m
    have copies := tally.copies m
    have one : 0 < progress.kept.count n := List.count_pos_iff.mpr kept
    dsimp only at copies ⊢
    rw [List.count_append, List.count_singleton, List.count_erase]
    simp only [beq_iff_eq]
    split <;> [(subst m; omega); omega]

theorem Tally.read_ahead (tally : Tally first overruns served progress) (ahead : ¬ n < progress.index)
    (bound : n + 1 < UInt32.size) : Tally first overruns (served ++ [n]) (progress.read n) := by
  constructor
  · exact tally.bounded.read bound
  · exact Nat.le_trans tally.started index_le_read
  · rw [read_kept_of_ahead ahead]
    exact tally.kept_waiting ahead _
  · intro m
    have copies := tally.copies m
    have left := count_drop_waiting ahead (progress.excess n) m
    rw [read_kept_of_ahead ahead, read_index_of_ahead ahead, List.count_append, List.count_singleton]
    grind

theorem Tally.read {far : Nat} (tally : Tally first overruns served progress) (reaches : progress.Reaches far n)
    (bound : n + 1 < UInt32.size) : Tally first overruns (served ++ [n]) (progress.read n) := by
  by_cases behind : n < progress.index
  · rcases reaches with kept | ⟨ahead, _⟩
    · exact tally.read_kept_behind behind kept
    · exact absurd behind (Nat.not_lt.mpr ahead)
  · exact tally.read_ahead behind bound

theorem Tally.first_le {far : Nat} (tally : Tally first overruns served progress) (reaches : progress.Reaches far n) :
    first ≤ n := by
  rcases reaches with kept | ⟨ahead, _⟩
  · exact tally.kept n kept
  · exact Nat.le_trans tally.started ahead

theorem Tally.overrun (tally : Tally first overruns served progress) :
    Tally first (overruns + 1) served progress.overrun := by
  have ahead : ¬ 0xffffffff < progress.index := Nat.not_lt.mpr (Nat.le_of_lt_succ tally.bounded.index)
  constructor
  · exact tally.bounded.overrun
  · exact tally.started
  · rw [overrun_kept ahead]
    exact tally.kept_waiting ahead _
  · intro m
    have copies := tally.copies m
    have left := count_drop_waiting ahead (progress.excess 0xffffffff) m
    rw [overrun_kept ahead]
    show _ ≤ _ + if m < progress.index then 1 else 0
    grind

end Progress

namespace Group

/-- What a request comes to if no number is left after that of the message. -/
def overrun : Except Fault MessageKey := .error (corrupt "chain iteration overflowed")

namespace SenderKeyState

/-- Requests in turn, each of which finds what the one before has left, whether or not it was answered. -/
def askAll (state : SenderKeyState) (requests : List UInt32) : SenderKeyState :=
  requests.foldl (fun state n => (state.ask n).2) state

/-- What requests in turn come to, each with its number. -/
def outcomes (state : SenderKeyState) : List UInt32 → List (UInt32 × Except Fault MessageKey)
  | [] => []
  | n :: rest => (n, (state.ask n).1) :: (state.ask n).2.outcomes rest

/-- The numbers of the messages whose keys are served, as often as they are. -/
def served (state : SenderKeyState) (requests : List UInt32) : List UInt32 :=
  (state.outcomes requests).filterMap fun outcome => outcome.2.toOption.map fun _ => outcome.1

def overruns (state : SenderKeyState) (requests : List UInt32) : Nat := (state.outcomes requests).countP (·.2 = overrun)

/-- The request is answered, and the chain has no room for all that it keeps and passes over. -/
def Evicts (state : SenderKeyState) (n : UInt32) : Prop :=
  ∃ place key, state.chainKey = .ok place ∧ (state.ask n).1 = .ok key ∧ place.iteration ≤ n ∧
    2000 < state.cache.length + (n.toNat - place.iteration.toNat)

/-- For none of the requests in turn a key has to be given up. -/
def Roomy (state : SenderKeyState) : List UInt32 → Prop
  | [] => True
  | n :: rest => ¬ state.Evicts n ∧ (state.ask n).2.Roomy rest

/-- What is kept is of different messages before `place`, in order; and so are the messages whose keys were served. -/
structure Orderly (state : SenderKeyState) (place : UInt32) (served : List UInt32) : Prop where
  rising : (state.cache.map (·.iteration)).Pairwise (· < ·)
  behind : ∀ kept ∈ state.cache, kept.iteration < place
  distinct : served.Nodup
  passed : ∀ n ∈ served, n < place

section

variable {state left : SenderKeyState} {n : UInt32} {outcome : Except Fault MessageKey}
  (asked : state.ask n = (outcome, left)) (rest : List UInt32)

include asked

theorem askAll_cons : state.askAll (n :: rest) = left.askAll rest := by
  rw [askAll, List.foldl_cons, asked, askAll]

theorem outcomes_cons : state.outcomes (n :: rest) = (n, outcome) :: left.outcomes rest := by
  rw [outcomes, asked]

theorem served_cons : state.served (n :: rest) = (outcome.toOption.map fun _ => n).toList ++ left.served rest := by
  rw [served, outcomes_cons asked, List.filterMap_cons, served]
  cases outcome <;> rfl

theorem overruns_cons : state.overruns (n :: rest) = left.overruns rest + if outcome = overrun then 1 else 0 := by
  rw [overruns, outcomes_cons asked, List.countP_cons, overruns]
  simp only [decide_eq_true_eq]

end

/-- What a chain is signed with has no part in requests. -/
theorem ask_with_signing (state : SenderKeyState) (signing : Option StoredSigningKey) (n : UInt32) :
    ask { state with signing } n = ((state.ask n).1, { (state.ask n).2 with signing }) := by
  have left (chain : ChainKey) : asked { state with signing } chain n = { state.asked chain n with signing } := by
    unfold asked
    split
    · rfl
    · dsimp only
      split
      · rfl
      · split <;> rfl
  have place : chainKey { state with signing } = state.chainKey := rfl
  rw [ask, ask, place]
  cases state.chainKey with
  | error fault => rfl
  | ok chain => exact Prod.ext rfl (left chain)

end SenderKeyState

namespace SenderChain

/-- What is kept of the chain by a member, or by the sender itself. -/
def held (c : SenderChain) (own : Option PrivateKey) (progress : Progress) : SenderKeyState :=
  { SenderKeyState.start c.keyId (c.link progress.index) c.signingKey own with cache := progress.kept.map c.stored }

/-- The seeds that a state which stands at message `place` keeps once the messages before `n` are passed over. -/
def passing (c : SenderChain) (place : UInt32) (state : SenderKeyState) (n : UInt32) : List StoredSeed :=
  (state.cache ++ (List.range' place.toNat (n.toNat - place.toNat)).map c.stored).rtake 2000

/-- The state stands at message `place`, and keeps the seeds of the keys of some messages. -/
structure StandsAt (c : SenderChain) (place : UInt32) (state : SenderKeyState) : Prop where
  chainKey : state.chainKey = .ok ⟨place, (c.origin.advance (place.toNat - c.origin.iteration.toNat)).seed⟩
  started : c.origin.iteration ≤ place
  kept : ∀ kept ∈ state.cache, c.origin.iteration ≤ kept.iteration ∧ kept = c.stored kept.iteration.toNat
  few : state.cache.length ≤ 2000

/-- What a request for the key of message `n` comes to, and leaves of a state that stands at message `place`. -/
structure Answers (c : SenderChain) (place : UInt32) (state : SenderKeyState) (n : UInt32) : Prop where
  kept : n < place → n ∈ state.cache.map (·.iteration) →
    state.ask n = (.ok (c.key n.toNat), { state with cache := state.cache.eraseP (·.iteration == n) })
  repeated : n < place → n ∉ state.cache.map (·.iteration) → state.ask n = (.error (.duplicate place n), state)
  ahead : place ≤ n → n.toNat ≤ place.toNat + 2000 → n ≠ 0xffffffff →
    state.ask n = (.ok (c.key n.toNat), { state with
      chain := some ⟨n + 1, (c.link (n.toNat + 1)).seed.bytes⟩
      cache := c.passing place state n })
  far : place.toNat + 2000 < n.toNat → state.ask n = (.error (.tooFarAhead (n - place)), state)
  last : n = 0xffffffff → n.toNat ≤ place.toNat + 2000 →
    state.ask n = (.error (.badState "sender key state" "chain iteration overflowed"),
      { state with cache := c.passing place state n })

/-! ## Requests -/

variable {c : SenderChain} {own : Option PrivateKey} {progress : Progress} {n : UInt32}

theorem held_first (c : SenderChain) (own : Option PrivateKey) :
    c.held own { index := c.first } = .start c.keyId c.origin c.signingKey own := by
  rw [held, c.link_first]
  rfl

theorem held_chainKey : (c.held own progress).chainKey = .ok (c.link progress.index) := c.state_chainKey

theorem held_index {other : Progress} (same : c.held own progress = c.held own other) :
    UInt32.ofNat progress.index = .ofNat other.index := by
  have placed : (c.held own progress).chainKey = .ok (c.link progress.index) := held_chainKey
  rw [same, held_chainKey] at placed
  exact (congrArg ChainKey.iteration (Except.ok.inj placed)).symm

/-- A request finds the sender's own state as it finds that of a member. -/
theorem ask_held {outcome : Except Fault MessageKey} {reached : Progress}
    (comes : (c.state progress).keyFor (c.link progress.index) n = outcome)
    (left : (c.state progress).asked (c.link progress.index) n = c.state reached) :
    (c.held own progress).ask n = (outcome, c.held own reached) := by
  have asked : (c.state progress).ask n = (outcome, c.state reached) := by
    rw [SenderKeyState.ask, c.state_chainKey, ← comes, ← left]
  refine ((c.state progress).ask_with_signing (c.held own progress).signing n).trans ?_
  rw [asked]
  rfl

theorem asked_state_of_far (bounded : progress.Bounded) (far : progress.index + maxSkip < n.toNat) :
    (c.state progress).asked (c.link progress.index) n = c.state progress := by
  have ahead : progress.index ≤ n.toNat := by omega
  have steps := c.steps_toNat bounded n.toNat_lt_size ahead
  have behind_iff := c.behind_iff bounded n.toNat_lt_size
  rw [UInt32.ofNat_toNat] at steps behind_iff
  rw [SenderKeyState.asked, if_neg (mt behind_iff.mp (Nat.not_lt.mpr ahead))]
  dsimp only
  rw [steps, if_pos (by omega)]

/-- The seeds are kept, and the chain stays. -/
theorem asked_state_of_last (bounded : progress.Bounded) (after : c.first ≤ progress.index)
    (near : 0xffffffff ≤ progress.index + maxSkip) :
    (c.state progress).asked (c.link progress.index) 0xffffffff = c.state progress.overrun := by
  have ahead : progress.index ≤ 0xffffffff := Nat.le_of_lt_succ bounded.index
  have steps := c.steps_toNat bounded (n := 0xffffffff) (by decide) ahead
  have behind_iff := c.behind_iff bounded (n := 0xffffffff) (by decide)
  have last : (c.link 0xffffffff).next? = .error (corrupt "chain iteration overflowed") := if_pos rfl
  rw [show UInt32.ofNat 0xffffffff = 0xffffffff from rfl] at steps behind_iff
  rw [SenderKeyState.asked, if_neg (mt behind_iff.mp (Nat.not_lt.mpr ahead))]
  dsimp only
  rw [steps, if_neg (by omega), c.link_advance after, Nat.add_sub_cancel' ahead, last, c.append_passed bounded after ahead]
  rfl

section

variable (bounded : progress.Bounded) (after : c.first ≤ progress.index)

include bounded after

theorem ask_of_kept (behind : n.toNat < progress.index) (kept : n.toNat ∈ progress.kept) :
    (c.held own progress).ask n = (.ok (c.key n.toNat), c.held own (progress.read n.toNat)) := by
  have comes := c.keyFor_state_of_kept bounded behind kept
  have left := c.asked_state bounded after (Nat.lt_of_le_of_lt behind bounded.index)
    (Nat.le_trans (Nat.le_of_lt behind) (Nat.le_add_right _ maxSkip))
  rw [UInt32.ofNat_toNat] at comes left
  exact ask_held comes left

theorem ask_of_spent (spent : progress.Spent n.toNat) :
    (c.held own progress).ask n = (.error (.duplicate (.ofNat progress.index) n), c.held own progress) := by
  have comes := c.keyFor_state_of_spent bounded spent
  have left := c.asked_state bounded after (Nat.lt_of_le_of_lt spent.1 bounded.index)
    (Nat.le_trans (Nat.le_of_lt spent.1) (Nat.le_add_right _ maxSkip))
  rw [Progress.read_of_behind spent.1, List.erase_of_not_mem spent.2] at left
  rw [UInt32.ofNat_toNat] at comes left
  exact ask_held comes left

theorem ask_of_ahead (ahead : progress.index ≤ n.toNat) (near : n.toNat ≤ progress.index + maxSkip) (inner : n ≠ 0xffffffff) :
    (c.held own progress).ask n = (.ok (c.key n.toNat), c.held own (progress.read n.toNat)) := by
  have comes := c.keyFor_state_of_ahead bounded after (succ_toNat_lt inner) ahead near
  have left := c.asked_state bounded after (succ_toNat_lt inner) near
  rw [UInt32.ofNat_toNat] at comes left
  exact ask_held comes left

omit after in
theorem ask_of_far (far : progress.index + maxSkip < n.toNat) :
    (c.held own progress).ask n = (.error (.tooFarAhead (n - .ofNat progress.index)), c.held own progress) := by
  have comes := c.keyFor_state_of_far bounded n.toNat_lt_size far
  rw [UInt32.ofNat_toNat] at comes
  exact ask_held comes (asked_state_of_far bounded far)

theorem ask_of_last (near : 0xffffffff ≤ progress.index + maxSkip) :
    (c.held own progress).ask 0xffffffff = (overrun, c.held own progress.overrun) :=
  ask_held (c.keyFor_state_of_last bounded after near) (asked_state_of_last bounded after near)

end

/-- What a request for the key of message `n` comes to, and where it leaves the reader. -/
inductive Asks (c : SenderChain) (own : Option PrivateKey) (progress : Progress) (n : UInt32) : Prop
  | served (bound : n.toNat + 1 < UInt32.size) (reaches : progress.Reaches maxSkip n.toNat)
    (asked : (c.held own progress).ask n = (.ok (c.key n.toNat), c.held own (progress.read n.toNat)))
  | refused (fault : Fault) (asked : (c.held own progress).ask n = (.error fault, c.held own progress))
    (other : .error fault ≠ overrun)
  | last (asked : (c.held own progress).ask n = (overrun, c.held own progress.overrun))

theorem asks (bounded : progress.Bounded) (after : c.first ≤ progress.index) (own : Option PrivateKey) (n : UInt32) :
    c.Asks own progress n := by
  by_cases behind : n.toNat < progress.index
  · by_cases kept : n.toNat ∈ progress.kept
    · exact .served (Nat.lt_of_le_of_lt behind bounded.index) (.inl kept) (ask_of_kept bounded after behind kept)
    · exact .refused _ (ask_of_spent bounded after ⟨behind, kept⟩) nofun
  by_cases far : progress.index + maxSkip < n.toNat
  · exact .refused _ (ask_of_far bounded far) nofun
  have ahead := Nat.le_of_not_lt behind
  have near := Nat.le_of_not_lt far
  by_cases last : n = 0xffffffff
  · subst last
    exact .last (ask_of_last bounded after near)
  · exact .served (succ_toNat_lt last) (.inr ⟨ahead, near⟩) (ask_of_ahead bounded after ahead near last)

/-! ## Requests in turn -/

variable {overruns : Nat} {done : List Nat}

theorem evicts_held {answer : MessageKey} {reached : Progress} (bounded : progress.Bounded)
    (asked : (c.held own progress).ask n = (.ok answer, c.held own reached)) (ahead : progress.index ≤ n.toNat)
    (crowd : Progress.limit < progress.kept.length + (n.toNat - progress.index)) : (c.held own progress).Evicts n := by
  have place : (c.link progress.index).iteration.toNat = progress.index := bounded.index_toNat
  refine ⟨_, answer, held_chainKey, congrArg Prod.fst asked, ?_, ?_⟩
  · rw [UInt32.le_iff_toNat_le, place]
    exact ahead
  · rw [place]
    exact Nat.lt_of_lt_of_eq crowd (by rw [held, List.length_map])

/-- After any requests each message has been served as often as it has had copies. -/
theorem tallied (own : Option PrivateKey) (requests : List UInt32) (tally : progress.Tally c.first overruns done) :
    ∃ reached : Progress, (c.held own progress).askAll requests = c.held own reached ∧
      reached.Tally c.first (overruns + (c.held own progress).overruns requests)
        (done ++ ((c.held own progress).served requests).map UInt32.toNat) ∧
      ∀ n key, (n, .ok key) ∈ (c.held own progress).outcomes requests → c.first ≤ n.toNat ∧ key = c.key n.toNat := by
  induction requests generalizing progress overruns done with
  | nil =>
    refine ⟨progress, rfl, ?_, nofun⟩
    simpa [SenderKeyState.served, SenderKeyState.overruns, SenderKeyState.outcomes] using tally
  | cons n rest ih =>
    cases asks tally.bounded tally.started own n with
    | served bound reaches asked =>
      obtain ⟨reached, stands, tally', keys⟩ := ih (tally.read reaches bound)
      rw [SenderKeyState.askAll_cons asked, SenderKeyState.overruns_cons asked, SenderKeyState.served_cons asked,
        SenderKeyState.outcomes_cons asked]
      refine ⟨reached, stands, ?_, fun m key member => ?_⟩
      · rwa [List.append_assoc] at tally'
      · rcases List.mem_cons.mp member with now | later
        · cases now
          exact ⟨tally.first_le reaches, rfl⟩
        · exact keys m key later
    | refused fault asked other =>
      obtain ⟨reached, stands, tally', keys⟩ := ih tally
      rw [SenderKeyState.askAll_cons asked, SenderKeyState.overruns_cons asked, SenderKeyState.served_cons asked,
        SenderKeyState.outcomes_cons asked, if_neg other]
      exact ⟨reached, stands, tally', fun m key member => keys m key ((List.mem_cons.mp member).resolve_left nofun)⟩
    | last asked =>
      obtain ⟨reached, stands, tally', keys⟩ := ih tally.overrun
      rw [SenderKeyState.askAll_cons asked, SenderKeyState.overruns_cons asked, SenderKeyState.served_cons asked,
        SenderKeyState.outcomes_cons asked, if_pos rfl]
      refine ⟨reached, stands, ?_, fun m key member => keys m key ((List.mem_cons.mp member).resolve_left nofun)⟩
      rwa [Nat.add_assoc, Nat.add_comm 1] at tally'

/-- As long as the last message of all has not been asked for near it, nothing is kept or served twice. -/
theorem in_order (own : Option PrivateKey) (requests : List UInt32) (since : progress.Since c.first done)
    (none : (c.held own progress).overruns requests = 0) :
    ∃ reached : Progress, (c.held own progress).askAll requests = c.held own reached ∧
      reached.Since c.first (done ++ ((c.held own progress).served requests).map UInt32.toNat) ∧
      ((c.held own progress).Roomy requests → reached.lost = progress.lost) := by
  induction requests generalizing progress done with
  | nil => exact ⟨progress, rfl, by simpa [SenderKeyState.served, SenderKeyState.outcomes] using since, fun _ => rfl⟩
  | cons n rest ih =>
    cases asks since.sound.toBounded since.started own n with
    | served bound reaches asked =>
      rw [SenderKeyState.overruns_cons asked, if_neg nofun] at none
      obtain ⟨reached, stands, since', nothing⟩ := ih (since.read reaches bound) none
      rw [SenderKeyState.askAll_cons asked, SenderKeyState.served_cons asked]
      refine ⟨reached, stands, ?_, fun roomy => ?_⟩
      · rwa [List.append_assoc] at since'
      · obtain ⟨room, roomy⟩ := roomy
        rw [asked] at roomy
        rw [nothing roomy]
        refine Progress.read_lost_of_room fun ahead => Nat.le_of_not_lt fun crowd => room ?_
        exact evicts_held since.sound.toBounded asked ahead crowd
    | refused fault asked other =>
      rw [SenderKeyState.overruns_cons asked, if_neg other] at none
      obtain ⟨reached, stands, since', nothing⟩ := ih since none
      rw [SenderKeyState.askAll_cons asked, SenderKeyState.served_cons asked]
      refine ⟨reached, stands, since', fun roomy => nothing ?_⟩
      have roomy := roomy.2
      rwa [asked] at roomy
    | last asked =>
      rw [SenderKeyState.overruns_cons asked, if_pos rfl] at none
      cases none

/-- If no seed had to be given up, the order in which keys were served makes no difference to what is left. -/
theorem askAll_eq_of_same_served (own : Option PrivateKey) {requests others : List UInt32}
    (since : progress.Since c.first done) (nothing : progress.lost = [])
    (none : (c.held own progress).overruns requests = 0) (others_none : (c.held own progress).overruns others = 0)
    (roomy : (c.held own progress).Roomy requests) (others_roomy : (c.held own progress).Roomy others)
    (same : ∀ n, n ∈ (c.held own progress).served requests ↔ n ∈ (c.held own progress).served others) :
    (c.held own progress).askAll requests = (c.held own progress).askAll others := by
  obtain ⟨reached, stands, since', nothing'⟩ := in_order own requests since none
  obtain ⟨other, other_stands, other_since, other_nothing⟩ := in_order own others since others_none
  have progress : reached = other := by
    refine since'.eq_of_nothing_lost other_since (fun n => ?_) ((nothing' roomy).trans nothing)
      ((other_nothing others_roomy).trans nothing)
    simp only [List.mem_append, List.mem_map, same]
  rw [stands, other_stands, progress]

/-! ## Standing -/

theorem standsAt {overruns : Nat} {done : List Nat} (tally : progress.Tally c.first overruns done) (own : Option PrivateKey) :
    c.StandsAt (.ofNat progress.index) (c.held own progress) := by
  have bounded := tally.bounded
  refine ⟨?_, ?_, fun kept member => ⟨?_, ?_⟩, ?_⟩
  · rw [held_chainKey, bounded.index_toNat]
    rfl
  · rw [UInt32.le_iff_toNat_le, bounded.index_toNat]
    exact tally.started
  · obtain ⟨m, kept, rfl⟩ := List.mem_map.mp member
    rw [c.stored_iteration, UInt32.le_iff_toNat_le, UInt32.toNat_ofNat_of_lt' (bounded.numbered m kept)]
    exact tally.kept m kept
  · exact bounded.kept_entry c.stored StoredSeed.iteration c.stored_iteration kept member
  · exact Nat.le_trans (Nat.le_of_eq (List.length_map _)) bounded.few

theorem orderly {requests : List UInt32} (since : progress.Since c.first (requests.map UInt32.toNat)) (own : Option PrivateKey) :
    (c.held own progress).Orderly (.ofNat progress.index) requests where
  rising := since.rising.numbers c.stored _ c.stored_iteration since.sound
  behind := since.sound.kept_behind c.stored StoredSeed.iteration c.stored_iteration
  distinct := List.Nodup.of_map _ since.distinct
  passed n member := (since.sound.lt_index_iff n).mpr (since.spent _ (List.mem_map_of_mem member)).1

theorem answers (bounded : progress.Bounded) (after : c.first ≤ progress.index) (own : Option PrivateKey) (n : UInt32) :
    c.Answers (.ofNat progress.index) (c.held own progress) n := by
  have place := bounded.index_toNat
  have behind_iff := bounded.lt_index_iff n
  have kept_iff := bounded.kept_iff c.stored StoredSeed.iteration c.stored_iteration n
  have passing (ahead : progress.index ≤ n.toNat) :
      (progress.read n.toNat).kept.map c.stored = c.passing (.ofNat progress.index) (c.held own progress) n := by
    rw [SenderChain.passing, place]
    exact Progress.map_read_kept c.stored ahead
  constructor
  case kept =>
    intro behind kept
    have rest := Progress.erase_kept c.stored StoredSeed.iteration c.stored_iteration bounded.numbered n.toNat_lt_size
    rw [UInt32.ofNat_toNat] at rest
    rw [ask_of_kept bounded after (behind_iff.mp behind) (kept_iff.mp kept), Progress.read_of_behind (behind_iff.mp behind),
      held, ← rest]
    rfl
  case repeated =>
    intro behind gone
    exact ask_of_spent bounded after ⟨behind_iff.mp behind, mt kept_iff.mpr gone⟩
  case ahead =>
    intro ahead near inner
    have ahead := (bounded.index_le_iff n).mp ahead
    rw [place] at near
    rw [ask_of_ahead bounded after ahead near inner, held, passing ahead, Progress.read_index_of_ahead (Nat.not_lt.mpr ahead),
      ← ofNat_toNat_succ n]
    rfl
  case far =>
    intro far
    rw [place] at far
    exact ask_of_far bounded far
  case last =>
    rintro rfl near
    rw [place] at near
    rw [ask_of_last bounded after near, held, ← passing (Nat.le_of_lt_succ bounded.index)]
    rfl

/-- Whoever gives up what a refused request leaves makes the progress of a reader. -/
theorem follows (c : SenderChain) (own : Option PrivateKey) (n : UInt32) :
    KeyRequests.Follows SenderKeyState.request (c.held own) c.key c.first maxSkip n := by
  intro progress sound after answer asked
  rw [SenderKeyState.request] at asked
  cases asks sound.toBounded after own n with
  | served bound reaches comes =>
    rw [comes] at asked
    cases asked
    exact ⟨bound, reaches, rfl⟩
  | refused fault comes =>
    rw [comes] at asked
    cases asked
  | last comes =>
    rw [comes] at asked
    cases asked

end SenderChain

end Group

/-- Requests in turn for the keys of messages of a sender's chain, each of which finds what the one before has left. Each
that is answered is answered with the key of that message; which are answered is decided by where the chain then stands and
which seeds it keeps. No key is served more than once, but for one more time for each request for the last message of all
that came near it and was refused. Without such a request what is kept stays in order, and if moreover no seeds had to be
given up, what is left is told from the set of the messages alone. Where what a refused request leaves is given up, no key
is served twice. -/
theorem serves_group_keys_within_window (c : SenderChain) (own : Option PrivateKey) (requests : List UInt32) :
    let begun := SenderKeyState.start c.keyId c.origin c.signingKey own
    let state := begun.askAll requests
    (∀ n key, (n, .ok key) ∈ begun.outcomes requests → c.origin.iteration ≤ n ∧
      key = (c.origin.advance (n.toNat - c.origin.iteration.toNat)).messageKey ∧ key.iteration = n) ∧
    (∀ n, (begun.served requests).count n ≤ 1 + begun.overruns requests) ∧
    (∃ place, c.StandsAt place state ∧ (begun.overruns requests = 0 → state.Orderly place (begun.served requests)) ∧
      ∀ n, c.Answers place state n) ∧
    (∀ others : List UInt32, begun.overruns requests = 0 → begun.overruns others = 0 → begun.Roomy requests →
      begun.Roomy others → (∀ n, n ∈ begun.served requests ↔ n ∈ begun.served others) → state = begun.askAll others) ∧
    (KeyRequests.served SenderKeyState.request begun requests).Nodup := by
  intro begun state
  have begun_eq : begun = c.held own { index := c.first } := (c.held_first own).symm
  have bound : c.first < UInt32.size := c.origin.iteration.toNat_lt_size
  obtain ⟨progress, stands, tally, keys⟩ := c.tallied own requests (.begun bound)
  rw [← begun_eq] at stands tally keys
  refine ⟨fun n key member => ?_, fun n => ?_, ⟨.ofNat progress.index, ?_⟩,
    fun others none others_none roomy others_roomy same => ?_, ?_⟩
  · obtain ⟨started, rfl⟩ := keys n key member
    rw [SenderChain.key]
    refine ⟨UInt32.le_iff_toNat_le.mpr started, ?_, UInt32.ofNat_toNat⟩
    rw [c.link_eq_advance started]
    rfl
  · have copies := tally.copies n.toNat
    rw [List.nil_append, List.count_map_of_injective _ _ (fun _ _ => UInt32.toNat_inj.mp)] at copies
    split at copies <;> omega
  · rw [show state = _ from stands]
    refine ⟨SenderChain.standsAt tally own, fun none => ?_, SenderChain.answers tally.bounded tally.started own⟩
    rw [begun_eq] at none
    obtain ⟨reached, stands', since, -⟩ := c.in_order own requests (.begun bound) none
    rw [← begun_eq] at stands' since
    rw [SenderChain.held_index (stands.symm.trans stands'), stands.symm.trans stands']
    exact SenderChain.orderly since own
  · show begun.askAll requests = _
    rw [begun_eq] at none others_none roomy others_roomy same ⊢
    exact SenderChain.askAll_eq_of_same_served own (.begun bound) rfl none others_none roomy others_roomy same
  · have noticed : KeyRequests.Noticed SenderKeyState.request (c.held own) fun _ _ => True := fun _ _ _ _ _ _ _ => trivial
    obtain ⟨_, _, since, _⟩ :=
      KeyRequests.after_standing (fun n (_ : n ∈ requests) => c.follows own n) noticed (.begun bound)
    rw [← begun_eq] at since
    exact List.Nodup.of_map _ since.distinct

namespace Sample

/-- A chain with one message left. -/
def nearlyRead : SenderChain := ⟨7, ⟨0xfffffffe, ⟨List.replicate 32 3, rfl⟩⟩, ⟨⟨List.replicate 32 4, rfl⟩⟩⟩

end Sample

/-- The last message of all is asked for, and refused; then the key of the message before is served, and served again. -/
theorem serves_twice_after_overrun :
    let begun := SenderKeyState.start Sample.nearlyRead.keyId Sample.nearlyRead.origin Sample.nearlyRead.signingKey none
    begun.outcomes [0xffffffff, 0xfffffffe, 0xfffffffe] = [(0xffffffff, Group.overrun),
      (0xfffffffe, .ok Sample.nearlyRead.origin.messageKey), (0xfffffffe, .ok Sample.nearlyRead.origin.messageKey)] ∧
    ¬ (begun.served [0xffffffff, 0xfffffffe, 0xfffffffe]).Nodup := by
  intro begun
  have begun_eq : begun = Sample.nearlyRead.held none { index := 0xfffffffe } := (Sample.nearlyRead.held_first none).symm
  have first : Sample.nearlyRead.first = 0xfffffffe := rfl
  have key : Sample.nearlyRead.key 0xfffffffe = Sample.nearlyRead.origin.messageKey :=
    congrArg ChainKey.messageKey Sample.nearlyRead.link_first
  have bounded : Progress.Bounded { index := 0xfffffffe } := (Progress.Sound.begun (by decide)).toBounded
  have passed : (Progress.read ⟨0xfffffffe, [0xfffffffe], []⟩ 0xfffffffe).Bounded := bounded.overrun.read (by decide)
  have refused : begun.ask 0xffffffff = (Group.overrun, Sample.nearlyRead.held none ⟨0xfffffffe, [0xfffffffe], []⟩) := by
    rw [begun_eq]
    exact SenderChain.ask_of_last bounded (Nat.le_of_eq first) (by decide)
  have served : (Sample.nearlyRead.held none ⟨0xfffffffe, [0xfffffffe], []⟩).ask 0xfffffffe =
      (.ok (Sample.nearlyRead.key 0xfffffffe), Sample.nearlyRead.held none ⟨0xffffffff, [0xfffffffe], []⟩) :=
    SenderChain.ask_of_ahead bounded.overrun (Nat.le_of_eq first) (by decide) (by decide) (by decide)
  have again : (Sample.nearlyRead.held none ⟨0xffffffff, [0xfffffffe], []⟩).ask 0xfffffffe =
      (.ok (Sample.nearlyRead.key 0xfffffffe), Sample.nearlyRead.held none ⟨0xffffffff, [], []⟩) :=
    SenderChain.ask_of_kept passed (Nat.le_succ_of_le (Nat.le_of_eq first)) (by decide) (by decide)
  have outcomes : begun.outcomes [0xffffffff, 0xfffffffe, 0xfffffffe] = [(0xffffffff, Group.overrun),
      (0xfffffffe, .ok Sample.nearlyRead.origin.messageKey), (0xfffffffe, .ok Sample.nearlyRead.origin.messageKey)] := by
    rw [SenderKeyState.outcomes_cons refused, SenderKeyState.outcomes_cons served, SenderKeyState.outcomes_cons again, key]
    rfl
  refine ⟨outcomes, ?_⟩
  rw [SenderKeyState.served, outcomes]
  simp [Group.overrun, Except.toOption]

end DoubleRatchet
