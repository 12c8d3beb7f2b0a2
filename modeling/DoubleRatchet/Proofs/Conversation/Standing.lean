import DoubleRatchet.Proofs.Conversation.Ends
import DoubleRatchet.Proofs.Conversation.Exchange

/-! Where a conversation stands. Of the two sides one, the leader, has climbed last; the other is on the rung below, and
climbs above when it reads the first message of the leader's rung. Each side tracks the rungs of the other that it has
heard of: all of them, or all but the leader's last. -/
namespace DoubleRatchet

/-- What a conversation begins from: the identities, the randomness of both sides and how much of it they draw, the rung
that the bundle stands for, and what the initiator announces until it is answered. -/
structure Terms where
  identity : Side → PublicKey
  entropy : Side → Entropy
  limit : Side → Nat
  keys : Side → KeyPair → Prop
  base : Rung
  offer : PendingPreKey

namespace Terms

/-- The key pairs of one side agree with those of the other, and those that it draws differ; and what the initiator
announces can be stored. -/
structure Sound (t : Terms) : Prop where
  agrees : ∀ side a b, t.keys side a → t.keys side.other b → a.Agrees b
  drawn : ∀ side n, n < t.limit side → t.keys side ((t.entropy side).pair n)
  apart : ∀ side m n, m < t.limit side → n < t.limit side →
    ((t.entropy side).pair m).publicKey = ((t.entropy side).pair n).publicKey → m = n
  offer : (StoredPendingPreKey.ofPending t.offer).load = .ok t.offer

/-- The rung that a side is on without having climbed: it sends no message there. -/
def floor (t : Terms) : Side → List Rung
  | .initiator => []
  | .responder => [t.base]

def opening (t : Terms) (registrationId : UInt32) (inner : RatchetMessage) : PreKeyMessage :=
  .create 3 registrationId t.offer.preKeyId t.offer.signedPreKeyId t.offer.baseKey (t.identity .initiator) inner

end Terms

/-- How far both sides have come: for each the rung it is on, the rungs it has climbed, the latest first, the number of
its next message and how many key pairs it has drawn; and who has climbed last. -/
structure Standing where
  own : Side → Rung
  rungs : Side → List Rung
  place : Side → Nat
  count : Side → Nat
  leader : Side

namespace Standing

/-- The rungs of the other side that a side has heard of. -/
def heard (g : Standing) (side : Side) : List Rung :=
  if side = g.leader then g.rungs side.other else (g.rungs side.other).tail

def known (g : Standing) (t : Terms) (side : Side) : List Rung := g.heard side ++ t.floor side.other

def Answered (g : Standing) : Prop := g.rungs .responder ≠ []

/-- Nothing is known of a rung before it is climbed, and the leader's is above that of the other side. -/
structure Climbed (g : Standing) (t : Terms) : Prop where
  above : g.own g.leader = (g.own g.leader.other).next (g.own g.leader).pair
  agrees : (g.own g.leader.other).pair.Agrees (g.own g.leader).pair
  top : ∃ earlier, g.rungs g.leader = g.own g.leader :: earlier
  apart : ∀ side, ((g.rungs side ++ t.floor side).map Rung.key).Nodup
  fresh : ∀ side, ∀ rung ∈ g.rungs side ++ t.floor side, ∀ n, g.count side ≤ n → n < t.limit side →
    rung.key ≠ ((t.entropy side).pair n).publicKey
  keys : ∀ side, t.keys side (g.own side).pair

def post (g : Standing) (side : Side) : Standing := { g with place := Function.update g.place side (g.place side + 1) }

def draw (g : Standing) (side : Side) (n : Nat) : Standing := { g with count := Function.update g.count side (g.count side + n) }

def climb (g : Standing) (side : Side) (fresh : KeyPair) : Standing where
  own := Function.update g.own side ((g.own side.other).next fresh)
  rungs := Function.update g.rungs side ((g.own side.other).next fresh :: g.rungs side)
  place := Function.update g.place side 0
  count := Function.update g.count side (g.count side + 1)
  leader := side

variable {g : Standing} {t : Terms} {side : Side} {fresh : KeyPair}

theorem Climbed.post (climbed : g.Climbed t) (side : Side) : (g.post side).Climbed t :=
  ⟨climbed.above, climbed.agrees, climbed.top, climbed.apart, climbed.fresh, climbed.keys⟩

theorem count_le_draw (g : Standing) (side other : Side) (n : Nat) : g.count other ≤ (g.draw side n).count other := by
  by_cases same : other = side
  · subst same
    simp only [draw, Function.update_self]
    exact Nat.le_add_right _ _
  · simp only [draw, Function.update_of_ne same, Nat.le_refl]

theorem Climbed.draw (climbed : g.Climbed t) (side : Side) (n : Nat) : (g.draw side n).Climbed t where
  above := climbed.above
  agrees := climbed.agrees
  top := climbed.top
  apart := climbed.apart
  fresh other rung member m le := climbed.fresh other rung member m (Nat.le_trans (g.count_le_draw side other n) le)
  keys := climbed.keys

theorem mem_of_heard {rung : Rung} (member : rung ∈ g.heard side) : rung ∈ g.rungs side.other := by
  unfold heard at member
  split at member
  · exact member
  · exact List.mem_of_mem_tail member

/-- A rung of the other side is one that a side has heard of, or the one that the other side has climbed last. -/
theorem Climbed.heard_or_top (climbed : g.Climbed t) {rung : Rung} (member : rung ∈ g.rungs side.other) :
    rung ∈ g.heard side ∨ g.leader = side.other ∧ rung = g.own g.leader := by
  unfold heard
  split
  · exact .inl member
  · rename_i follows
    have leads : g.leader = side.other := (Side.eq_or_eq_other g.leader side).resolve_left fun same => follows same.symm
    obtain ⟨earlier, top⟩ := climbed.top
    have top : g.rungs side.other = g.own g.leader :: earlier := leads ▸ top
    rw [top] at member ⊢
    rcases List.mem_cons.mp member with rfl | member
    · exact .inr ⟨leads, rfl⟩
    · exact .inl member

theorem Climbed.top_unknown (climbed : g.Climbed t) (leads : g.leader = side.other) :
    (g.own g.leader).key ∉ (g.known t side).map Rung.key := by
  obtain ⟨earlier, top⟩ := climbed.top
  have apart := climbed.apart g.leader
  have follows : side ≠ g.leader := fun same => Side.other_ne side (leads.symm.trans same.symm)
  rw [top, List.cons_append, List.map_cons] at apart
  rw [known, heard, if_neg follows, ← leads, top]
  exact (List.nodup_cons.mp apart).1

theorem Climbed.above_own (climbed : g.Climbed t) (leads : g.leader = side.other) :
    g.own g.leader = (g.own side).next (g.own g.leader).pair ∧ (g.own side).pair.Agrees (g.own g.leader).pair := by
  have above := climbed.above
  have agrees := climbed.agrees
  have follower : g.leader.other = side := by rw [leads, Side.other_other]
  rw [follower] at above agrees
  exact ⟨above, agrees⟩

/-! ## Climbing -/

theorem climb_heard_self (climbed : g.Climbed t) (leads : g.leader = side.other) :
    (g.climb side fresh).heard side = g.own g.leader :: g.heard side := by
  obtain ⟨earlier, top⟩ := climbed.top
  have top : g.rungs side.other = g.own g.leader :: earlier := leads ▸ top
  have follows : side ≠ g.leader := fun same => Side.other_ne side (leads.symm.trans same.symm)
  simp only [heard, climb, Function.update_of_ne (Side.other_ne side), if_pos, if_neg follows, top, List.tail_cons]

theorem climb_heard_other (leads : g.leader = side.other) : (g.climb side fresh).heard side.other = g.heard side.other := by
  simp only [heard, climb, if_neg (Side.other_ne side), Side.other_other, Function.update_self, List.tail_cons,
    if_pos leads.symm]

theorem Climbed.climb (climbed : g.Climbed t) (sound : t.Sound) (bound : g.count side < t.limit side)
    (drawn : fresh = (t.entropy side).pair (g.count side)) : (g.climb side fresh).Climbed t where
  above := by
    simp only [Standing.climb, Function.update_self, Function.update_of_ne (Side.other_ne side)]
    rfl
  agrees := by
    simp only [Standing.climb, Function.update_self, Function.update_of_ne (Side.other_ne side)]
    refine sound.agrees side.other _ _ (climbed.keys side.other) ?_
    rw [Side.other_other]
    exact drawn ▸ sound.drawn side _ bound
  top := ⟨g.rungs side, by simp only [Standing.climb, Function.update_self]⟩
  apart other := by
    by_cases same : other = side
    · subst same
      simp only [Standing.climb, Function.update_self, List.cons_append, List.map_cons]
      refine List.nodup_cons.mpr ⟨fun member => ?_, climbed.apart other⟩
      obtain ⟨rung, rung_member, key⟩ := List.mem_map.mp member
      exact climbed.fresh other rung rung_member _ (Nat.le_refl _) bound (key.trans (congrArg KeyPair.publicKey drawn))
    · simp only [Standing.climb, Function.update_of_ne same]
      exact climbed.apart other
  fresh other rung member n le lt := by
    by_cases same : other = side
    · subst same
      simp only [Standing.climb, Function.update_self, List.cons_append] at member le
      rcases List.mem_cons.mp member with rfl | member
      · intro key
        have := sound.apart other _ n bound lt ((congrArg KeyPair.publicKey drawn).symm.trans key)
        omega
      · exact climbed.fresh other rung member n (by omega) lt
    · simp only [Standing.climb, Function.update_of_ne same] at member le
      exact climbed.fresh other rung member n le lt
  keys other := by
    by_cases same : other = side
    · subst same
      simp only [Standing.climb, Function.update_self]
      exact drawn ▸ sound.drawn other _ bound
    · simp only [Standing.climb, Function.update_of_ne same]
      exact climbed.keys other

/-! ## Reading

The rungs that a side has heard of are those that it has read messages of. -/

theorem heads_of_heard {reads : List (PublicKey × UInt32)} {heading : PublicKey × UInt32} {rung : Rung}
    (heads : (g.heard side).map Rung.key = chains reads) (heard : rung ∈ g.heard side) (key : heading.1 = rung.key) :
    (g.heard side).map Rung.key = chains (heading :: reads) := by
  have known : heading.1 ∈ chains reads := by
    rw [← heads, key]
    exact List.mem_map_of_mem heard
  rw [chains, if_pos known]
  exact heads

theorem Climbed.climb_heads {reads : List (PublicKey × UInt32)} {heading : PublicKey × UInt32} (climbed : g.Climbed t)
    (leads : g.leader = side.other) (heads : (g.heard side).map Rung.key = chains reads)
    (key : heading.1 = (g.own g.leader).key) :
    ((g.climb side fresh).heard side).map Rung.key = chains (heading :: reads) := by
  have unknown : heading.1 ∉ chains reads := by
    rw [← heads, key]
    intro member
    refine climbed.top_unknown leads ?_
    rw [known, List.map_append]
    exact List.mem_append_left _ member
  rw [chains, if_neg unknown, ← heads, climb_heard_self climbed leads, key]
  rfl

theorem climb_rungs (g : Standing) (side : Side) (fresh : KeyPair) :
    (g.climb side fresh).rungs side = (g.own side.other).next fresh :: g.rungs side :=
  Function.update_self ..

theorem climb_rungs_other (g : Standing) (side : Side) (fresh : KeyPair) :
    (g.climb side fresh).rungs side.other = g.rungs side.other :=
  Function.update_of_ne (Side.other_ne side) _ _

/-- A side climbs on a message of the other, so that the session is answered then. -/
theorem Climbed.climb_answered (climbed : g.Climbed t) (leads : g.leader = side.other) : (g.climb side fresh).Answered := by
  cases side with
  | responder => exact (g.climb_rungs .responder fresh).trans_ne (List.cons_ne_nil _ _)
  | initiator =>
    obtain ⟨earlier, top⟩ := climbed.top
    rw [leads] at top
    exact ((g.climb_rungs_other .initiator fresh).trans top).trans_ne (List.cons_ne_nil _ _)

/-! ## Moves -/

/-- One side has moved: what it had climbed stays climbed, and the other side is where it was. -/
structure Moves (g g' : Standing) (side : Side) : Prop where
  own : g'.own side.other = g.own side.other
  others : g'.rungs side.other = g.rungs side.other
  place : g'.place side.other = g.place side.other
  count : g'.count side.other = g.count side.other
  heard : g'.heard side.other = g.heard side.other
  rungs : ∀ rung ∈ g.rungs side, rung ∈ g'.rungs side
  ahead : ∀ rung ∈ g.rungs side, rung = g'.own side → rung = g.own side ∧ g.place side ≤ g'.place side

theorem Moves.refl (g : Standing) (side : Side) : g.Moves g side :=
  ⟨rfl, rfl, rfl, rfl, rfl, fun _ member => member, fun _ _ same => ⟨same, Nat.le_refl _⟩⟩

theorem post_moves (g : Standing) (side : Side) : g.Moves (g.post side) side where
  own := rfl
  others := rfl
  place := Function.update_of_ne (Side.other_ne side) _ _
  count := rfl
  heard := rfl
  rungs _ member := member
  ahead _ _ same := ⟨same, by simp only [post, Function.update_self, Nat.le_succ]⟩

theorem draw_moves (g : Standing) (side : Side) (n : Nat) : g.Moves (g.draw side n) side where
  own := rfl
  others := rfl
  place := rfl
  count := Function.update_of_ne (Side.other_ne side) _ _
  heard := rfl
  rungs _ member := member
  ahead _ _ same := ⟨same, Nat.le_refl _⟩

theorem Climbed.climb_moves (climbed : (g.climb side fresh).Climbed t) (leads : g.leader = side.other) :
    g.Moves (g.climb side fresh) side where
  own := Function.update_of_ne (Side.other_ne side) _ _
  others := Function.update_of_ne (Side.other_ne side) _ _
  place := Function.update_of_ne (Side.other_ne side) _ _
  count := Function.update_of_ne (Side.other_ne side) _ _
  heard := climb_heard_other leads
  rungs rung member := by
    simp only [Standing.climb, Function.update_self]
    exact List.mem_cons_of_mem _ member
  ahead rung member same := by
    -- The new rung has a key that no rung before it has.
    have apart := climbed.apart side
    simp only [Standing.climb, Function.update_self, List.cons_append, List.map_cons] at apart same
    refine absurd ?_ (List.nodup_cons.mp apart).1
    rw [← same]
    exact List.mem_map_of_mem (List.mem_append_left _ member)

namespace Moves

variable {g g' : Standing} {side : Side}

theorem mem_rungs (moves : g.Moves g' side) (other : Side) : ∀ rung ∈ g.rungs other, rung ∈ g'.rungs other := by
  rcases Side.eq_or_eq_other other side with rfl | rfl
  · exact moves.rungs
  · intro rung member
    rw [moves.others]
    exact member

theorem answered (moves : g.Moves g' side) (answered : g.Answered) : g'.Answered := by
  obtain ⟨rung, member⟩ := List.exists_mem_of_ne_nil _ answered
  exact List.ne_nil_of_mem (moves.mem_rungs .responder rung member)

theorem placed (moves : g.Moves g' side) (other : Side) {rung : Rung} (member : rung ∈ g.rungs other)
    (same : rung = g'.own other) : rung = g.own other ∧ g.place other ≤ g'.place other := by
  rcases Side.eq_or_eq_other other side with rfl | rfl
  · exact moves.ahead rung member same
  · rw [moves.own] at same
    exact ⟨same, Nat.le_of_eq moves.place.symm⟩

theorem trans {g'' : Standing} (first : g.Moves g' side) (second : g'.Moves g'' side) : g.Moves g'' side where
  own := second.own.trans first.own
  others := second.others.trans first.others
  place := second.place.trans first.place
  count := second.count.trans first.count
  heard := second.heard.trans first.heard
  rungs rung member := second.rungs rung (first.rungs rung member)
  ahead rung member same := by
    obtain ⟨before, later⟩ := second.ahead rung (first.rungs rung member) same
    obtain ⟨own, earlier⟩ := first.ahead rung member before
    exact ⟨own, Nat.le_trans earlier later⟩

end Moves

end Standing

end DoubleRatchet
