import DoubleRatchet.Proofs.Sessions.Invariant

/-! When one party moves in one session. The other party, and all other sessions, are where they were. -/
namespace DoubleRatchet

variable {c : Correspondence} {w : Setting} {g : Bytes → Standing} {count : Party → Nat} {thread : Thread} {party : Party}
  {s s' : Standing} {e e' : Correspondent} {drawn drawn' : Nat} {threads : List Thread}

/-! ## The other party -/

theorem SessionState.Engaged.moved {state : SessionState} {reads : List (PublicKey × UInt32)}
    (engaged : state.Engaged w thread s party.other reads) (moves : s.Moves s' (thread.role party)) :
    state.Engaged w thread s' party.other reads where
  stands := by
    have stands := engaged.stands
    rw [Thread.role_other] at stands ⊢
    exact stands.moved moves
  climbed := by
    have climbed := engaged.climbed
    rw [Thread.role_other] at climbed ⊢
    rw [moves.own, moves.others]
    exact climbed
  pending := engaged.pending.imp_left (And.imp_right moves.answered)

namespace Correspondent

theorem InSession.moved (session : e.InSession w thread s party.other) (moves : s.Moves s' (thread.role party)) :
    e.InSession w thread s' party.other := by
  cases session with
  | engaged state kept engaged => exact .engaged state kept (engaged.moved moves)
  | awaiting awaits =>
    have follower : (thread.role party).other = .responder := (thread.role_other party).symm.trans awaits.responds
    have own := moves.own
    have others := moves.others
    have place := moves.place
    rw [follower] at own others place
    refine .awaiting { awaits with unanswered := ?_, ground := own.trans awaits.ground, start := place.trans awaits.start }
    rw [Standing.Answered, others]
    exact awaits.unanswered

theorem Follows.moved (follows : e.Follows w thread s party.other drawn) (moves : s.Moves s' (thread.role party)) :
    e.Follows w thread s' party.other drawn := by
  have heard := follows.heard
  have place := follows.place
  have counted := follows.counted
  rw [Thread.role_other] at heard place counted
  refine ⟨?_, ?_, ?_, follows.session.moved moves⟩
  · rw [Thread.role_other, moves.heard]
    exact heard
  · rw [Thread.role_other, moves.place]
    exact place
  · rw [Thread.role_other, moves.count]
    exact counted

/-! ## Other sessions -/

/-- A party is where it was in a session as long as its states of that session are the same. -/
theorem Follows.spared (follows : e.Follows w thread s party drawn) (grown : drawn ≤ drawn')
    (reads : e'.reads thread.session = e.reads thread.session)
    (same : ∀ state : SessionState, state.baseKey = thread.session → (state ∈ e'.record.states ↔ state ∈ e.record.states)) :
    e'.Follows w thread s party drawn' where
  heard := by
    rw [reads]
    exact follows.heard
  place := follows.place
  counted := Nat.le_trans follows.counted grown
  session := by
    cases follows.session with
    | engaged state kept engaged =>
      refine .engaged state ((same state engaged.stands.baseKey).mpr kept) ?_
      rw [reads]
      exact engaged
    | awaiting awaits =>
      refine .awaiting { awaits with unread := reads.trans awaits.unread, none_kept := fun state kept session => ?_ }
      exact awaits.none_kept state ((same state session).mp kept) session

theorem Stands.spared (before : e.Stands w threads g party drawn) {k : Nat} (entropy : e'.entropy = e.entropy.skip k)
    (identity : e'.stores.identity = e.stores.identity)
    (trusting : e'.stores.Trusting e'.peer (w.identity party.other).publicKey) (record : e'.record = e.record)
    (reads : e'.reads = e.reads) : e'.Stands w threads g party (drawn + k) where
  drawn := entropy.trans (by rw [before.drawn, Entropy.skip_skip])
  identity := identity.trans before.identity
  trusting := trusting
  orderly := record ▸ before.orderly
  known := record ▸ before.known
  follows thread member := by
    refine (before.follows thread member).spared (Nat.le_add_right drawn k) (congrFun reads _) fun state _ => ?_
    rw [record]

/-- What becomes of a correspondent that has a new state of one session. -/
theorem Stands.turned {state : SessionState} (before : e.Stands w threads g party drawn) (member : thread ∈ threads)
    (distinct : (threads.map Thread.session).Nodup) (entropy : e'.entropy = (w.entropy party).skip drawn')
    (grown : drawn ≤ drawn') (identity : e'.stores.identity = e.stores.identity)
    (trusting : e'.stores.Trusting e'.peer (w.identity party.other).publicKey)
    (turns : e.record.Turns e'.record state) (session : state.baseKey = thread.session)
    (reads : ∀ other, other ≠ thread.session → e'.reads other = e.reads other)
    (follows : e'.Follows w thread s party drawn') :
    e'.Stands w threads (Function.update g thread.session s) party drawn' where
  drawn := entropy
  identity := identity.trans before.identity
  trusting := trusting
  orderly := turns.orderly
  known other kept := by
    by_cases same : other.baseKey = state.baseKey
    · exact ⟨thread, member, same.trans session⟩
    · exact before.known other ((turns.others other same).mp kept)
  follows other other_member := by
    by_cases same : other.session = thread.session
    · cases List.inj_on_of_nodup_map distinct other_member member same
      rw [Function.update_self]
      exact follows
    · rw [Function.update_of_ne same]
      refine (before.follows other other_member).spared grown (reads _ same) fun state' of_other => ?_
      exact turns.others state' fun of_thread => same (of_other.symm.trans (of_thread.trans session))

end Correspondent

/-! ## The session -/

/-- A party moves in a session, and what it climbs to is of the key pairs that it draws. -/
structure Thread.Climbs (thread : Thread) (w : Setting) (g g' : Standing) (party : Party) (count : Nat) : Prop where
  moves : g.Moves g' (thread.role party)
  climbed : g'.Climbed (thread.terms w)
  fresh : ∀ rung ∈ g'.rungs (thread.role party), rung ∈ g.rungs (thread.role party) ∨
    ∃ n, count ≤ n ∧ n < w.limit party ∧ rung.key = ((w.entropy party).pair n).publicKey

namespace Thread

theorem Stands.grown {count' : Party → Nat} (stands : thread.Stands w s count) (grown : ∀ party, count party ≤ count' party) :
    thread.Stands w s count' where
  offered := stands.offered
  base := by
    obtain ⟨n, lt, base⟩ := stands.base
    exact ⟨n, Nat.lt_of_lt_of_le lt (grown _), base⟩
  keyed := stands.keyed
  climbed := stands.climbed
  unoffered := stands.unoffered

theorem Climbs.others (climbs : thread.Climbs w s s' party drawn) : s'.rungs (thread.role party.other) =
    s.rungs (thread.role party.other) := by
  rw [role_other]
  exact climbs.moves.others

theorem Stands.climbs (stands : thread.Stands w s count) (sound : w.Sound) (climbs : thread.Climbs w s s' party drawn) :
    thread.Stands w s' count where
  offered := stands.offered
  base := stands.base
  keyed := stands.keyed
  climbed := climbs.climbed
  unoffered mover rung member offer offered := by
    rcases Party.eq_or_eq_other mover party with rfl | rfl
    · rcases climbs.fresh rung member with old | ⟨n, _, lt, key⟩
      · exact stands.unoffered _ rung old offer offered
      · rw [key]
        exact sound.unoffered _ offer n offered lt
    · exact stands.unoffered _ rung (climbs.others ▸ member) offer offered

end Thread

/-! ## The correspondence -/

/-- One party is another than before, and has sent a message if there is one `more`. -/
structure Correspondence.Changes (c c' : Correspondence) (party : Party) (e : Correspondent) (more : Option Letter) :
    Prop where
  threads : c'.threads = c.threads
  ends : c'.ends = Function.update c.ends party e
  sent : c'.sent = c.sent ++ more.toList
  delivered : ∀ place ∈ c.delivered, place ∈ c'.delivered
  read : ∀ session, ∀ heading ∈ e.reads session, ∃ place ∈ c'.delivered, ∃ letter, c.sent[place]? = some letter ∧
    letter.sender = party.other ∧ letter.session = session ∧ letter.heading? = some heading

theorem le_update {count : Party → Nat} (grown : count party ≤ drawn) (other : Party) :
    count other ≤ Function.update count party drawn other := by
  by_cases same : other = party
  · subst same
    rw [Function.update_self]
    exact grown
  · exact Nat.le_of_eq (Function.update_of_ne same _ _).symm

theorem Letter.Posted.moved {letter : Letter} {inner : RatchetMessage} {rung : Rung} {n : Nat} {other : Thread}
    (posted : letter.Posted w threads g other inner rung n) (distinct : (threads.map Thread.session).Nodup)
    (member : thread ∈ threads) (moves : (g thread.session).Moves s (thread.role party)) :
    letter.Posted w threads (Function.update g thread.session s) other inner rung n where
  member := posted.member
  session := posted.session
  posted := by
    by_cases same : other.session = thread.session
    · cases List.inj_on_of_nodup_map distinct posted.member member same
      rw [Function.update_self]
      exact posted.posted.moved moves
    · rw [Function.update_of_ne same]
      exact posted.posted

namespace Correspondence.Stands

/-- The rungs of a session when a party has moved there: those it had, and one perhaps with a key that it has drawn. -/
theorem apart_of_fresh (stands : c.Stands w g count) {rung : Rung} {n : Nat} (le : count party ≤ n) (lt : n < w.limit party)
    (drawn : rung.key = ((w.entropy party).pair n).publicKey) {other : Thread} (member : other ∈ c.threads) :
    ∀ below ∈ (g other.session).rungs (other.role party), rung.key ≠ below.key := by
  intro below climbed same
  have counted := Nat.le_trans ((stands.ends party).follows other member).counted le
  have fresh := (stands.threads other member).climbed.fresh (other.role party) below (List.mem_append_left _ climbed) n counted
  simp only [Thread.terms, Thread.party_role] at fresh
  exact fresh lt (same.symm.trans drawn)

theorem read_of_changes {c' : Correspondence} {more : Option Letter} (stands : c.Stands w g count)
    (changes : c.Changes c' party e more) (other : Party) (session : Bytes) (heading : PublicKey × UInt32)
    (member : heading ∈ (c'.ends other).reads session) : ∃ place ∈ c'.delivered, ∃ letter,
      c'.sent[place]? = some letter ∧ letter.sender = other.other ∧ letter.session = session ∧
        letter.heading? = some heading := by
  have before : ∃ place ∈ c'.delivered, ∃ letter, c.sent[place]? = some letter ∧ letter.sender = other.other ∧
      letter.session = session ∧ letter.heading? = some heading := by
    rw [changes.ends] at member
    rcases Party.eq_or_eq_other other party with rfl | rfl
    · rw [Function.update_self] at member
      exact changes.read session heading member
    · rw [Function.update_of_ne (Party.other_ne party)] at member
      obtain ⟨place, was_delivered, found⟩ := stands.read party.other session heading member
      exact ⟨place, changes.delivered place was_delivered, found⟩
  obtain ⟨place, was_delivered, letter, found, rest⟩ := before
  refine ⟨place, was_delivered, letter, ?_, rest⟩
  rw [changes.sent, List.getElem?_append_left (List.getElem?_eq_some_iff.mp found).1]
  exact found

/-- As long as the party has read nothing. -/
theorem changes {c' : Correspondence} {more : Option Letter} (stands : c.Stands w g count) (begun : c'.threads = c.threads)
    (ends : c'.ends = Function.update c.ends party e) (sent : c'.sent = c.sent ++ more.toList)
    (delivered : ∀ place ∈ c.delivered, place ∈ c'.delivered) (reads : e.reads = (c.ends party).reads) :
    c.Changes c' party e more where
  threads := begun
  ends := ends
  sent := sent
  delivered := delivered
  read session heading member := by
    rw [reads] at member
    obtain ⟨place, was_delivered, found⟩ := stands.read party session heading member
    exact ⟨place, delivered place was_delivered, found⟩

section Moved

variable (stands : c.Stands w g count) (member : thread ∈ c.threads)
  (climbs : thread.Climbs w (g thread.session) s party (count party))

include stands member climbs

/-- The rungs of a session in which a party has moved have other keys than those of any other session. -/
theorem apart_of_climbs {mover : Party} {other : Thread} (other_member : other ∈ c.threads)
    (differ : other.session ≠ thread.session) {rung below : Rung} (rung_member : rung ∈ s.rungs (thread.role mover))
    (below_member : below ∈ (g other.session).rungs (other.role mover)) : rung.key ≠ below.key := by
  rcases Party.eq_or_eq_other mover party with rfl | rfl
  · rcases climbs.fresh rung rung_member with old | ⟨n, le, lt, key⟩
    · exact stands.apart thread member other other_member differ.symm _ rung old below below_member
    · exact stands.apart_of_fresh le lt key other_member below below_member
  · rw [climbs.others] at rung_member
    exact stands.apart thread member other other_member differ.symm _ rung rung_member below below_member

theorem apart_moved : ∀ a ∈ c.threads, ∀ b ∈ c.threads, a.session ≠ b.session → ∀ mover,
    ∀ rung ∈ (Function.update g thread.session s a.session).rungs (a.role mover),
    ∀ other ∈ (Function.update g thread.session s b.session).rungs (b.role mover), rung.key ≠ other.key := by
  intro a a_member b b_member differ mover rung rung_member other other_member
  -- Of the two sessions at most one is that in which the party has moved.
  by_cases a_moved : a.session = thread.session
  · cases stands.same_thread a_member member a_moved
    rw [Function.update_self] at rung_member
    rw [Function.update_of_ne differ.symm] at other_member
    exact stands.apart_of_climbs member climbs b_member differ.symm rung_member other_member
  · rw [Function.update_of_ne a_moved] at rung_member
    by_cases b_moved : b.session = thread.session
    · cases stands.same_thread b_member member b_moved
      rw [Function.update_self] at other_member
      exact fun same => stands.apart_of_climbs member climbs a_member differ other_member rung_member same.symm
    · rw [Function.update_of_ne b_moved] at other_member
      exact stands.apart a a_member b b_member differ mover rung rung_member other other_member

/-- The other party is where it was. -/
theorem other_moved : (c.ends party.other).Stands w c.threads (Function.update g thread.session s) party.other
    (count party.other) := by
  have before := stands.ends party.other
  refine ⟨before.drawn, before.identity, before.trusting, before.orderly, before.known, fun other other_member => ?_⟩
  have follows := before.follows other other_member
  by_cases same : other.session = thread.session
  · cases stands.same_thread other_member member same
    rw [Function.update_self]
    exact follows.moved climbs.moves
  · rw [Function.update_of_ne same]
    exact follows

/-- When a party has moved in one session, and it may have sent a message, the correspondence stands. -/
theorem moved {c' : Correspondence} {more : Option Letter} (sound : w.Sound) (grown : count party ≤ drawn)
    (here : e.Stands w c.threads (Function.update g thread.session s) party drawn) (changes : c.Changes c' party e more)
    (posted : ∀ letter ∈ more, ∃ thread' inner rung n,
      letter.Posted w c.threads (Function.update g thread.session s) thread' inner rung n)
    (headings : ∀ letter ∈ more, ∀ a ∈ c.sent, a.sender = letter.sender → a.session = letter.session →
      a.heading? ≠ letter.heading?) :
    c'.Stands w (Function.update g thread.session s) (Function.update count party drawn) where
  threads other other_member := by
    rw [changes.threads] at other_member
    have before := (stands.threads other other_member).grown (le_update grown)
    by_cases same : other.session = thread.session
    · cases stands.same_thread other_member member same
      rw [Function.update_self]
      exact before.climbs sound climbs
    · rw [Function.update_of_ne same]
      exact before
  distinct := changes.threads ▸ stands.distinct
  apart := changes.threads ▸ stands.apart_moved member climbs
  ends other := by
    rw [changes.ends, changes.threads]
    rcases Party.eq_or_eq_other other party with rfl | rfl
    · rw [Function.update_self, Function.update_self]
      exact here
    · rw [Function.update_of_ne (Party.other_ne party), Function.update_of_ne (Party.other_ne party)]
      exact stands.other_moved member climbs
  posted letter letter_member := by
    rw [changes.sent] at letter_member
    rw [changes.threads]
    rcases List.mem_append.mp letter_member with old | new
    · obtain ⟨other, inner, rung, n, posted⟩ := stands.posted letter old
      exact ⟨other, inner, rung, n, posted.moved stands.distinct member climbs.moves⟩
    · exact posted letter (Option.mem_toList.mp new)
  headings := by
    rw [changes.sent]
    refine List.pairwise_append.mpr ⟨stands.headings, ?_, fun a old b new => headings b (Option.mem_toList.mp new) a old⟩
    cases more with
    | none => exact List.Pairwise.nil
    | some letter => exact List.pairwise_singleton _ _
  read := stands.read_of_changes changes

end Moved

/-- When nothing has changed but how many key pairs a party has drawn, and what it holds besides sessions, the
correspondence stands. -/
theorem spared {c' : Correspondence} (stands : c.Stands w g count) (grown : count party ≤ drawn)
    (here : e.Stands w c.threads g party drawn) (changes : c.Changes c' party e none) :
    c'.Stands w g (Function.update count party drawn) where
  threads thread member := (stands.threads thread (changes.threads ▸ member)).grown (le_update grown)
  distinct := changes.threads ▸ stands.distinct
  apart := changes.threads ▸ stands.apart
  ends other := by
    rw [changes.ends, changes.threads]
    rcases Party.eq_or_eq_other other party with rfl | rfl
    · rw [Function.update_self, Function.update_self]
      exact here
    · rw [Function.update_of_ne (Party.other_ne party), Function.update_of_ne (Party.other_ne party)]
      exact stands.ends party.other
  posted := by
    rw [changes.sent, changes.threads, Option.toList_none, List.append_nil]
    exact stands.posted
  headings := by
    rw [changes.sent, Option.toList_none, List.append_nil]
    exact stands.headings
  read := stands.read_of_changes changes

end Correspondence.Stands

end DoubleRatchet
