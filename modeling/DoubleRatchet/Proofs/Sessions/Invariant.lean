import DoubleRatchet.Proofs.Sessions.Threads

/-! What holds throughout a correspondence. Of each session both parties have at most one state, which tracks the climb;
the rungs of different sessions have different keys, so that no message is on a chain of another session than its own. -/
namespace DoubleRatchet

/-- The letter as a message of the conversation that its session is. -/
def Letter.on (letter : Letter) (thread : Thread) : Sent where
  sender := thread.role letter.sender
  message := letter.message
  plaintext := letter.plaintext

/-- The state of a party that has climbed: it announces the session, if the party has begun it, until it is answered. -/
structure SessionState.Engaged (state : SessionState) (w : Setting) (thread : Thread) (g : Standing) (party : Party)
    (reads : List (PublicKey × UInt32)) : Prop where
  stands : state.Stands (thread.terms w) g (thread.role party) reads
  climbed : g.own (thread.role party) ∈ g.rungs (thread.role party)
  pending : state.pendingPreKey = none ∧ g.Answered ∨
    thread.role party = .initiator ∧ state.pendingPreKey = some (.ofPending thread.pending)

/-- The other party has begun the session, and no message of it has come yet. -/
structure Correspondent.Awaits (e : Correspondent) (w : Setting) (thread : Thread) (g : Standing) (party : Party) :
    Prop where
  responds : thread.role party = .responder
  unanswered : ¬ g.Answered
  unread : e.reads thread.session = []
  none_kept : ∀ state ∈ e.record.states, state.baseKey ≠ thread.session
  ground : g.own .responder = thread.floor w
  start : g.place .responder = 0

/-- What a correspondent has of a session: a state, or nothing yet. -/
inductive Correspondent.InSession (e : Correspondent) (w : Setting) (thread : Thread) (g : Standing) (party : Party) : Prop
  | engaged (state : SessionState) (kept : state ∈ e.record.states)
    (engaged : state.Engaged w thread g party (e.reads thread.session))
  | awaiting (awaits : e.Awaits w thread g party)

structure Correspondent.Follows (e : Correspondent) (w : Setting) (thread : Thread) (g : Standing) (party : Party)
    (count : Nat) : Prop where
  heard : (g.heard (thread.role party)).map Rung.key = chains (e.reads thread.session)
  place : g.place (thread.role party) < UInt32.size
  counted : g.count (thread.role party) ≤ count
  session : e.InSession w thread g party

/-- A correspondent that has drawn `count` key pairs has its part of each session, and its record nothing else. -/
structure Correspondent.Stands (e : Correspondent) (w : Setting) (threads : List Thread) (g : Bytes → Standing)
    (party : Party) (count : Nat) : Prop where
  drawn : e.entropy = (w.entropy party).skip count
  identity : e.stores.identity = w.identity party
  trusting : e.stores.Trusting e.peer (w.identity party.other).publicKey
  orderly : e.record.Orderly
  known : ∀ state ∈ e.record.states, ∃ thread ∈ threads, state.baseKey = thread.session
  follows : ∀ thread ∈ threads, e.Follows w thread (g thread.session) party count

structure Thread.Stands (thread : Thread) (w : Setting) (g : Standing) (count : Party → Nat) : Prop where
  offered : w.offered thread.starter.other thread.offer
  base : ∃ n < count thread.starter, thread.base = (w.entropy thread.starter).pair n
  keyed : w.keys thread.starter thread.base
  climbed : g.Climbed (thread.terms w)
  unoffered : ∀ party, ∀ rung ∈ g.rungs (thread.role party), ∀ offer, w.offered party offer →
    rung.key ≠ offer.signedPreKey.publicKey

/-- A message of a session, on a rung of its sender. -/
structure Letter.Posted (letter : Letter) (w : Setting) (threads : List Thread) (g : Bytes → Standing) (thread : Thread)
    (inner : RatchetMessage) (rung : Rung) (n : Nat) : Prop where
  member : thread ∈ threads
  session : letter.session = thread.session
  posted : (letter.on thread).Posted (thread.terms w) (g thread.session) (thread.role letter.sender.other) inner rung n

/-- What holds of a correspondence at all times, when each session stands where `g` says and each party has drawn as many
key pairs as `count` says. -/
structure Correspondence.Stands (c : Correspondence) (w : Setting) (g : Bytes → Standing) (count : Party → Nat) : Prop where
  threads : ∀ thread ∈ c.threads, thread.Stands w (g thread.session) count
  distinct : (c.threads.map Thread.session).Nodup
  apart : ∀ a ∈ c.threads, ∀ b ∈ c.threads, a.session ≠ b.session → ∀ party, ∀ rung ∈ (g a.session).rungs (a.role party),
    ∀ other ∈ (g b.session).rungs (b.role party), rung.key ≠ other.key
  ends : ∀ party, (c.ends party).Stands w c.threads g party (count party)
  posted : ∀ letter ∈ c.sent, ∃ thread inner rung n, letter.Posted w c.threads g thread inner rung n
  headings : c.sent.Pairwise fun a b => a.sender = b.sender → a.session = b.session → a.heading? ≠ b.heading?
  read : ∀ party session, ∀ heading ∈ (c.ends party).reads session, ∃ place ∈ c.delivered, ∃ letter,
    c.sent[place]? = some letter ∧ letter.sender = party.other ∧ letter.session = session ∧
      letter.heading? = some heading

/-- The record that a message of the other is tried on. -/
abbrev Correspondent.Tries (e : Correspondent) (message : Message) (record : SessionRecord) : Prop :=
  e.stores.Tries e.peer message record

/-- A state that a message is tried on and is not meant for: it is of another session, or has lost the chain of the
message, or was built for it from other keys than those that were offered. -/
inductive Correspondence.Stranger (c : Correspondence) (letter : Letter) (state : SessionState) : Prop
  | other (differs : state.baseKey ≠ letter.session)
  | pushedOut (inner : RatchetMessage) (carried : letter.message.inner? = some inner)
    (pushed_out : inner.ratchetKey ∈ (chains ((c.receiver letter).reads letter.session)).drop 5)
  | unheld (new : state ∉ (c.receiver letter).record.states)
    (unheld : ∀ thread ∈ c.threads, thread.session = letter.session → ¬ thread.offer.Held (c.receiver letter).stores)

/-- The message at a place, wherever it is tried, is mistaken by no state that it is not meant for. -/
def Correspondence.Unmistaken (c : Correspondence) (place : Nat) : Prop :=
  ∀ letter inner record state, c.sent[place]? = some letter → letter.message.inner? = some inner →
    (c.receiver letter).Tries letter.message record → state ∈ record.states → c.Stranger letter state → ¬ state.Mistakes inner

/-- A message does not concern the state: it is not read, nor taken for a repetition. -/
structure SessionState.Silent (state : SessionState) (message : RatchetMessage) : Prop where
  unread : ¬ state.Reads message
  unrepeated : ∀ fresh index counter, state.read message fresh ≠ .error (.duplicate index counter)

theorem SessionState.Formed.silent {state : SessionState} {own remote : PublicKey} {pair : KeyPair} {root : RootKey}
    {place : ChainKey} {message : RatchetMessage} (formed : state.Formed own remote pair root place)
    (missing : state.receivingChain? message.ratchetKey = none) (unmistaken : ¬ state.Mistakes message) :
    state.Silent message where
  unread := fun ⟨fresh, opened, run⟩ => formed.refuses_missing missing unmistaken fresh opened run
  unrepeated := formed.read_ne_duplicate_of_missing missing

variable {c : Correspondence} {w : Setting} {g g' : Bytes → Standing} {count : Party → Nat} {letter : Letter}
  {thread : Thread} {inner : RatchetMessage} {rung : Rung} {n : Nat} {party : Party}

namespace Letter.Posted

variable {threads : List Thread}

theorem heading? (posted : letter.Posted w threads g thread inner rung n) : letter.heading? = some inner.heading :=
  posted.posted.heading?

theorem climbed (posted : letter.Posted w threads g thread inner rung n) :
    rung ∈ (g thread.session).rungs (thread.role letter.sender) := by
  have climbed := posted.posted.climbed
  rwa [← Thread.role_other, Party.other_other] at climbed

theorem form (posted : letter.Posted w threads g thread inner rung n) :
    letter.message = .ratchet inner ∧ (g thread.session).Answered ∨
      thread.role letter.sender.other = .responder ∧ ∃ registrationId,
        letter.message = .preKey ((thread.terms w).opening registrationId inner) :=
  posted.posted.form

/-- What announces the session says that it is from the party that the receiver knows. -/
theorem from_other (posted : letter.Posted w threads g thread inner rung n) :
    letter.message.From (w.identity letter.sender.other.other).publicKey := by
  rcases posted.form with ⟨form, _⟩ | ⟨responds, registrationId, form⟩
  · rw [form]
    trivial
  · rw [form, thread.answerer_of_role responds, Party.other_other]
    rfl

end Letter.Posted

namespace Correspondent.Stands

variable {e : Correspondent} {threads : List Thread} {drawn : Nat} {state : SessionState}

/-- What is kept of a session is the state that tracks it. -/
theorem engaged_of_kept (stands : e.Stands w threads g party drawn) (kept : state ∈ e.record.states) :
    ∃ thread ∈ threads, state.Engaged w thread (g thread.session) party (e.reads thread.session) := by
  obtain ⟨thread, member, session⟩ := stands.known state kept
  refine ⟨thread, member, ?_⟩
  cases (stands.follows thread member).session with
  | engaged other other_kept engaged =>
    rw [stands.orderly.same kept other_kept (session.trans engaged.stands.baseKey.symm)]
    exact engaged
  | awaiting awaits => exact absurd session (awaits.none_kept state kept)

end Correspondent.Stands

namespace Correspondence.Stands

theorem same_thread (stands : c.Stands w g count) {a b : Thread} (a_begun : a ∈ c.threads) (b_begun : b ∈ c.threads)
    (same : a.session = b.session) : a = b :=
  List.inj_on_of_nodup_map stands.distinct a_begun b_begun same

theorem engaged_of_heard (stands : c.Stands w g count) (member : thread ∈ c.threads)
    (heard : rung ∈ (g thread.session).heard (thread.role party)) :
    (g thread.session).own (thread.role party) ∈ (g thread.session).rungs (thread.role party) := by
  have follows := (stands.ends party).follows thread member
  cases follows.session with
  | engaged state kept engaged => exact engaged.climbed
  | awaiting awaits =>
    have none_heard := follows.heard
    rw [awaits.unread] at none_heard
    rw [List.map_eq_nil_iff.mp none_heard] at heard
    cases heard

theorem answered_of_heard (stands : c.Stands w g count) (member : thread ∈ c.threads)
    (heard : rung ∈ (g thread.session).heard (thread.role party)) : (g thread.session).Answered := by
  cases role : thread.role party with
  | initiator =>
    rw [role] at heard
    exact List.ne_nil_of_mem (Standing.mem_of_heard heard)
  | responder =>
    have climbed := stands.engaged_of_heard member heard
    rw [role] at climbed
    exact List.ne_nil_of_mem climbed

/-- No two messages of a session have one heading, so one that has not been delivered has not been read. -/
theorem unread (stands : c.Stands w g count) (posted : letter.Posted w c.threads g thread inner rung n) {place : Nat}
    (found : c.sent[place]? = some letter) (undelivered : place ∉ c.delivered) :
    inner.heading ∉ (c.receiver letter).reads thread.session := by
  intro member
  obtain ⟨earlier, was_delivered, other, other_found, sender, session, same⟩ := stands.read _ _ _ member
  rw [Party.other_other] at sender
  have different : place ≠ earlier := fun same => undelivered (same ▸ was_delivered)
  obtain ⟨place_lt, rfl⟩ := List.getElem?_eq_some_iff.mp found
  obtain ⟨earlier_lt, rfl⟩ := List.getElem?_eq_some_iff.mp other_found
  have apart := List.pairwise_iff_getElem.mp stands.headings
  rcases Nat.lt_or_gt_of_ne different with lt | gt
  · exact apart _ _ place_lt earlier_lt lt sender.symm (posted.session.trans session.symm) (posted.heading?.trans same.symm)
  · exact apart _ _ earlier_lt place_lt gt sender (session.trans posted.session.symm) (same.trans posted.heading?.symm)

/-! ## Other sessions -/

/-- A state of another session has no chain for a message. -/
theorem missing_of_other (stands : c.Stands w g count) (posted : letter.Posted w c.threads g thread inner rung n)
    {state : SessionState} (kept : state ∈ (c.receiver letter).record.states)
    (differs : state.baseKey ≠ thread.session) : state.receivingChain? inner.ratchetKey = none := by
  obtain ⟨other, member, engaged⟩ := (stands.ends letter.sender.other).engaged_of_kept kept
  have sessions : thread.session ≠ other.session := fun same => differs (engaged.stands.baseKey.trans same.symm)
  rw [posted.posted.written.ratchetKey]
  refine engaged.stands.tracks.receivingChain?_of_unknown fun known => ?_
  obtain ⟨peer, peer_known, same⟩ := List.mem_map.mp known
  rcases List.mem_append.mp peer_known with heard | ground
  · have climbed := Standing.mem_of_heard heard
    rw [← Thread.role_other, Party.other_other] at climbed
    exact stands.apart thread posted.member other member sessions _ rung posted.climbed peer climbed same.symm
  · -- The ground of the other session is a key that the sender has offered.
    cases role : other.role letter.sender.other with
    | responder =>
      rw [role] at ground
      cases ground
    | initiator =>
      rw [role] at ground
      cases List.mem_singleton.mp ground
      have owner : other.starter.other = letter.sender := by
        rw [← other.starter_of_role role, Party.other_other]
      have offered := (stands.threads other member).offered
      rw [owner] at offered
      exact (stands.threads thread posted.member).unoffered _ rung posted.climbed _ offered same.symm

theorem silent_of_other (stands : c.Stands w g count) (posted : letter.Posted w c.threads g thread inner rung n)
    {state : SessionState} (kept : state ∈ (c.receiver letter).record.states)
    (differs : state.baseKey ≠ thread.session) (unmistaken : ¬ state.Mistakes inner) : state.Silent inner := by
  obtain ⟨other, member, engaged⟩ := (stands.ends letter.sender.other).engaged_of_kept kept
  exact engaged.stands.tracks.formed.silent (stands.missing_of_other posted kept differs) unmistaken

end Correspondence.Stands

end DoubleRatchet
