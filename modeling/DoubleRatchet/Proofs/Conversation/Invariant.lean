import DoubleRatchet.Proofs.Conversation.Standing

/-! What holds throughout a conversation: each end keeps one state, which tracks the climb, or is a responder that will
set one up; and each message in flight was written on a rung of its sender, at a place that no other message has. -/
namespace DoubleRatchet

structure SessionState.Stands (state : SessionState) (t : Terms) (g : Standing) (side : Side)
    (reads : List (PublicKey × UInt32)) : Prop where
  tracks : state.Tracks (t.identity side) (t.identity side.other) (g.own side) (g.place side) (g.known t side) reads
  baseKey : state.baseKey = t.offer.baseKey.serialize

/-- The session of an end: it has a state, or it is the responder's and waits for the first message. -/
inductive End.InSession (e : End) (t : Terms) (g : Standing) (side : Side) : Prop
  | engaged (state : SessionState) (kept : e.stores.sessions[e.peer]? = some (.alone state))
    (stands : state.Stands t g side e.reads) (climbed : g.own side ∈ g.rungs side)
    (pending : state.pendingPreKey = none ∧ g.Answered ∨
      side = .initiator ∧ state.pendingPreKey = some (.ofPending t.offer))
  | awaiting (responds : side = .responder) (unanswered : ¬ g.Answered) (unread : e.reads = [])
    (none_kept : e.stores.sessions[e.peer]? = none)
    (ready : ∀ registrationId inner, ∃ state used, state.Stands t g side e.reads ∧
      e.stores.respond .fresh (t.opening registrationId inner) = .ok (.alone state, used))

/-- A message that was sent to a side in the conversation: message `n` of a rung of the other side. -/
structure Sent.Posted (sent : Sent) (t : Terms) (g : Standing) (side : Side) (inner : RatchetMessage) (rung : Rung)
    (n : Nat) : Prop where
  sender : sent.sender = side.other
  carried : sent.message.inner? = some inner
  climbed : rung ∈ g.rungs side.other
  written : inner.Written rung n (t.identity side.other) (t.identity side) sent.plaintext
  placed : rung = g.own side.other → n < g.place side.other
  form : sent.message = .ratchet inner ∧ g.Answered ∨
    side = .responder ∧ ∃ registrationId, sent.message = .preKey (t.opening registrationId inner)

structure End.Stands (e : End) (t : Terms) (g : Standing) (side : Side) : Prop where
  drawn : e.entropy = (t.entropy side).skip (g.count side)
  trusting : e.stores.Trusting e.peer (t.identity side.other)
  heard : (g.heard side).map Rung.key = chains e.reads
  place : g.place side < UInt32.size
  session : e.InSession t g side

/-- What holds of a conversation at all times. -/
structure Conversation.Stands (c : Conversation) (t : Terms) (g : Standing) : Prop where
  climbed : g.Climbed t
  ends : ∀ side, (c.ends side).Stands t g side
  posted : ∀ sent ∈ c.sent, ∃ side inner rung n, sent.Posted t g side inner rung n
  apart : c.sent.Pairwise fun a b => a.sender = b.sender → a.heading? ≠ b.heading?
  read : ∀ side, ∀ heading ∈ (c.ends side).reads, ∃ place ∈ c.delivered, ∃ sent, c.sent[place]? = some sent ∧
    sent.sender = side.other ∧ sent.heading? = some heading

variable {c : Conversation} {t : Terms} {g g' : Standing} {side : Side} {sent : Sent} {inner : RatchetMessage}
  {rung : Rung} {n : Nat}

theorem Sent.Posted.receiver (posted : sent.Posted t g side inner rung n) : sent.sender.other = side := by
  rw [posted.sender, Side.other_other]

theorem Sent.Posted.heading? (posted : sent.Posted t g side inner rung n) : sent.heading? = some inner.heading := by
  rw [Sent.heading?, posted.carried, Option.map_some]

/-- A message that has been sent is not the next one of its sender. -/
theorem Sent.Posted.heading_ne (posted : sent.Posted t g side inner rung n) (climbed : g.Climbed t)
    (own : g.own side.other ∈ g.rungs side.other) (place : g.place side.other < UInt32.size) :
    sent.heading? ≠ some ((g.own side.other).key, .ofNat (g.place side.other)) := by
  intro same
  rw [posted.heading?, Option.some.injEq, RatchetMessage.heading, Prod.mk.injEq, posted.written.ratchetKey,
    posted.written.counter] at same
  have apart : ((g.rungs side.other).map Rung.key).Nodup := by
    have apart := climbed.apart side.other
    rw [List.map_append] at apart
    exact (List.nodup_append.mp apart).1
  have same_rung := List.inj_on_of_nodup_map apart posted.climbed own same.1
  have number := (ofNat_eq_iff (Nat.lt_of_succ_lt posted.written.bound) place).mp same.2
  have := posted.placed same_rung
  omega

/-- What does not touch the sessions and the keys for handshakes leaves an end in its session. -/
theorem End.InSession.spared {e e' : End} (session : e.InSession t g side) (peer : e'.peer = e.peer)
    (reads : e'.reads = e.reads) (sessions : e'.stores.sessions = e.stores.sessions)
    (respond : e'.stores.respond = e.stores.respond) : e'.InSession t g side := by
  cases session with
  | engaged state kept stands climbed pending =>
    exact .engaged state (by rw [sessions, peer]; exact kept) (by rw [reads]; exact stands) climbed pending
  | awaiting responds unanswered unread none_kept ready =>
    refine .awaiting responds unanswered (reads.trans unread) (by rw [sessions, peer]; exact none_kept) ?_
    rw [reads, respond]
    exact ready

theorem SessionState.Stands.draw {state : SessionState} {reads : List (PublicKey × UInt32)}
    (stands : state.Stands t g side reads) (mover : Side) (k : Nat) : state.Stands t (g.draw mover k) side reads :=
  ⟨stands.tracks, stands.baseKey⟩

theorem End.InSession.draw {e : End} (session : e.InSession t g side) (mover : Side) (k : Nat) :
    e.InSession t (g.draw mover k) side := by
  cases session with
  | engaged state kept stands climbed pending =>
    exact .engaged state kept (stands.draw mover k) climbed pending
  | awaiting responds unanswered unread none_kept ready =>
    refine .awaiting responds unanswered unread none_kept fun registrationId inner => ?_
    obtain ⟨state, used, stands, responded⟩ := ready registrationId inner
    exact ⟨state, used, stands.draw mover k, responded⟩

/-! ## When one side moves -/

theorem Sent.Posted.moved {mover : Side} (posted : sent.Posted t g side inner rung n) (moves : g.Moves g' mover) :
    sent.Posted t g' side inner rung n where
  sender := posted.sender
  carried := posted.carried
  climbed := moves.mem_rungs _ _ posted.climbed
  written := posted.written
  placed same := by
    obtain ⟨same, le⟩ := moves.placed _ posted.climbed same
    exact Nat.lt_of_lt_of_le (posted.placed same) le
  form := posted.form.imp_left (And.imp_right moves.answered)

theorem SessionState.Stands.moved {state : SessionState} {reads : List (PublicKey × UInt32)}
    (stands : state.Stands t g side.other reads) (moves : g.Moves g' side) : state.Stands t g' side.other reads where
  tracks := by
    rw [moves.own, moves.place, Standing.known, moves.heard]
    exact stands.tracks
  baseKey := stands.baseKey

theorem End.Stands.moved {e : End} (stands : e.Stands t g side.other) (moves : g.Moves g' side) :
    e.Stands t g' side.other where
  drawn := by
    rw [moves.count]
    exact stands.drawn
  trusting := stands.trusting
  heard := by
    rw [moves.heard]
    exact stands.heard
  place := by
    rw [moves.place]
    exact stands.place
  session := by
    cases stands.session with
    | engaged state kept state_stands climbed pending =>
      refine .engaged state kept (state_stands.moved moves) ?_ (pending.imp_left (And.imp_right moves.answered))
      rw [moves.own, moves.others]
      exact climbed
    | awaiting responds unanswered unread none_kept ready =>
      refine .awaiting responds ?_ unread none_kept fun registrationId inner => ?_
      · have others := moves.others
        rw [responds] at others
        rw [Standing.Answered, others]
        exact unanswered
      · obtain ⟨state, used, state_stands, responded⟩ := ready registrationId inner
        exact ⟨state, used, state_stands.moved moves, responded⟩

/-! ## Reading -/

theorem mem_take_known (rungs floor : List Rung) (member : rung ∈ rungs.take 5) : rung ∈ (rungs ++ floor).take 5 := by
  rw [List.take_append]
  exact List.mem_append_left _ member

namespace SessionState.Stands

variable {state : SessionState} {opened : Opened} {fresh : KeyPair} {reads : List (PublicKey × UInt32)} {plaintext : Bytes}

theorem after_heard (stands : state.Stands t g side reads) (heads : (g.heard side).map Rung.key = chains reads)
    (written : inner.Written rung n (t.identity side.other) (t.identity side) plaintext) (heard : rung ∈ g.heard side)
    (unmistaken : inner.ratchetKey ∈ (chains reads).drop 5 → ¬ state.Mistakes inner)
    (run : state.read inner fresh = .ok opened) : opened.state.Stands t g side (inner.heading :: reads) := by
  refine ⟨?_, (read_sameSession run).baseKey.trans stands.baseKey⟩
  -- Without its chain the message would be read on a new one, which `unmistaken` excludes.
  by_cases kept : rung ∈ (g.known t side).take 5
  · exact stands.tracks.after_kept kept written run
  · have known : rung ∈ g.known t side := List.mem_append_left _ heard
    refine absurd run (stands.tracks.refuses_pushed_out known kept written (unmistaken ?_) fresh opened)
    have dropped : rung ∈ (g.heard side).drop 5 := by
      rw [← List.take_append_drop 5 (g.heard side)] at heard
      exact (List.mem_append.mp heard).resolve_left fun taken => kept (mem_take_known _ _ taken)
    rw [← heads, written.ratchetKey, ← List.map_drop]
    exact List.mem_map_of_mem dropped

theorem after_top (stands : state.Stands t g side reads) (climbed : g.Climbed t)
    (written : inner.Written rung n (t.identity side.other) (t.identity side) plaintext) (leads : g.leader = side.other)
    (top : rung = g.own g.leader) (run : state.read inner fresh = .ok opened) : state.draws inner = 1 ∧
      opened.state.Stands t (g.climb side fresh) side (inner.heading :: reads) := by
  obtain ⟨above, agrees⟩ := climbed.above_own leads
  subst top
  obtain ⟨draws, tracks⟩ := stands.tracks.after_above above agrees (climbed.top_unknown leads) written run
  refine ⟨draws, ?_, (read_sameSession run).baseKey.trans stands.baseKey⟩
  have known : (g.climb side fresh).known t side = g.own g.leader :: g.known t side := by
    rw [Standing.known, Standing.climb_heard_self climbed leads]
    rfl
  rw [known]
  simp only [Standing.climb, Function.update_self]
  rw [leads] at tracks ⊢
  exact tracks

end SessionState.Stands

namespace Conversation.Stands

theorem engaged_of_heard (stands : c.Stands t g) (heard : rung ∈ g.heard side) : g.own side ∈ g.rungs side := by
  cases (stands.ends side).session with
  | engaged state kept state_stands climbed pending => exact climbed
  | awaiting responds unanswered unread none_kept ready =>
    have none_heard := (stands.ends side).heard
    rw [unread] at none_heard
    rw [List.map_eq_nil_iff.mp none_heard] at heard
    cases heard

theorem answered_of_heard (stands : c.Stands t g) (heard : rung ∈ g.heard side) : g.Answered := by
  cases side with
  | initiator => exact List.ne_nil_of_mem (Standing.mem_of_heard heard)
  | responder => exact List.ne_nil_of_mem (stands.engaged_of_heard heard)

theorem reaches (stands : c.Stands t g) (posted : sent.Posted t g side inner rung n) :
    ∃ state, state.Stands t g side (c.ends side).reads ∧
      (c.ends side).stores.Reaches (c.ends side).peer state (t.identity side.other) sent.message ∧
      (rung ∈ g.heard side → (c.ends side).stores.sessions[(c.ends side).peer]? = some (.alone state)) := by
  have trusted := (stands.ends side).trusting.isTrusted .receiving
  cases (stands.ends side).session with
  | engaged state kept state_stands climbed pending =>
    refine ⟨state, state_stands, ?_, fun _ => kept⟩
    rcases posted.form with ⟨form, _⟩ | ⟨rfl, registrationId, form⟩
    · rw [form]
      exact .ratchet inner kept
    · rw [form]
      refine .preKey _ none rfl (Stores.acceptMessage_of_known trusted kept ?_ state_stands.baseKey)
      rw [SessionState.version, state_stands.tracks.formed.version]
      rfl
  | awaiting responds unanswered unread none_kept ready =>
    rcases posted.form with ⟨_, answered⟩ | ⟨rfl, registrationId, form⟩
    · exact absurd answered unanswered
    · obtain ⟨state, used, state_stands, responded⟩ := ready registrationId inner
      refine ⟨state, state_stands, ?_, fun heard => absurd (stands.answered_of_heard heard) unanswered⟩
      rw [form]
      exact .preKey _ used rfl (Stores.acceptMessage_of_new trusted none_kept responded)

variable {state : SessionState} {opened : Opened} {fresh : KeyPair}

/-- What a state has read tells it apart from all that it reads later. -/
theorem apart_places (stands : c.Stands t g) {i j : Nat} {a b : Sent} (a_sent : c.sent[i]? = some a)
    (b_sent : c.sent[j]? = some b) (sender : a.sender = b.sender) (heading : a.heading? = b.heading?) : i = j := by
  obtain ⟨i_lt, rfl⟩ := List.getElem?_eq_some_iff.mp a_sent
  obtain ⟨j_lt, rfl⟩ := List.getElem?_eq_some_iff.mp b_sent
  have apart := List.pairwise_iff_getElem.mp stands.apart
  rcases Nat.lt_trichotomy i j with lt | same | gt
  · exact absurd heading (apart i j i_lt j_lt lt sender)
  · exact same
  · exact absurd heading.symm (apart j i j_lt i_lt gt sender.symm)

theorem state_after_heard (stands : c.Stands t g) (state_stands : state.Stands t g side (c.ends side).reads)
    (posted : sent.Posted t g side inner rung n) (heard : rung ∈ g.heard side)
    (unmistaken : inner.ratchetKey ∈ (chains (c.ends side).reads).drop 5 → ¬ state.Mistakes inner)
    (run : state.read inner fresh = .ok opened) : opened.state.Stands t g side (inner.heading :: (c.ends side).reads) :=
  state_stands.after_heard (stands.ends side).heard posted.written heard unmistaken run

theorem above_own (stands : c.Stands t g) (leads : g.leader = side.other) :
    g.own g.leader = (g.own side).next (g.own g.leader).pair ∧ (g.own side).pair.Agrees (g.own g.leader).pair :=
  stands.climbed.above_own leads

theorem state_after_top (stands : c.Stands t g) (state_stands : state.Stands t g side (c.ends side).reads)
    (posted : sent.Posted t g side inner rung n) (leads : g.leader = side.other) (top : rung = g.own g.leader)
    (run : state.read inner fresh = .ok opened) : state.draws inner = 1 ∧
      opened.state.Stands t (g.climb side fresh) side (inner.heading :: (c.ends side).reads) :=
  state_stands.after_top stands.climbed posted.written leads top run

/-- When the end of a side has changed and so has its standing, and it may have sent a message, the conversation stands. -/
theorem moved {e : End} {c' : Conversation} {more : Option Sent} (stands : c.Stands t g) (moves : g.Moves g' side)
    (climbed : g'.Climbed t) (here : e.Stands t g' side) (ends : c'.ends = Function.update c.ends side e)
    (sent_eq : c'.sent = c.sent ++ more.toList) (delivered : ∀ place ∈ c.delivered, place ∈ c'.delivered)
    (posted : ∀ sent ∈ more, ∃ receiver inner rung n, sent.Posted t g' receiver inner rung n)
    (apart : ∀ sent ∈ more, ∀ a ∈ c.sent, a.sender = sent.sender → a.heading? ≠ sent.heading?)
    (read : ∀ heading ∈ e.reads, ∃ place ∈ c'.delivered, ∃ sent, c.sent[place]? = some sent ∧
      sent.sender = side.other ∧ sent.heading? = some heading) : c'.Stands t g' where
  climbed := climbed
  ends other := by
    rw [ends]
    rcases Side.eq_or_eq_other other side with rfl | rfl
    · rw [Function.update_self]
      exact here
    · rw [Function.update_of_ne (Side.other_ne side)]
      exact (stands.ends side.other).moved moves
  posted sent member := by
    rw [sent_eq] at member
    rcases List.mem_append.mp member with old | new
    · obtain ⟨receiver, inner, rung, n, posted⟩ := stands.posted sent old
      exact ⟨receiver, inner, rung, n, posted.moved moves⟩
    · exact posted sent (Option.mem_toList.mp new)
  apart := by
    rw [sent_eq]
    refine List.pairwise_append.mpr ⟨stands.apart, ?_, fun a old b new => apart b (Option.mem_toList.mp new) a old⟩
    cases more with
    | none => exact List.Pairwise.nil
    | some sent => exact List.pairwise_singleton _ _
  read other heading member := by
    have before : ∃ place ∈ c'.delivered, ∃ sent, c.sent[place]? = some sent ∧ sent.sender = other.other ∧
        sent.heading? = some heading := by
      rw [ends] at member
      rcases Side.eq_or_eq_other other side with rfl | rfl
      · rw [Function.update_self] at member
        exact read heading member
      · rw [Function.update_of_ne (Side.other_ne side)] at member
        obtain ⟨place, was_delivered, found⟩ := stands.read side.other heading member
        exact ⟨place, delivered place was_delivered, found⟩
    obtain ⟨place, was_delivered, sent, found, rest⟩ := before
    refine ⟨place, was_delivered, sent, ?_, rest⟩
    rw [sent_eq, List.getElem?_append_left (List.getElem?_eq_some_iff.mp found).1]
    exact found

end Conversation.Stands

end DoubleRatchet
