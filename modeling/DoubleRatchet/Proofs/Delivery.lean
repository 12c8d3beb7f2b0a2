import DoubleRatchet.Proofs.Conversation.Opening

/-! Delivery. Whatever the order in which two devices send messages and messages are delivered, each message that can
still be read when it is delivered is decrypted to what it was made from. -/
namespace DoubleRatchet

variable {c : Conversation} {t : Terms} {g : Standing} {side : Side} {sent : Sent} {inner : RatchetMessage}
  {rung : Rung} {n : Nat}

/-- What it takes for a message to be read after messages with the headings given: it is not too far ahead of the place
that the reader has reached on its chain, the chain is among the latest five, and if the reader has passed it the key
is not among those that were given up. -/
structure Deliverable (reads : List (PublicKey × UInt32)) (message : RatchetMessage) : Prop where
  near : message.counter.toNat ≤ (progress reads message.ratchetKey).index + 5000
  chained : message.ratchetKey ∈ chains reads → message.ratchetKey ∈ (chains reads).take 5
  unlost : message.counter.toNat < (progress reads message.ratchetKey).index →
    message.counter.toNat ∉ (progress reads message.ratchetKey).lost

/-- The key of a message that has not been read has been kept, or lost, or is still ahead. -/
theorem Deliverable.reachable {reads : List (PublicKey × UInt32)} {sender receiver : PublicKey} {plaintext : Bytes}
    (deliverable : Deliverable reads inner) (written : inner.Written rung n sender receiver plaintext)
    (unread : inner.heading ∉ reads) : n ∈ (progress reads rung.key).kept ∨ (progress reads rung.key).index ≤ n ∧
      n ≤ (progress reads rung.key).index + maxSkip := by
  have near := deliverable.near
  have unlost := deliverable.unlost
  rw [written.ratchetKey, written.counter_toNat] at near unlost
  -- Behind the place of the chain a message has been read unless its key is kept or lost.
  by_cases behind : n < (progress reads rung.key).index
  · rcases progress_covers _ _ n behind with kept | lost | ⟨heading, member, key, number⟩
    · exact .inl kept
    · exact absurd lost (unlost behind)
    · have same : heading = inner.heading := by
        refine Prod.ext (key.trans written.ratchetKey.symm) (UInt32.toNat_inj.mp ?_)
        exact number.trans written.counter_toNat.symm
      exact absurd (same ▸ member) unread
  · exact .inr ⟨Nat.le_of_not_lt behind, near⟩

/-- A state that tracks the climb gives back what a message was made from, if it can still be read. -/
theorem SessionState.Stands.reads_plaintext {state : SessionState} {reads : List (PublicKey × UInt32)} {plaintext : Bytes}
    (stands : state.Stands t g side reads) (climbed : g.Climbed t) (heads : (g.heard side).map Rung.key = chains reads)
    (member : rung ∈ g.rungs side.other)
    (written : inner.Written rung n (t.identity side.other) (t.identity side) plaintext) (unread : inner.heading ∉ reads)
    (deliverable : Deliverable reads inner) (fresh : KeyPair) :
    ∃ opened, state.read inner fresh = .ok opened ∧ opened.plaintext = plaintext := by
  have reachable := deliverable.reachable written unread
  rcases climbed.heard_or_top member with heard | ⟨leads, top⟩
  · have kept : rung ∈ (g.heard side).take 5 := by
      have chained := deliverable.chained
      rw [written.ratchetKey, ← heads, ← List.map_take] at chained
      obtain ⟨other, taken, key⟩ := List.mem_map.mp (chained (List.mem_map_of_mem heard))
      have known : ∀ rung ∈ g.heard side, rung ∈ g.known t side := fun _ => List.mem_append_left _
      rw [← stands.tracks.same_of_key (known other (List.mem_of_mem_take taken)) (known rung heard) key]
      exact taken
    exact stands.tracks.reads_kept (mem_take_known _ _ kept) written reachable fresh
  · obtain ⟨above, agrees⟩ := climbed.above_own leads
    subst top
    have unknown := climbed.top_unknown leads
    rw [stands.tracks.progress_of_unknown unknown] at reachable
    rcases reachable with kept | ⟨_, near⟩
    · cases kept
    · exact stands.tracks.reads_above above agrees unknown written ((Nat.zero_add maxSkip) ▸ near) fresh

namespace Conversation.Stands

/-- No two messages have one heading, so one that has not been delivered has not been read. -/
theorem unread (stands : c.Stands t g) (posted : sent.Posted t g side inner rung n) {place : Nat}
    (found : c.sent[place]? = some sent) (undelivered : place ∉ c.delivered) : inner.heading ∉ (c.ends side).reads := by
  intro member
  obtain ⟨earlier, was_delivered, other, other_found, sender, same⟩ := stands.read side _ member
  have places := stands.apart_places found other_found (posted.sender.trans sender.symm) (posted.heading?.trans same.symm)
  exact absurd (places ▸ was_delivered) undelivered

theorem reads_plaintext (stands : c.Stands t g) (posted : sent.Posted t g side inner rung n) {state : SessionState}
    (state_stands : state.Stands t g side (c.ends side).reads) {place : Nat} (found : c.sent[place]? = some sent)
    (undelivered : place ∉ c.delivered) (deliverable : Deliverable (c.ends side).reads inner) (fresh : KeyPair) :
    ∃ opened, state.read inner fresh = .ok opened ∧ opened.plaintext = sent.plaintext :=
  state_stands.reads_plaintext stands.climbed (stands.ends side).heard posted.climbed posted.written
    (stands.unread posted found undelivered) deliverable fresh

theorem decrypts (stands : c.Stands t g) {place : Nat} (found : c.sent[place]? = some sent) (undelivered : place ∉ c.delivered)
    (carried : sent.message.inner? = some inner) (deliverable : Deliverable (c.ends sent.sender.other).reads inner) :
    (c.decrypt sent).1 = .ok sent.plaintext := by
  obtain ⟨side, inner', rung, n, posted⟩ := stands.posted sent (List.mem_of_getElem? found)
  have same := posted.carried.symm.trans carried
  cases same
  obtain ⟨state, state_stands, reaches, _⟩ := stands.reaches posted
  rw [posted.receiver] at deliverable
  obtain ⟨opened, run, plaintext⟩ := stands.reads_plaintext posted state_stands found undelivered deliverable
    ((c.ends side).entropy.pair 0)
  have remote : opened.state.remoteIdentityKey = .ok (t.identity side.other) :=
    (SessionState.read_remoteIdentityKey run).trans state_stands.tracks.formed.remoteIdentityKey
  obtain ⟨_, decrypted, _⟩ := Stores.decrypt_of_reads reaches posted.carried (stands.ends side).trusting run remote
  rw [(accept_eq posted.receiver decrypted).1, plaintext]

end Conversation.Stands

/-- A conversation that begins from a bundle and has come through any events: the next delivery of a message that can
still be read gives back what the message was made from. Assumed are that key pairs agree and differ, that no chain is
used up, and that the MAC of a message is not taken for that of a message of another chain. -/
theorem delivers (m : Meeting) (events : List Conversation.Event) (opens : m.Opens) (keyed : m.Keyed (m.start.run events))
    (bounded : ∀ sent ∈ (m.start.run events).sent, ∀ inner, sent.message.inner? = some inner → inner.counter ≠ 0xffffffff)
    (unmistaken : ∀ before place after, events = before ++ .deliver place :: after → (m.start.run before).Unmistaken place)
    (place : Nat) (sent : Sent) (found : (m.start.run events).sent[place]? = some sent)
    (undelivered : place ∉ (m.start.run events).delivered) : ∃ inner, sent.message.inner? = some inner ∧
      (Deliverable ((m.start.run events).ends sent.sender.other).reads inner →
        ((m.start.run events).decrypt sent).1 = .ok sent.plaintext) := by
  obtain ⟨limit, began, final⟩ := opens.run_skips events
  have sound := keyed.sound final opens
  have within : ∀ side m', ((m.start.run events).ends side).entropy = (m.entropy side).skip m' → m' ≤ limit side := by
    intro side m' left
    exact Nat.le_of_eq ((m.entropy side).skip_injective (left.symm.trans (final side)))
  obtain ⟨g, stands⟩ := (opens.stands keyed final began).run sound events within bounded unmistaken
  obtain ⟨side, inner, rung, n, posted⟩ := stands.posted sent (List.mem_of_getElem? found)
  exact ⟨inner, posted.carried, stands.decrypts found undelivered posted.carried⟩

/-- The second message of the initiator, delivered before the first. -/
theorem delivers_second_first :
    let c := Sample.meeting.start.run [.send .initiator [1, 2, 3], .send .initiator [4]]
    ∃ sent, c.sent[1]? = some sent ∧ (c.decrypt sent).1 = .ok [4] := by
  intro c
  have evaluated : c.sent.map (fun sent => (sent.plaintext, sent.message.inner?.map RatchetMessage.counter)) =
      [([1, 2, 3], some 0), ([4], some 1)] := by
    decide +kernel
  have entropy : ∀ side, (c.ends side).entropy = (Sample.meeting.entropy side).skip (Sample.meeting.standing.count side) := by
    intro side
    simp only [c, Conversation.run, List.foldl_cons, List.foldl_nil, Conversation.step, Conversation.send_entropy,
      Sample.meeting_opens.start_entropy]
  have keyed := Sample.meeting_keyed entropy
  obtain ⟨sent, found, made⟩ : ∃ sent, c.sent[1]? = some sent ∧
      (sent.plaintext, sent.message.inner?.map RatchetMessage.counter) = ([4], some 1) := by
    have second := congrArg (·[1]?) evaluated
    rw [List.getElem?_map] at second
    exact Option.map_eq_some_iff.mp second
  obtain ⟨plaintext, number⟩ := Prod.mk.inj made
  have bounded : ∀ sent ∈ c.sent, ∀ inner, sent.message.inner? = some inner → inner.counter ≠ 0xffffffff := by
    intro sent member inner carried
    have listed := List.mem_map_of_mem (f := fun sent : Sent =>
      (sent.plaintext, sent.message.inner?.map RatchetMessage.counter)) member
    rw [evaluated, carried] at listed
    simp only [List.mem_cons, List.not_mem_nil, Prod.mk.injEq, Option.map_some, Option.some.injEq, or_false] at listed
    rcases listed with ⟨_, counter⟩ | ⟨_, counter⟩ <;> rw [counter] <;> decide
  have unmistaken : ∀ before place after, [.send .initiator [1, 2, 3], .send .initiator [4]] =
      before ++ Conversation.Event.deliver place :: after → (Sample.meeting.start.run before).Unmistaken place := by
    intro before place after split
    have member : Conversation.Event.deliver place ∈ before ++ .deliver place :: after :=
      List.mem_append_right _ List.mem_cons_self
    rw [← split] at member
    simp at member
  have undelivered : 1 ∉ c.delivered := by
    simp only [c, Conversation.run, List.foldl_cons, List.foldl_nil, Conversation.step, Conversation.send_delivered]
    exact List.not_mem_nil
  have unread : ∀ side, (c.ends side).reads = [] := by
    intro side
    simp only [c, Conversation.run, List.foldl_cons, List.foldl_nil, Conversation.step, Conversation.send_reads]
    cases side <;> rfl
  obtain ⟨inner, carried, decrypts⟩ := delivers Sample.meeting _ Sample.meeting_opens keyed bounded unmistaken 1 sent found
    undelivered
  rw [carried, Option.map_some, Option.some.injEq] at number
  refine ⟨sent, found, plaintext ▸ decrypts ?_⟩
  rw [unread]
  refine ⟨?_, nofun, fun behind => absurd behind (Nat.not_lt_zero _)⟩
  rw [number]
  exact Nat.le_add_left 1 4999

end DoubleRatchet
