import DoubleRatchet.Proofs.Conversation.Invariant

/-! A conversation stands after each event, and so throughout. -/
namespace DoubleRatchet

variable {c : Conversation} {t : Terms} {g g' : Standing} {side : Side} {sent : Sent} {inner : RatchetMessage}
  {rung : Rung} {n : Nat} {reads : List (PublicKey × UInt32)}

/-- The message at a place, if it is on a chain that its receiver has pushed out, is not mistaken for one of a new chain. -/
def Conversation.Unmistaken (c : Conversation) (place : Nat) : Prop :=
  ∀ sent inner record state, c.sent[place]? = some sent → sent.message.inner? = some inner →
    inner.ratchetKey ∈ (chains (c.ends sent.sender.other).reads).drop 5 →
    (c.ends sent.sender.other).stores.sessions[(c.ends sent.sender.other).peer]? = some record →
    record.current = some state → ¬ state.Mistakes inner

namespace Conversation.Stands

/-! ## Sending -/

theorem heading_ne (stands : c.Stands t g) (climbed : g.own side ∈ g.rungs side) {a : Sent} (member : a ∈ c.sent)
    (sender : a.sender = side) : a.heading? ≠ some ((g.own side).key, .ofNat (g.place side)) := by
  obtain ⟨receiver, inner, rung, n, posted⟩ := stands.posted a member
  have side_eq : side = receiver.other := sender.symm.trans posted.sender
  subst side_eq
  exact posted.heading_ne stands.climbed climbed (stands.ends _).place

theorem announces (sound : t.Sound) {state : SessionState} (pending : state.pendingPreKey = none ∧ g.Answered ∨
      side = .initiator ∧ state.pendingPreKey = some (.ofPending t.offer)) :
    ∃ pending, state.pendingPreKey? = .ok pending ∧ (pending = none ∧ g.Answered ∨
      side = .initiator ∧ pending = some t.offer) := by
  rcases pending with ⟨acknowledged, answered⟩ | ⟨begins, announced⟩
  · refine ⟨none, ?_, .inl ⟨rfl, answered⟩⟩
    rw [SessionState.pendingPreKey?, acknowledged]
  · refine ⟨some t.offer, ?_, .inr ⟨begins, rfl⟩⟩
    rw [SessionState.pendingPreKey?, announced]
    dsimp only
    rw [sound.offer]
    rfl

theorem send_awaiting (stands : c.Stands t g) (none_kept : (c.ends side).stores.sessions[(c.ends side).peer]? = none)
    (plaintext : Bytes) : (c.send side plaintext).Stands t g := by
  have refused : (c.ends side).stores.encrypt (c.ends side).peer plaintext = .error (.noSession (c.ends side).peer) := by
    rw [Stores.encrypt, Stores.record, none_kept]
    rfl
  rcases run : c.encrypt side plaintext with ⟨fault | message, device⟩
  · obtain ⟨stores_eq, entropy_eq⟩ := Prod.ext_iff.mp (Session.encrypt_run_error run).2
    have stores_eq : device.stores = (c.ends side).stores := stores_eq
    have before := stands.ends side
    have here : ((c.ends side).after device none).Stands t g side := by
      refine ⟨entropy_eq.trans before.drawn, ?_, before.heard, before.place, ?_⟩
      · rw [End.stores, End.after, stores_eq]
        exact before.trusting
      · exact before.session.spared rfl rfl (congrArg Stores.sessions stores_eq) (congrArg Stores.respond stores_eq)
    have ends : (c.send side plaintext).ends = Function.update c.ends side ((c.ends side).after device none) := by
      simp only [Conversation.send, run]
    have sent : (c.send side plaintext).sent = c.sent ++ (none : Option Sent).toList := by
      simp only [Conversation.send, run]
      rfl
    exact stands.moved (.refl g side) stands.climbed here ends sent (fun _ member => member)
      (fun _ member => absurd member (Option.not_mem_none _)) (fun _ member => absurd member (Option.not_mem_none _))
      (stands.read side)
  · have sent := (Session.encrypt_run run).1
    rw [End.stores] at refused
    rw [refused] at sent
    cases sent

/-- What a side sends is a message of its rung. -/
theorem posted_sealed {state : SessionState} (state_stands : state.Stands t g side reads)
    (climbed : g.own side ∈ g.rungs side) {pending : Option PendingPreKey}
    (form : pending = none ∧ g.Answered ∨ side = .initiator ∧ pending = some t.offer)
    (bound : g.place side + 1 < UInt32.size) (plaintext : Bytes) :
    let inner := state.sealed ((g.own side).start.advance (g.place side)) (g.own side).key (t.identity side)
      (t.identity side.other) plaintext
    Sent.Posted ⟨side, state.wrapped (t.identity side) inner pending, plaintext⟩ t (g.post side) side.other inner
      (g.own side) (g.place side) := by
  intro inner
  have written := state_stands.tracks.sealed_written bound plaintext
  refine ⟨(Side.other_other side).symm, SessionState.wrapped_inner? .., ?_, ?_, fun _ => ?_, ?_⟩
  · rw [Side.other_other]
    exact climbed
  · rw [Side.other_other]
    exact written
  · rw [Side.other_other]
    simp only [Standing.post, Function.update_self, Nat.lt_succ_self]
  · rcases form with ⟨rfl, answered⟩ | ⟨rfl, rfl⟩
    · exact .inl ⟨rfl, answered⟩
    · refine .inr ⟨rfl, state.localRegistrationId, ?_⟩
      have version : state.version.toUInt8 = 3 := written.version
      rw [Terms.opening, ← version]
      rfl

theorem after_send (stands : c.Stands t g) {state : SessionState} (state_stands : state.Stands t g side (c.ends side).reads)
    (climbed : g.own side ∈ g.rungs side) (pending : state.pendingPreKey = none ∧ g.Answered ∨
      side = .initiator ∧ state.pendingPreKey = some (.ofPending t.offer))
    (bound : g.place side + 1 < UInt32.size) {device : Device} (stores_eq : (c.ends side).stores.withSession (c.ends side).peer
      (t.identity side.other) (.alone (state.withSendingChainKey ((g.own side).start.advance (g.place side)).next)) =
        device.stores) (entropy_eq : device.ambient.entropy = (c.ends side).entropy) :
    ((c.ends side).after device none).Stands t (g.post side) side := by
  have before := stands.ends side
  have keeps := Stores.keeps_withSession before.trusting
    (state.withSendingChainKey ((g.own side).start.advance (g.place side)).next)
  rw [stores_eq] at keeps
  have place_eq : (g.post side).place side = g.place side + 1 := Function.update_self ..
  refine ⟨entropy_eq.trans before.drawn, keeps.trusting, before.heard, place_eq ▸ bound, ?_⟩
  refine .engaged _ keeps.kept ⟨?_, state_stands.baseKey⟩ climbed pending
  rw [place_eq]
  exact state_stands.tracks.sent

theorem send (stands : c.Stands t g) (sound : t.Sound) (plaintext : Bytes)
    (bounded : ∀ sent ∈ (c.send side plaintext).sent, ∀ inner, sent.message.inner? = some inner →
      inner.counter ≠ 0xffffffff) : ∃ g', (c.send side plaintext).Stands t g' := by
  cases (stands.ends side).session with
  | awaiting responds unanswered unread none_kept ready => exact ⟨g, stands.send_awaiting none_kept plaintext⟩
  | engaged state kept state_stands climbed announced =>
    obtain ⟨pending, announces, form⟩ := announces sound announced
    have encrypted := Stores.encrypt_of_tracks kept state_stands.tracks announces (stands.ends side).trusting plaintext
    rcases run : c.encrypt side plaintext with ⟨fault | message, device⟩
    · have failed := (Session.encrypt_run_error run).1
      rw [End.stores] at encrypted
      rw [encrypted] at failed
      cases failed
    · obtain ⟨made, entropy_eq⟩ := Session.encrypt_run run
      rw [End.stores] at encrypted
      rw [encrypted, Except.ok.injEq, Prod.mk.injEq] at made
      obtain ⟨message_eq, stores_eq⟩ := made
      have ends : (c.send side plaintext).ends = Function.update c.ends side ((c.ends side).after device none) := by
        simp only [Conversation.send, run]
      have sent : (c.send side plaintext).sent = c.sent ++ (some (Sent.mk side message plaintext)).toList := by
        simp only [Conversation.send, run]
        rfl
      have bound : g.place side + 1 < UInt32.size := by
        have other := bounded ⟨side, message, plaintext⟩ (sent ▸ List.mem_append_right _ (List.mem_singleton_self _)) _
          (message_eq ▸ SessionState.wrapped_inner? ..)
        refine Nat.lt_of_le_of_ne (stands.ends side).place fun last => other ?_
        refine ((g.own side).advance_index (g.place side)).trans ?_
        rw [Nat.eq_sub_of_add_eq last]
        rfl
      obtain ⟨inner, posted⟩ : ∃ inner, Sent.Posted ⟨side, message, plaintext⟩ t (g.post side) side.other inner
          (g.own side) (g.place side) := by
        rw [← message_eq]
        exact ⟨_, posted_sealed state_stands climbed form bound plaintext⟩
      refine ⟨g.post side, stands.moved (Standing.post_moves g side) (stands.climbed.post side)
        (stands.after_send state_stands climbed announced bound stores_eq entropy_eq) ends sent (fun _ member => member)
        ?_ ?_ (stands.read side)⟩
      · rintro _ ⟨⟩
        exact ⟨_, _, _, _, posted⟩
      · rintro _ ⟨⟩ a member sender
        rw [posted.heading?]
        have apart := stands.heading_ne climbed member sender
        rw [RatchetMessage.heading, posted.written.ratchetKey, posted.written.counter]
        exact apart

/-! ## Delivery -/

theorem after_refused (stands : c.Stands t g) {device : Device} {k : Nat}
    (spares : (c.ends side).stores.Spares device.stores (c.ends side).peer (t.identity side.other))
    (entropy_eq : device.ambient.entropy = (c.ends side).entropy.skip k) :
    ((c.ends side).after device none).Stands t (g.draw side k) side := by
  have before := stands.ends side
  refine ⟨?_, spares.trusting, before.heard, before.place, ?_⟩
  · simp only [Standing.draw, Function.update_self]
    exact entropy_eq.trans (by rw [before.drawn, Entropy.skip_skip])
  · have session : ((c.ends side).after device none).InSession t g side :=
      before.session.spared rfl rfl spares.sessions spares.respond
    exact session.draw side k

theorem after_heard (stands : c.Stands t g) {state : SessionState} {opened : Opened} {fresh : KeyPair}
    (state_stands : state.Stands t g side (c.ends side).reads) (posted : sent.Posted t g side inner rung n)
    (heard : rung ∈ g.heard side)
    (unmistaken : inner.ratchetKey ∈ (chains (c.ends side).reads).drop 5 → ¬ state.Mistakes inner)
    (run : state.read inner fresh = .ok opened) {device : Device} {k : Nat}
    (keeps : (c.ends side).stores.Keeps device.stores (c.ends side).peer opened.state (t.identity side.other))
    (entropy_eq : device.ambient.entropy = (c.ends side).entropy.skip k) :
    ((c.ends side).after device (some inner.heading)).Stands t (g.draw side k) side := by
  have before := stands.ends side
  have state_after := stands.state_after_heard state_stands posted heard unmistaken run
  refine ⟨?_, keeps.trusting, ?_, before.place, ?_⟩
  · simp only [Standing.draw, Function.update_self]
    exact entropy_eq.trans (by rw [before.drawn, Entropy.skip_skip])
  · exact Standing.heads_of_heard before.heard heard posted.written.ratchetKey
  · exact .engaged opened.state keeps.kept ⟨state_after.tracks, state_after.baseKey⟩ (stands.engaged_of_heard heard)
      (.inl ⟨SessionState.read_acknowledges run, stands.answered_of_heard heard⟩)

theorem after_top (stands : c.Stands t g) {state : SessionState} {opened : Opened} {fresh : KeyPair}
    (state_stands : state.Stands t g side (c.ends side).reads) (posted : sent.Posted t g side inner rung n)
    (leads : g.leader = side.other) (top : rung = g.own g.leader) (run : state.read inner fresh = .ok opened)
    {device : Device} (keeps : (c.ends side).stores.Keeps device.stores (c.ends side).peer opened.state (t.identity side.other))
    (entropy_eq : device.ambient.entropy = (c.ends side).entropy.skip 1) :
    ((c.ends side).after device (some inner.heading)).Stands t (g.climb side fresh) side := by
  have before := stands.ends side
  obtain ⟨_, state_after⟩ := stands.state_after_top state_stands posted leads top run
  refine ⟨?_, keeps.trusting, ?_, ?_, .engaged opened.state keeps.kept state_after ?_ (.inl ⟨?_, ?_⟩)⟩
  · simp only [Standing.climb, Function.update_self]
    exact entropy_eq.trans (by rw [before.drawn, Entropy.skip_skip])
  · exact stands.climbed.climb_heads leads before.heard (top ▸ posted.written.ratchetKey)
  · simp only [Standing.climb, Function.update_self]
    decide
  · rw [Standing.climb_rungs]
    simp only [Standing.climb, Function.update_self, List.mem_cons_self]
  · exact SessionState.read_acknowledges run
  · exact stands.climbed.climb_answered leads

theorem delivered (stands : c.Stands t g) {place : Nat} {device : Device} {read : Option (PublicKey × UInt32)}
    (found : c.sent[place]? = some sent) (sender : sent.sender = side.other)
    (of_sent : ∀ heading ∈ read, sent.heading? = some heading) (moves : g.Moves g' side) (climbed : g'.Climbed t)
    (here : ((c.ends side).after device read).Stands t g' side) :
    Conversation.Stands { c with
      ends := Function.update c.ends side ((c.ends side).after device read)
      delivered := place :: c.delivered } t g' := by
  have sent_eq : c.sent = c.sent ++ (none : Option Sent).toList := (List.append_nil c.sent).symm
  refine stands.moved moves climbed here rfl sent_eq (fun _ => List.mem_cons_of_mem _)
    (fun _ member => absurd member (Option.not_mem_none _)) (fun _ member => absurd member (Option.not_mem_none _)) ?_
  intro heading member
  rcases List.mem_append.mp member with now | before
  · exact ⟨place, List.mem_cons_self, sent, found, sender, of_sent heading (Option.mem_toList.mp now)⟩
  · obtain ⟨earlier, was_delivered, rest⟩ := stands.read side heading before
    exact ⟨earlier, List.mem_cons_of_mem _ was_delivered, rest⟩

theorem deliver (stands : c.Stands t g) (sound : t.Sound) (place : Nat)
    (within : ∀ side m, ((c.deliver place).ends side).entropy = (t.entropy side).skip m → m ≤ t.limit side)
    (unmistaken : c.Unmistaken place) : ∃ g', (c.deliver place).Stands t g' := by
  by_cases delivered : place ∈ c.delivered
  · exact ⟨g, by rw [Conversation.deliver, if_pos delivered]; exact stands⟩
  cases found : c.sent[place]? with
  | none => exact ⟨g, by rw [Conversation.deliver, if_neg delivered, found]; exact stands⟩
  | some sent =>
    obtain ⟨side, inner, rung, n, posted⟩ := stands.posted sent (List.mem_of_getElem? found)
    obtain ⟨state, state_stands, reaches, kept⟩ := stands.reaches posted
    have before := stands.ends side
    -- A message that is not read may still draw a key pair. One that is read is of a rung that the receiver has heard of,
    -- which leaves it where it is, or of the leader's, above which it climbs.
    rw [deliver_eq delivered found posted.receiver] at within ⊢
    cases run : state.read inner ((c.ends side).entropy.pair 0) with
    | error fault =>
      obtain ⟨stores, k, decrypted, spares⟩ := Stores.decrypt_of_refuses reaches posted.carried before.trusting run
      obtain ⟨_, device, accepted, rfl, entropy_eq⟩ := accept_eq posted.receiver decrypted
      rw [accepted]
      exact ⟨_, stands.delivered found posted.sender (fun _ member => absurd member (Option.not_mem_none _))
        (Standing.draw_moves g side k) (stands.climbed.draw side k) (stands.after_refused spares entropy_eq)⟩
    | ok opened =>
      have of_sent : ∀ heading ∈ some inner.heading, sent.heading? = some heading := by
        rintro _ ⟨⟩
        exact posted.heading?
      rcases stands.climbed.heard_or_top posted.climbed with heard | ⟨leads, top⟩
      · have unmistaken : inner.ratchetKey ∈ (chains (c.ends side).reads).drop 5 → ¬ state.Mistakes inner := by
          have unmistaken := unmistaken sent inner (.alone state) state found posted.carried
          rw [posted.receiver] at unmistaken
          exact fun dropped => unmistaken dropped (kept heard) rfl
        have state_after := stands.state_after_heard state_stands posted heard unmistaken run
        obtain ⟨stores, decrypted, keeps⟩ := Stores.decrypt_of_reads reaches posted.carried before.trusting run
          state_after.tracks.formed.remoteIdentityKey
        obtain ⟨_, device, accepted, rfl, entropy_eq⟩ := accept_eq posted.receiver decrypted
        rw [accepted, posted.heading?]
        exact ⟨_, stands.delivered found posted.sender of_sent (Standing.draw_moves g side _) (stands.climbed.draw side _)
          (stands.after_heard state_stands posted heard unmistaken run keeps entropy_eq)⟩
      · obtain ⟨draws, state_after⟩ := stands.state_after_top state_stands posted leads top run
        obtain ⟨stores, decrypted, keeps⟩ := Stores.decrypt_of_reads reaches posted.carried before.trusting run
          state_after.tracks.formed.remoteIdentityKey
        obtain ⟨_, device, accepted, rfl, entropy_eq⟩ := accept_eq posted.receiver decrypted
        rw [draws] at entropy_eq
        rw [accepted, posted.heading?] at within ⊢
        have here := stands.after_top state_stands posted leads top run keeps entropy_eq
        have bound : g.count side + 1 ≤ t.limit side := by
          refine within side _ ?_
          simp only [Function.update_self]
          exact entropy_eq.trans (by rw [before.drawn, Entropy.skip_skip])
        have fresh : (c.ends side).entropy.pair 0 = (t.entropy side).pair (g.count side) := by
          rw [before.drawn, Entropy.pair_skip, Nat.add_zero]
        have climbed := stands.climbed.climb sound bound fresh
        exact ⟨_, stands.delivered found posted.sender of_sent (climbed.climb_moves leads) climbed here⟩

/-! ## Runs -/

theorem run (stands : c.Stands t g) (sound : t.Sound) (events : List Conversation.Event)
    (within : ∀ side m, ((c.run events).ends side).entropy = (t.entropy side).skip m → m ≤ t.limit side)
    (bounded : ∀ sent ∈ (c.run events).sent, ∀ inner, sent.message.inner? = some inner → inner.counter ≠ 0xffffffff)
    (unmistaken : ∀ before place after, events = before ++ .deliver place :: after → (c.run before).Unmistaken place) :
    ∃ g', (c.run events).Stands t g' := by
  -- Where both sides stand changes with every event, so the induction is for all standings at once.
  induction events generalizing c g with
  | nil => exact ⟨g, stands⟩
  | cons event rest ih =>
    have step : ∃ g', (c.step event).Stands t g' := by
      have within_step : ∀ side m, ((c.step event).ends side).entropy = (t.entropy side).skip m → m ≤ t.limit side := by
        intro side m drawn
        obtain ⟨k, later⟩ := (c.step event).run_skips rest side
        have := within side (m + k) (later.trans (by rw [drawn, Entropy.skip_skip]))
        omega
      cases event with
      | send side plaintext =>
        refine stands.send sound plaintext fun sent member => bounded sent ?_
        exact ((c.step (.send side plaintext)).run_sent rest).subset member
      | deliver place => exact stands.deliver sound place within_step (unmistaken [] place rest rfl)
    obtain ⟨g', stands'⟩ := step
    refine ih stands' within bounded fun before place after split => ?_
    exact unmistaken (event :: before) place after (by rw [split]; rfl)

end Conversation.Stands

end DoubleRatchet
