import DoubleRatchet.Proofs.Sessions.Beginning
import DoubleRatchet.Proofs.Sessions.Receiving

/-! A correspondence stands after each event, and so throughout. -/
namespace DoubleRatchet

/-- Where a session stands, and in what state a party has it, once the party has read a message there and has drawn
`count'` key pairs instead of `count`. -/
structure SessionState.Arrives (state : SessionState) (w : Setting) (thread : Thread) (g g' : Standing) (party : Party)
    (reads : List (PublicKey × UInt32)) (count count' : Nat) : Prop where
  climbs : thread.Climbs w g g' party count
  engaged : state.Engaged w thread g' party reads
  heads : (g'.heard (thread.role party)).map Rung.key = chains reads
  place : g'.place (thread.role party) < UInt32.size
  counted : g'.count (thread.role party) ≤ count'

variable {c : Correspondence} {w : Setting} {g : Bytes → Standing} {count : Party → Nat} {letter : Letter}
  {thread : Thread} {inner : RatchetMessage} {rung : Rung} {n : Nat} {party : Party} {record record' : SessionRecord}
  {state : SessionState} {opened : Opened}

namespace Correspondence.Stands

/-! ## Sending -/

theorem heading_ne (stands : c.Stands w g count) (member : thread ∈ c.threads)
    (climbed : (g thread.session).own (thread.role party) ∈ (g thread.session).rungs (thread.role party)) {a : Letter}
    (a_sent : a ∈ c.sent) (sender : a.sender = party) (session : a.session = thread.session) :
    a.heading? ≠ some (((g thread.session).own (thread.role party)).key,
      .ofNat ((g thread.session).place (thread.role party))) := by
  obtain ⟨other, inner, rung, n, posted⟩ := stands.posted a a_sent
  cases stands.same_thread posted.member member (posted.session.symm.trans session)
  have mine : thread.role party = (thread.role a.sender.other).other := by
    rw [← Thread.role_other, Party.other_other, sender]
  have place := ((stands.ends party).follows thread member).place
  rw [mine] at climbed place ⊢
  exact posted.posted.heading_ne (stands.threads thread member).climbed climbed place

/-- What becomes of a correspondent that has sent a message with its current state. -/
theorem after_send (stands : c.Stands w g count) (member : thread ∈ c.threads)
    (engaged : state.Engaged w thread (g thread.session) party ((c.ends party).reads thread.session))
    (bound : (g thread.session).place (thread.role party) + 1 < UInt32.size)
    (current : (c.ends party).record.current = some state) {next : SessionState}
    (next_eq : next = state.withSendingChainKey (((g thread.session).own (thread.role party)).start.advance
      ((g thread.session).place (thread.role party))).next) {device : Device}
    (stores_eq : device.stores = (c.ends party).stores.withSession (c.ends party).peer (w.identity party.other).publicKey
      { (c.ends party).record with current := some next })
    (entropy_eq : device.ambient.entropy = (c.ends party).entropy) :
    Correspondent.Stands { c.ends party with device } w c.threads
      (Function.update g thread.session ((g thread.session).post (thread.role party))) party (count party) := by
  have before := stands.ends party
  have became := Stores.became_withSession before.trusting { (c.ends party).record with current := some next }
  rw [← stores_eq] at became
  have record_eq : Correspondent.record { c.ends party with device } = _ := Stores.recordOrFresh_eq became.kept
  have baseKey : next.baseKey = state.baseKey := next_eq ▸ rfl
  have turns : (c.ends party).record.Turns { (c.ends party).record with current := some next } next :=
    before.orderly.replace (.current current) baseKey
  rw [← record_eq] at turns
  have follows := before.follows thread member
  have place : ((g thread.session).post (thread.role party)).place (thread.role party) =
      (g thread.session).place (thread.role party) + 1 := Function.update_self ..
  have session := baseKey.trans engaged.stands.baseKey
  refine before.turned member stands.distinct (entropy_eq.trans before.drawn) (Nat.le_refl _) became.own became.trusting
    turns session (fun _ _ => rfl) ⟨follows.heard, place ▸ bound, follows.counted, ?_⟩
  refine .engaged next turns.here ⟨⟨?_, session⟩, engaged.climbed, ?_⟩
  · rw [place, next_eq]
    exact engaged.stands.tracks.sent
  · rw [next_eq]
    exact engaged.pending

theorem send (stands : c.Stands w g count) (sound : w.Sound) (plaintext : Bytes)
    (bounded : ∀ letter ∈ (c.send party plaintext).sent, ∀ inner, letter.message.inner? = some inner →
      inner.counter ≠ 0xffffffff) : ∃ g' count', (c.send party plaintext).Stands w g' count' := by
  rcases run : c.encrypt party plaintext with ⟨fault | message, device⟩
  · rw [send_of_error run]
    exact ⟨g, stands.idle (Session.encrypt_run_error run).2⟩
  have before := stands.ends party
  obtain ⟨made, entropy_eq⟩ := Session.encrypt_run run
  obtain ⟨_, state, _, _, _, _, _, sends, _, _⟩ := Stores.encrypt_eq_ok.mp made
  have current := sends.current
  have loaded := sends.loaded
  cases Stores.recordOrFresh_eq loaded
  have current : (c.ends party).record.current = some state := current
  have kept : state ∈ (c.ends party).record.states := List.mem_append_left _ (Option.mem_toList.mpr current)
  obtain ⟨thread, member, engaged⟩ := before.engaged_of_kept kept
  have thread_stands := stands.threads thread member
  obtain ⟨pending, announces, form⟩ := Conversation.Stands.announces (Thread.terms_sound sound thread_stands.offered)
    engaged.pending
  have trusting := before.trusting
  rw [← thread.terms_identity_other w] at trusting
  have encrypted := Stores.encrypt_of_current loaded current engaged.stands.tracks announces trusting plaintext
  obtain ⟨message_eq, stores_eq⟩ := Prod.mk.inj (Except.ok.inj (made.symm.trans encrypted))
  rw [thread.terms_identity_other w] at stores_eq
  have session : (c.ends party).session = thread.session := by
    rw [Correspondent.session, current]
    exact engaged.stands.baseKey
  rw [send_of_ok run] at bounded ⊢
  have bound : (g thread.session).place (thread.role party) + 1 < UInt32.size := by
    have other := bounded _ (List.mem_append_right _ (List.mem_singleton_self _)) _
      (message_eq ▸ SessionState.wrapped_inner? ..)
    refine Nat.lt_of_le_of_ne (before.follows thread member).place fun last => other ?_
    refine (Rung.advance_index _ _).trans ?_
    rw [Nat.eq_sub_of_add_eq last]
    rfl
  obtain ⟨inner, posted⟩ : ∃ inner, Sent.Posted ⟨thread.role party, message, plaintext⟩ (thread.terms w)
      ((g thread.session).post (thread.role party)) (thread.role party).other inner
      ((g thread.session).own (thread.role party)) ((g thread.session).place (thread.role party)) := by
    rw [message_eq]
    exact ⟨_, Conversation.Stands.posted_sealed engaged.stands engaged.climbed form bound plaintext⟩
  let letter : Letter := ⟨party, (c.ends party).session, message, plaintext⟩
  have letter_posted : letter.Posted w c.threads
      (Function.update g thread.session ((g thread.session).post (thread.role party))) thread inner
      ((g thread.session).own (thread.role party)) ((g thread.session).place (thread.role party)) := by
    refine ⟨member, session, ?_⟩
    rw [Function.update_self, Thread.role_other]
    exact posted
  have climbs : thread.Climbs w (g thread.session) ((g thread.session).post (thread.role party)) party (count party) :=
    ⟨Standing.post_moves _ _, thread_stands.climbed.post _, fun _ => .inl⟩
  have here := stands.after_send member engaged bound current rfl stores_eq entropy_eq
  have changes : c.Changes { c with
      ends := Function.update c.ends party { c.ends party with device }
      sent := c.sent ++ [letter] } party { c.ends party with device } (some letter) :=
    stands.changes rfl rfl rfl (fun _ => id) rfl
  refine ⟨_, _, stands.moved member climbs sound (Nat.le_refl _) here changes ?_ ?_⟩
  · rintro _ ⟨⟩
    exact ⟨_, _, _, _, letter_posted⟩
  · rintro _ ⟨⟩ a a_sent sender a_session
    have apart := stands.heading_ne member engaged.climbed a_sent sender (a_session.trans session)
    rw [letter_posted.heading?, RatchetMessage.heading, posted.written.ratchetKey, posted.written.counter]
    exact apart

/-! ## Delivery -/

theorem after_refused (stands : c.Stands w g count) (place : Nat) (session : Bytes) {device : Device} {k : Nat}
    (spares : (c.ends party).stores.Spares device.stores (c.ends party).peer (w.identity party.other).publicKey)
    (entropy_eq : device.ambient.entropy = (c.ends party).entropy.skip k) :
    ∃ count', Correspondence.Stands { c with
      ends := Function.update c.ends party ((c.ends party).after device session none)
      delivered := place :: c.delivered } w g count' := by
  have before := stands.ends party
  have identity : device.stores.identity = (c.ends party).stores.identity := by
    rcases spares.same with same | same <;> rw [same]
  have record : device.stores.recordOrFresh (c.ends party).peer = (c.ends party).record := by
    rw [Stores.recordOrFresh, spares.sessions]
    rfl
  have reads : ((c.ends party).after device session none).reads = (c.ends party).reads := Function.update_eq_self _ _
  have here : ((c.ends party).after device session none).Stands w c.threads g party (count party + k) :=
    before.spared entropy_eq identity spares.trusting record reads
  exact ⟨_, stands.spared (Nat.le_add_right _ k) here
    (stands.changes rfl rfl (List.append_nil c.sent).symm (fun _ => List.mem_cons_of_mem _) reads)⟩

/-- The record that has read a message has the reader in its new form, if no archived state had to make room. -/
theorem turns_of_reader (stands : c.Stands w g count) (reader : c.Reader letter record state)
    (unevicted : ∀ message, letter.message = .preKey message →
      (c.receiver letter).record.hasStateFor message.version.toUInt32 message.baseKey = false →
      ¬ (c.receiver letter).record.Full)
    (replaces : record.Replaces state opened.state record') (same : opened.state.baseKey = state.baseKey) :
    (c.receiver letter).record.Turns record' opened.state := by
  have orderly := (stands.ends letter.sender.other).orderly
  cases reader with
  | kept member made =>
    rw [made] at replaces
    exact orderly.replace replaces same
  | built message form unknown made new =>
    have installed := orderly.install (unevicted message form unknown) new
    rw [← made] at installed
    exact installed.trans (installed.orderly.replace replaces same) same

section Arriving

variable (stands : c.Stands w g count) (posted : letter.Posted w c.threads g thread inner rung n)
  (state_stands : state.Stands (thread.terms w) (g thread.session) (thread.role letter.sender.other)
    ((c.receiver letter).reads thread.session)) {k : Nat}
  (run : state.read inner ((c.receiver letter).entropy.pair k) = .ok opened)

include stands posted state_stands run

/-- A message on a rung that the receiver has heard of leaves it where it is. -/
theorem arrives_heard (heard : rung ∈ (g thread.session).heard (thread.role letter.sender.other))
    (unmistaken : inner.ratchetKey ∈ (chains ((c.receiver letter).reads thread.session)).drop 5 → ¬ state.Mistakes inner) :
    opened.state.Arrives w thread (g thread.session) (g thread.session) letter.sender.other
      (inner.heading :: (c.receiver letter).reads thread.session) (count letter.sender.other)
      (count letter.sender.other + (k + state.draws inner)) := by
  have follows := (stands.ends letter.sender.other).follows thread posted.member
  have written := posted.posted.written
  have stands' := state_stands.after_heard follows.heard written heard unmistaken run
  exact {
    climbs := ⟨.refl _ _, (stands.threads thread posted.member).climbed, fun _ => .inl⟩
    engaged := ⟨stands', stands.engaged_of_heard posted.member heard,
      .inl ⟨SessionState.read_acknowledges run, stands.answered_of_heard posted.member heard⟩⟩
    heads := Standing.heads_of_heard follows.heard heard written.ratchetKey
    place := follows.place
    counted := Nat.le_trans follows.counted (Nat.le_add_right _ _) }

/-- A message on the sender's last rung, which is new to the receiver, makes it climb with a key pair that it draws. -/
theorem arrives_top (sound : w.Sound) (leads : (g thread.session).leader = (thread.role letter.sender.other).other)
    (top : rung = (g thread.session).own (g thread.session).leader)
    (within : count letter.sender.other + (k + state.draws inner) ≤ w.limit letter.sender.other) :
    ∃ s, opened.state.Arrives w thread (g thread.session) s letter.sender.other
      (inner.heading :: (c.receiver letter).reads thread.session) (count letter.sender.other)
      (count letter.sender.other + (k + state.draws inner)) := by
  have before := stands.ends letter.sender.other
  have follows := before.follows thread posted.member
  have thread_stands := stands.threads thread posted.member
  have written := posted.posted.written
  -- The key pairs that other states have drawn are passed over.
  let passed := count letter.sender.other + k - (g thread.session).count (thread.role letter.sender.other)
  let standing := (g thread.session).draw (thread.role letter.sender.other) passed
  let fresh := (c.receiver letter).entropy.pair k
  have counted : standing.count (thread.role letter.sender.other) = count letter.sender.other + k := by
    have before := follows.counted
    simp only [standing, Standing.draw, Function.update_self, passed]
    omega
  have climbed : standing.Climbed (thread.terms w) := thread_stands.climbed.draw _ _
  obtain ⟨draws, stands'⟩ := (state_stands.draw _ passed).after_top climbed written leads top run
  rw [draws] at within ⊢
  have fresh_eq : fresh = (w.entropy letter.sender.other).pair (count letter.sender.other + k) := by
    simp only [fresh, before.drawn, Entropy.pair_skip]
  have above : (standing.climb (thread.role letter.sender.other) fresh).Climbed (thread.terms w) := by
    refine climbed.climb (Thread.terms_sound sound thread_stands.offered) ?_ ?_
    · rw [counted]
      simp only [Thread.terms, Thread.party_role]
      omega
    · rw [counted]
      simp only [Thread.terms, Thread.party_role]
      exact fresh_eq
  refine ⟨standing.climb (thread.role letter.sender.other) fresh, ⟨?_, above, fun rung member => ?_⟩,
    ⟨stands', ?_, .inl ⟨SessionState.read_acknowledges run, climbed.climb_answered leads⟩⟩,
    climbed.climb_heads leads follows.heard (top ▸ written.ratchetKey), ?_, ?_⟩
  · exact (Standing.draw_moves (g thread.session) (thread.role letter.sender.other) passed).trans (above.climb_moves leads)
  · rw [Standing.climb_rungs] at member
    rcases List.mem_cons.mp member with rfl | old
    · exact .inr ⟨_, Nat.le_add_right _ k, by omega, congrArg KeyPair.publicKey fresh_eq⟩
    · exact .inl old
  · rw [Standing.climb_rungs]
    simp only [Standing.climb, Function.update_self, List.mem_cons_self]
  · simp only [Standing.climb, Function.update_self]
    decide
  · simp only [Standing.climb, Function.update_self, counted]
    omega

theorem arrives (sound : w.Sound)
    (unmistaken : inner.ratchetKey ∈ (chains ((c.receiver letter).reads thread.session)).drop 5 → ¬ state.Mistakes inner)
    (within : count letter.sender.other + (k + state.draws inner) ≤ w.limit letter.sender.other) :
    ∃ s, opened.state.Arrives w thread (g thread.session) s letter.sender.other
      (inner.heading :: (c.receiver letter).reads thread.session) (count letter.sender.other)
      (count letter.sender.other + (k + state.draws inner)) := by
  rcases (stands.threads thread posted.member).climbed.heard_or_top posted.posted.climbed with heard | ⟨leads, top⟩
  · exact ⟨_, stands.arrives_heard posted state_stands run heard unmistaken⟩
  · exact stands.arrives_top posted state_stands run sound leads top within

end Arriving

/-- When a message has been read by the state of its session. -/
theorem after_read (stands : c.Stands w g count) (sound : w.Sound) (posted : letter.Posted w c.threads g thread inner rung n)
    {place k : Nat} (found : c.sent[place]? = some letter) {s : Standing} {device : Device}
    (arrives : opened.state.Arrives w thread (g thread.session) s letter.sender.other
      (inner.heading :: (c.receiver letter).reads thread.session) (count letter.sender.other) (count letter.sender.other + k))
    (became : (c.receiver letter).stores.Became device.stores (c.receiver letter).peer record'
      (w.identity letter.sender.other.other).publicKey)
    (turns : (c.receiver letter).record.Turns record' opened.state)
    (entropy_eq : device.ambient.entropy = (c.receiver letter).entropy.skip k) :
    ∃ g' count', Correspondence.Stands { c with
      ends := Function.update c.ends letter.sender.other
        ((c.receiver letter).after device letter.session (some inner.heading))
      delivered := place :: c.delivered } w g' count' := by
  have before := stands.ends letter.sender.other
  let after : Correspondent := (c.receiver letter).after device letter.session (some inner.heading)
  have record_eq : after.record = record' := Stores.recordOrFresh_eq became.kept
  have reads : after.reads thread.session = inner.heading :: (c.receiver letter).reads thread.session := by
    simp only [after, Correspondent.after, posted.session, Function.update_self]
    rfl
  rw [← record_eq] at turns
  rw [← reads] at arrives
  have here : after.Stands w c.threads (Function.update g thread.session s) letter.sender.other
      (count letter.sender.other + k) := by
    refine before.turned posted.member stands.distinct (entropy_eq.trans (by rw [before.drawn, Entropy.skip_skip]))
      (Nat.le_add_right _ k) became.own became.trusting turns arrives.engaged.stands.baseKey (fun other differs => ?_)
      ⟨arrives.heads, arrives.place, arrives.counted, .engaged opened.state turns.here arrives.engaged⟩
    simp only [after, Correspondent.after, posted.session, Function.update_of_ne differs]
  have sent : c.sent = c.sent ++ (none : Option Letter).toList := (List.append_nil c.sent).symm
  refine ⟨_, _, stands.moved posted.member arrives.climbs sound (Nat.le_add_right _ k) here
    ⟨rfl, rfl, sent, fun _ => List.mem_cons_of_mem _, fun session heading member => ?_⟩
    (fun _ member => absurd member (Option.not_mem_none _)) fun _ member => absurd member (Option.not_mem_none _)⟩
  by_cases same : session = thread.session
  · subst same
    rw [reads] at member
    rcases List.mem_cons.mp member with rfl | earlier
    · exact ⟨place, List.mem_cons_self, letter, found, (Party.other_other _).symm, posted.session, posted.heading?⟩
    · obtain ⟨place', was_delivered, rest⟩ := stands.read _ _ heading earlier
      exact ⟨place', List.mem_cons_of_mem _ was_delivered, rest⟩
  · have unread : after.reads session = (c.receiver letter).reads session := by
      simp only [after, Correspondent.after, posted.session, Function.update_of_ne same]
    rw [unread] at member
    obtain ⟨place', was_delivered, rest⟩ := stands.read _ _ heading member
    exact ⟨place', List.mem_cons_of_mem _ was_delivered, rest⟩

/-- Once a message has been read, by the state of its session. -/
theorem deliver_read (stands : c.Stands w g count) (sound : w.Sound) (posted : letter.Posted w c.threads g thread inner rung n)
    {place : Nat} (found : c.sent[place]? = some letter) (tries : (c.receiver letter).Tries letter.message record)
    (read_by : record.ReadBy inner state) (reader : c.Reader letter record state)
    (state_stands : state.Stands (thread.terms w) (g thread.session) (thread.role letter.sender.other)
      ((c.receiver letter).reads thread.session)) {left : Entropy}
    (run : record.read (c.receiver letter).peer inner (c.receiver letter).entropy = (.ok (record', opened), left))
    (within : ∀ m, (c.received letter).entropy = (w.entropy letter.sender.other).skip m → m ≤ w.limit letter.sender.other)
    (unevicted : ¬ c.Evicts (.deliver place))
    (unmistaken : ∀ state ∈ record.states, c.Stranger letter state → ¬ state.Mistakes inner) :
    ∃ g' count', Correspondence.Stands { c with
      ends := Function.update c.ends letter.sender.other (c.received letter)
      delivered := place :: c.delivered } w g' count' := by
  have before := stands.ends letter.sender.other
  obtain ⟨k, opens, left_eq, replaces⟩ := SessionRecord.read_of_only read_by.only run
  have remote : opened.state.remoteIdentityKey = .ok (w.identity letter.sender.other.other).publicKey := by
    rw [SessionState.read_remoteIdentityKey opens, ← thread.terms_identity_other w]
    exact state_stands.tracks.formed.remoteIdentityKey
  obtain ⟨stores, decrypted, became⟩ :=
    Stores.decrypt_of_read tries posted.from_other posted.posted.carried before.trusting run remote
  obtain ⟨result, device, received, rfl, entropy_eq⟩ := received_eq rfl decrypted
  rw [received, posted.heading?] at within ⊢
  have entropy_eq : device.ambient.entropy = (c.receiver letter).entropy.skip (k + state.draws inner) :=
    entropy_eq.trans left_eq
  have turns := stands.turns_of_reader reader (fun message form unknown full =>
    unevicted ⟨letter, message, found, form, by rw [result]; rfl, full, unknown⟩) replaces
    (SessionState.read_sameSession opens).baseKey
  have bound : count letter.sender.other + (k + state.draws inner) ≤ w.limit letter.sender.other :=
    within _ (entropy_eq.trans (by rw [before.drawn, Entropy.skip_skip]))
  obtain ⟨s, arrives⟩ := stands.arrives posted state_stands opens sound (fun pushed_out => unmistaken state read_by.member
    (.pushedOut inner posted.posted.carried (posted.session ▸ pushed_out))) bound
  exact stands.after_read sound posted found arrives became turns entropy_eq

theorem deliver (stands : c.Stands w g count) (sound : w.Sound) (place : Nat)
    (within : ∀ party m, ((c.deliver place).ends party).entropy = (w.entropy party).skip m → m ≤ w.limit party)
    (unevicted : ¬ c.Evicts (.deliver place)) (unmistaken : c.Unmistaken place) :
    ∃ g' count', (c.deliver place).Stands w g' count' := by
  by_cases delivered : place ∈ c.delivered
  · exact ⟨g, count, by rw [Correspondence.deliver, if_pos delivered]; exact stands⟩
  cases found : c.sent[place]? with
  | none => exact ⟨g, count, by rw [Correspondence.deliver, if_neg delivered, found]; exact stands⟩
  | some letter =>
    obtain ⟨thread, inner, rung, n, posted⟩ := stands.posted letter (List.mem_of_getElem? found)
    have before := stands.ends letter.sender.other
    have carried := posted.posted.carried
    rw [deliver_eq delivered found rfl] at within ⊢
    rcases (c.receiver letter).stores.tries_or_refuses (c.receiver letter).peer (c.receiver letter).entropy carried with
      ⟨record, tries⟩ | ⟨fault, refused⟩
    · have unmistaken : ∀ state ∈ record.states, c.Stranger letter state → ¬ state.Mistakes inner :=
        fun state member => unmistaken letter inner record state found carried tries member
      obtain ⟨state, read_by, outcome⟩ := stands.tried posted sound tries unmistaken
      rcases run : record.read (c.receiver letter).peer inner (c.receiver letter).entropy with
        ⟨fault | ⟨record', opened⟩, left⟩
      · obtain ⟨k, skips⟩ := record.read_skips (c.receiver letter).peer inner (c.receiver letter).entropy
        rw [run] at skips
        obtain ⟨stores, decrypted, spares⟩ := Stores.decrypt_of_unread tries posted.from_other carried before.trusting run
        obtain ⟨_, device, received, rfl, entropy_eq⟩ := received_eq rfl decrypted
        rw [received]
        exact ⟨g, stands.after_refused place letter.session spares (entropy_eq.trans skips)⟩
      · rcases outcome with silent | ⟨reader, state_stands⟩
        · obtain ⟨k, opens, _, _⟩ := SessionRecord.read_of_only read_by.only run
          exact absurd ⟨_, _, opens⟩ silent.unread
        · refine stands.deliver_read sound posted found tries read_by reader state_stands run (fun m left => ?_) unevicted
            unmistaken
          refine within letter.sender.other m ?_
          simp only [Function.update_self]
          exact left
    · obtain ⟨_, device, received, stores_eq, entropy_eq⟩ := received_eq rfl refused
      rw [received]
      have spares : (c.receiver letter).stores.Spares device.stores (c.receiver letter).peer
          (w.identity letter.sender.other.other).publicKey := ⟨.inl stores_eq, stores_eq ▸ before.trusting⟩
      have entropy_eq : device.ambient.entropy = (c.receiver letter).entropy.skip 0 := entropy_eq
      exact ⟨g, stands.after_refused place letter.session spares entropy_eq⟩

/-! ## Runs -/

theorem step (stands : c.Stands w g count) (sound : w.Sound) (event : Correspondence.Event)
    (within : ∀ party m, ((c.step event).ends party).entropy = (w.entropy party).skip m → m ≤ w.limit party)
    (offered : ∀ party offer, event = .begin party offer → w.offered party.other offer)
    (bounded : ∀ letter ∈ (c.step event).sent, ∀ inner, letter.message.inner? = some inner → inner.counter ≠ 0xffffffff)
    (unevicted : ¬ c.Evicts event) (unmistaken : ∀ place, event = .deliver place → c.Unmistaken place) :
    ∃ g' count', (c.step event).Stands w g' count' := by
  cases event with
  | begin party offer =>
    have before_within : ∀ other, count other ≤ w.limit other := by
      intro other
      obtain ⟨k, later⟩ := c.step_skips (.begin party offer) other
      have drawn := within other (count other + k) (later.trans (by rw [(stands.ends other).drawn, Entropy.skip_skip]))
      exact Nat.le_trans (Nat.le_add_right _ k) drawn
    exact stands.begin sound (offered party offer rfl) before_within (within party) unevicted
  | send party plaintext => exact stands.send sound plaintext bounded
  | deliver place => exact stands.deliver sound place within unevicted (unmistaken place rfl)
  | stock party preKeys signedPreKeys =>
    obtain ⟨count', after⟩ := stands.stock preKeys signedPreKeys
    exact ⟨g, count', after⟩

theorem run (stands : c.Stands w g count) (sound : w.Sound) (events : List Correspondence.Event)
    (within : ∀ party m, ((c.run events).ends party).entropy = (w.entropy party).skip m → m ≤ w.limit party)
    (offered : ∀ party offer, .begin party offer ∈ events → w.offered party.other offer)
    (bounded : ∀ letter ∈ (c.run events).sent, ∀ inner, letter.message.inner? = some inner → inner.counter ≠ 0xffffffff)
    (unevicted : ∀ before event after, events = before ++ event :: after → ¬ (c.run before).Evicts event)
    (unmistaken : ∀ before place after, events = before ++ .deliver place :: after → (c.run before).Unmistaken place) :
    ∃ g' count', (c.run events).Stands w g' count' := by
  -- Where the sessions stand changes with every event, so the induction is for all standings at once.
  induction events generalizing c g count with
  | nil => exact ⟨g, count, stands⟩
  | cons event rest ih =>
    have within_step : ∀ party m, ((c.step event).ends party).entropy = (w.entropy party).skip m → m ≤ w.limit party := by
      intro party m drawn
      obtain ⟨k, later⟩ := (c.step event).run_skips rest party
      exact Nat.le_trans (Nat.le_add_right m k) (within party _ (later.trans (by rw [drawn, Entropy.skip_skip])))
    obtain ⟨g', count', stands'⟩ := stands.step sound event within_step
      (fun party offer made => offered party offer (made ▸ List.mem_cons_self))
      (fun letter member => bounded letter (((c.step event).run_sent rest).subset member))
      (unevicted [] event rest rfl) fun place made => unmistaken [] place rest (made ▸ rfl)
    refine ih stands' within (fun party offer member => offered party offer (List.mem_cons_of_mem _ member)) bounded
      (fun before next after split => ?_) fun before place after split => ?_
    · exact unevicted (event :: before) next after (by rw [split]; rfl)
    · exact unmistaken (event :: before) place after (by rw [split]; rfl)

end Correspondence.Stands

end DoubleRatchet
