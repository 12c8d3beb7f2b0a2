import DoubleRatchet.Proofs.Sessions.Steps

/-! Delivery when two devices have any number of sessions with each other. Whatever sessions are current or archived on
either side, a message that its own session can still read is decrypted to what it was made from. -/
namespace DoubleRatchet

variable {c : Correspondence} {w : Setting} {g : Bytes → Standing} {count : Party → Nat} {letter : Letter}
  {thread : Thread} {inner : RatchetMessage} {rung : Rung} {n : Nat} {place : Nat}

/-- The receiver has the session that a message announces, or still holds the keys that the session was begun from. A
message that announces none asks for nothing. -/
def Correspondence.Answerable (c : Correspondence) (letter : Letter) : Prop :=
  ∀ message, letter.message = .preKey message →
    (c.receiver letter).record.hasStateFor message.version.toUInt32 message.baseKey = true ∨
    ∃ thread ∈ c.threads, thread.session = letter.session ∧ thread.offer.Held (c.receiver letter).stores

namespace Correspondence.Stands

/-- A message that can be answered is tried on a record that reads it with the state of its session. -/
theorem reader (stands : c.Stands w g count) (sound : w.Sound) (posted : letter.Posted w c.threads g thread inner rung n)
    (found : c.sent[place]? = some letter) (answerable : c.Answerable letter) (unmistaken : c.Unmistaken place) :
    ∃ record state, (c.receiver letter).Tries letter.message record ∧ record.ReadBy inner state ∧
      state.Stands (thread.terms w) (g thread.session) (thread.role letter.sender.other)
        ((c.receiver letter).reads thread.session) := by
  have unmistaken (record) (tries : (c.receiver letter).Tries letter.message record) :
      ∀ state ∈ record.states, c.Stranger letter state → ¬ state.Mistakes inner :=
    fun state member => unmistaken letter inner record state found posted.posted.carried tries member
  cases ((stands.ends letter.sender.other).follows thread posted.member).session with
  | engaged state kept engaged =>
    have tries := stands.tries_of_kept posted kept engaged.stands
    exact ⟨_, state, tries, stands.readBy_of_kept posted kept engaged.stands (unmistaken _ tries), engaged.stands⟩
  | awaiting awaits =>
    obtain ⟨registrationId, form⟩ := form_of_awaits posted awaits
    have held : thread.offer.Held (c.receiver letter).stores := by
      rcases answerable _ form with has | ⟨other, begun, same, held⟩
      · rw [hasStateFor_of_awaits awaits] at has
        cases has
      · rwa [← stands.same_thread begun posted.member (same.trans posted.session)]
    obtain ⟨record, tries⟩ := stands.tries_of_held posted awaits held
    obtain ⟨state, made, _, state_stands⟩ := stands.responder_of_held posted awaits sound held tries
    exact ⟨record, state, tries, stands.readBy_of_built posted awaits (unmistaken _ tries) made, state_stands⟩

theorem decrypts (stands : c.Stands w g count) (sound : w.Sound) (found : c.sent[place]? = some letter)
    (undelivered : place ∉ c.delivered) (carried : letter.message.inner? = some inner) (answerable : c.Answerable letter)
    (unmistaken : c.Unmistaken place) (deliverable : Deliverable ((c.receiver letter).reads letter.session) inner) :
    (c.decrypt letter).1 = .ok letter.plaintext := by
  obtain ⟨thread, inner', rung, n, posted⟩ := stands.posted letter (List.mem_of_getElem? found)
  cases posted.posted.carried.symm.trans carried
  have before := stands.ends letter.sender.other
  obtain ⟨record, state, tries, read_by, state_stands⟩ := stands.reader sound posted found answerable unmistaken
  rw [posted.session] at deliverable
  have reads : ∀ fresh, ∃ opened, state.read inner fresh = .ok opened ∧ opened.plaintext = letter.plaintext :=
    state_stands.reads_plaintext (stands.threads thread posted.member).climbed
      (before.follows thread posted.member).heard posted.posted.climbed posted.posted.written
      (stands.unread posted found undelivered) deliverable
  obtain ⟨_, read, _⟩ := reads ((c.receiver letter).entropy.pair 0)
  rcases run : record.read (c.receiver letter).peer inner (c.receiver letter).entropy with ⟨result, left⟩
  obtain ⟨⟨record', opened⟩, ok⟩ := read_by.reads ⟨_, _, read⟩ (c.receiver letter).peer (c.receiver letter).entropy
  rw [run] at ok
  subst ok
  obtain ⟨k, opens, _, _⟩ := SessionRecord.read_of_only read_by.only run
  obtain ⟨_, again, plaintext⟩ := reads ((c.receiver letter).entropy.pair k)
  cases again.symm.trans opens
  have remote : opened.state.remoteIdentityKey = .ok (w.identity letter.sender.other.other).publicKey := by
    rw [SessionState.read_remoteIdentityKey opens, ← thread.terms_identity_other w]
    exact state_stands.tracks.formed.remoteIdentityKey
  obtain ⟨_, decrypted, _⟩ := Stores.decrypt_of_read tries posted.from_other carried before.trusting run remote
  rw [(received_eq rfl decrypted).1, plaintext]

end Correspondence.Stands

/-- Two devices, and the addresses under which they know each other. -/
structure Encounter where
  device : Party → Device
  peer : Party → Address

namespace Encounter

def start (m : Encounter) : Correspondence where
  ends party := { device := m.device party, peer := m.peer party }

/-- The devices have no session with each other, and none takes the other for someone else. -/
structure Opens (m : Encounter) : Prop where
  sessions : ∀ party, (m.device party).stores.sessions[m.peer party]? = none
  trusting : ∀ party, (m.device party).stores.Trusting (m.peer party) (m.device party.other).stores.identity.publicKey

/-- What a party has offered in the course of the events. -/
def offers (events : List Correspondence.Event) (party : Party) : List Offer :=
  events.filterMap fun
    | .begin starter offer => if starter.other = party then some offer else none
    | _ => none

/-- The key pairs that a party has drawn. -/
def drawn (m : Encounter) (events : List Correspondence.Event) (party : Party) : List KeyPair :=
  (m.device party).ambient.entropy.drawn ((m.start.run events).ends party).entropy

/-- The key pairs that a party has used. -/
def keyPairs (m : Encounter) (events : List Correspondence.Event) (party : Party) : List KeyPair :=
  (m.device party).stores.identity :: (offers events party).flatMap Offer.pairs ++ m.drawn events party

/-- Key pairs of the two parties agree; the keys that are drawn differ, also from those that their owner offers; and no
offer has its one-time key under the number that stands for none. -/
structure Keyed (m : Encounter) (events : List Correspondence.Event) : Prop where
  agrees : ∀ a ∈ m.keyPairs events .one, ∀ b ∈ m.keyPairs events .two, a.Agrees b
  apart : ((m.drawn events .one ++ m.drawn events .two).map KeyPair.publicKey).Nodup
  unoffered : ∀ party, ∀ offer ∈ offers events party,
    offer.signedPreKey.publicKey ∉ (m.drawn events party).map KeyPair.publicKey
  numbered : ∀ party, ∀ offer ∈ offers events party, ∀ key ∈ offer.oneTimePreKey, key.1 ≠ noPreKey

/-- The setting of a run in which each party draws as many key pairs as its limit says. -/
def setting (m : Encounter) (events : List Correspondence.Event) (limit : Party → Nat) : Setting where
  identity party := (m.device party).stores.identity
  entropy party := (m.device party).ambient.entropy
  limit
  keys party pair := pair ∈ m.keyPairs events party
  offered party offer := offer ∈ offers events party

variable {m : Encounter} {events : List Correspondence.Event} {limit : Party → Nat}

theorem mem_offers {party : Party} {offer : Offer} (member : .begin party offer ∈ events) :
    offer ∈ offers events party.other :=
  List.mem_filterMap.mpr ⟨_, member, if_pos rfl⟩

theorem run_limit (m : Encounter) (events : List Correspondence.Event) :
    ∃ limit : Party → Nat, ∀ party, ((m.start.run events).ends party).entropy =
      (m.device party).ambient.entropy.skip (limit party) := by
  choose limit skips using m.start.run_skips events
  exact ⟨limit, skips⟩

theorem Keyed.sound (keyed : m.Keyed events) (final : ∀ party, ((m.start.run events).ends party).entropy =
    (m.device party).ambient.entropy.skip (limit party)) : (m.setting events limit).Sound := by
  have drawn : ∀ party, m.drawn events party = (List.range (limit party)).map (m.device party).ambient.entropy.pair := by
    intro party
    rw [Encounter.drawn, final, Entropy.drawn_skip]
  have of_lt : ∀ party n, n < limit party → (m.device party).ambient.entropy.pair n ∈ m.drawn events party := by
    intro party n lt
    rw [drawn]
    exact List.mem_map_of_mem (List.mem_range.mpr lt)
  have apart := keyed.apart
  rw [List.map_append] at apart
  obtain ⟨one, two, differ⟩ := List.nodup_append.mp apart
  refine ⟨fun party a b ours theirs => ?_, fun party => List.mem_cons_self, fun party n lt => ?_,
    fun party offer offered => ⟨fun pair member => ?_, keyed.numbered party offer offered⟩, fun a b i j i_lt j_lt same => ?_,
    fun party offer n offered lt same => ?_⟩
  · cases party with
    | one => exact keyed.agrees a ours b theirs
    | two => exact (keyed.agrees b theirs a ours).symm
  · exact List.mem_append_right _ (of_lt party n lt)
  · exact List.mem_append_left _ (List.mem_cons_of_mem _ (List.mem_flatMap.mpr ⟨offer, offered, member⟩))
  · have within : ∀ party, ((m.drawn events party).map KeyPair.publicKey).Nodup := by
      intro party
      cases party with
      | one => exact one
      | two => exact two
    have i_mem := List.mem_map_of_mem (f := KeyPair.publicKey) (of_lt a i i_lt)
    have j_mem := List.mem_map_of_mem (f := KeyPair.publicKey) (of_lt b j j_lt)
    by_cases party : a = b
    · subst party
      have distinct := within a
      rw [drawn, List.map_map] at distinct
      exact ⟨rfl, List.inj_on_of_nodup_map distinct (List.mem_range.mpr i_lt) (List.mem_range.mpr j_lt) same⟩
    · cases a <;> cases b
      · exact absurd rfl party
      · exact absurd same (differ _ i_mem _ j_mem)
      · exact absurd same.symm (differ _ j_mem _ i_mem)
      · exact absurd rfl party
  · exact keyed.unoffered party offer offered (same ▸ List.mem_map_of_mem (of_lt party n lt))

/-- Where any session stands before it is begun. -/
def unbegun (m : Encounter) : Standing where
  own _ := ⟨(m.device .one).stores.identity, (RootKey.ofAgreements []).1, (RootKey.ofAgreements []).2.key⟩
  rungs _ := []
  place _ := 0
  count _ := 0
  leader := .initiator

theorem Opens.start_stands (opens : m.Opens) (events : List Correspondence.Event) (limit : Party → Nat) :
    m.start.Stands (m.setting events limit) (fun _ => m.unbegun) fun _ => 0 where
  threads _ member := absurd member List.not_mem_nil
  distinct := List.nodup_nil
  apart _ member := absurd member List.not_mem_nil
  ends party := by
    have record : (m.start.ends party).record = .fresh := by
      simp only [Correspondent.record, Stores.recordOrFresh, Correspondent.stores, start, opens.sessions party]
      rfl
    refine ⟨rfl, rfl, opens.trusting party, ?_, fun state kept => ?_, fun _ member => absurd member List.not_mem_nil⟩
    · rw [record]
      exact SessionRecord.fresh_orderly
    · rw [record] at kept
      cases kept
  posted _ member := absurd member List.not_mem_nil
  headings := List.Pairwise.nil
  read _ _ _ member := by cases member

end Encounter

/-- Two devices that begin with no session between them and have come through any events without giving up an archived
state: the next delivery of a message that can be answered and still be read gives back what the message was made from.
Assumed are that key pairs agree and differ, that no chain is used up, and that the MAC of a message is not taken for that
of another. -/
theorem delivers_in_any_session (m : Encounter) (events : List Correspondence.Event) (opens : m.Opens) (keyed : m.Keyed events)
    (bounded : ∀ letter ∈ (m.start.run events).sent, ∀ inner, letter.message.inner? = some inner →
      inner.counter ≠ 0xffffffff)
    (unevicted : ∀ before event after, events = before ++ event :: after → ¬ (m.start.run before).Evicts event)
    (unmistaken : ∀ before place after, events = before ++ .deliver place :: after → (m.start.run before).Unmistaken place)
    (place : Nat) (letter : Letter) (found : (m.start.run events).sent[place]? = some letter)
    (undelivered : place ∉ (m.start.run events).delivered) (answerable : (m.start.run events).Answerable letter)
    (unmistaken_now : (m.start.run events).Unmistaken place) : ∃ inner, letter.message.inner? = some inner ∧
      (Deliverable (((m.start.run events).receiver letter).reads letter.session) inner →
        ((m.start.run events).decrypt letter).1 = .ok letter.plaintext) := by
  obtain ⟨limit, final⟩ := m.run_limit events
  have sound := keyed.sound final
  have within : ∀ party n, ((m.start.run events).ends party).entropy = (m.device party).ambient.entropy.skip n →
      n ≤ limit party := by
    intro party n left
    exact Nat.le_of_eq (Entropy.skip_injective _ (left.symm.trans (final party)))
  obtain ⟨g, count, stands⟩ := (opens.start_stands events limit).run sound events within
    (fun party offer => Encounter.mem_offers) bounded unevicted unmistaken
  obtain ⟨thread, inner, rung, n, posted⟩ := stands.posted letter (List.mem_of_getElem? found)
  have carried := posted.posted.carried
  exact ⟨inner, carried, stands.decrypts sound found undelivered carried answerable unmistaken_now⟩

/-! ## A session that its sender has left for another -/

namespace Sample

def offer : Offer where
  registrationId := 2
  deviceId := 1
  signedPreKeyId := 1
  signedPreKey
  signature
  oneTimePreKey := none

def encounter : Encounter where
  device
    | .one => initiating
    | .two => responding
  peer
    | .one => responder
    | .two => initiator

/-- The same offer is taken twice. -/
def restart : List Correspondence.Event := [.begin .one offer, .send .one [1, 2, 3], .begin .one offer]

def restarted : Correspondence := encounter.start.run restart

def begun (n : Nat) : Thread := ⟨.one, initiating.ambient.entropy.pair n, offer⟩

theorem encounter_opens : encounter.Opens where
  sessions party := by cases party <;> rfl
  trusting party := by cases party <;> exact ⟨rfl, nofun⟩

/-- What the run comes to: two sessions, the first of which was alone when the second was begun, and one message. -/
theorem restart_run :
    ((encounter.start.run [.begin .one offer, .send .one [1, 2, 3]]).ends .one).record.archived = [] ∧
    (restarted.ends .one).entropy.position = initiating.ambient.entropy.position + 32 * 4 ∧
    restarted.threads = [begun 2, begun 0] ∧
    restarted.sent.map (fun letter => ((letter.sender, letter.session, letter.plaintext),
        (match letter.message with | .preKey message => some message.baseKey | _ => none),
        letter.message.inner?.map RatchetMessage.counter)) =
      [((.one, (begun 0).session, [1, 2, 3]), some (begun 0).base.publicKey, some 0)] := by
  decide +kernel

theorem restart_agrees : ∀ a ∈ initiating.stores.identity :: (List.range 4).map initiating.ambient.entropy.pair,
    ∀ b ∈ [identity, signedPreKey], a.Agrees b := by
  unfold KeyPair.Agrees
  decide +kernel

theorem restart_apart : (((List.range 4).map initiating.ambient.entropy.pair).map KeyPair.publicKey).Nodup := by
  decide +kernel

theorem restart_offers (party : Party) : Encounter.offers restart party = match party with
    | .one => []
    | .two => [offer, offer] := by
  cases party <;> rfl

theorem encounter_keyed : encounter.Keyed restart := by
  obtain ⟨_, drawn_four, _⟩ := restart_run
  obtain ⟨limit, final⟩ := encounter.run_limit restart
  have four : limit .one = 4 := by
    rw [restarted, final] at drawn_four
    exact Nat.eq_of_mul_eq_mul_left (Nat.succ_pos 31) (Nat.add_left_cancel drawn_four)
  have one : encounter.drawn restart .one = (List.range 4).map initiating.ambient.entropy.pair := by
    rw [Encounter.drawn, final, Entropy.drawn_skip, four]
    rfl
  have two : encounter.drawn restart .two = [] := Entropy.drawn_skip responding.ambient.entropy 0
  refine ⟨fun a ours b theirs => ?_, ?_, fun party made offered => ?_, fun party made offered => ?_⟩
  · rw [Encounter.keyPairs, one, restart_offers] at ours
    rw [Encounter.keyPairs, two, restart_offers] at theirs
    have used : b = identity ∨ b = signedPreKey := by simpa [Offer.pairs, offer, encounter, responding] using theirs
    exact restart_agrees a ours b (by simpa using used)
  · rw [one, two, List.append_nil]
    exact restart_apart
  · cases party with
    | one =>
      rw [restart_offers] at offered
      cases offered
    | two =>
      rw [two]
      exact List.not_mem_nil
  · cases party <;> rw [restart_offers] at offered
    · cases offered
    · have same : made = offer := by simpa using offered
      rw [same]
      nofun

/-- The message in flight announces the first session. -/
theorem restart_letter : ∃ letter message, restarted.sent = [letter] ∧ letter.message = .preKey message ∧
    letter.sender = .one ∧ letter.session = (begun 0).session ∧ message.baseKey = (begun 0).base.publicKey ∧
    letter.plaintext = [1, 2, 3] ∧ message.message.counter = 0 := by
  obtain ⟨_, _, _, sent⟩ := restart_run
  obtain ⟨letter, only, seen⟩ := List.map_eq_singleton_iff.mp sent
  simp only [Prod.mk.injEq] at seen
  obtain ⟨⟨sender, session, plaintext⟩, announced, number⟩ := seen
  cases form : letter.message with
  | preKey message =>
    rw [form] at announced number
    exact ⟨letter, message, only, form, sender, session, Option.some.inj announced, plaintext, Option.some.inj number⟩
  | _ =>
    rw [form] at announced
    cases announced

theorem begun_mem : begun 0 ∈ restarted.threads := by
  obtain ⟨_, _, threads, _⟩ := restart_run
  rw [threads]
  exact List.mem_cons_of_mem _ List.mem_cons_self

theorem restarted_receiver {letter : Letter} (sender : letter.sender = .one) :
    restarted.receiver letter = encounter.start.ends .two := by
  rw [Correspondence.receiver, sender]
  rfl

theorem offer_held : offer.Held (encounter.start.ends .two).stores where
  signedPreKey := ⟨_, Std.ExtTreeMap.getElem?_insert_self, rfl⟩
  oneTimePreKey := nofun

theorem restart_unevicted (before : List Correspondence.Event) (event : Correspondence.Event)
    (after : List Correspondence.Event) (split : restart = before ++ event :: after) :
    ¬ (encounter.start.run before).Evicts event := by
  obtain ⟨archived, _⟩ := restart_run
  rcases before with _ | ⟨first, _ | ⟨second, _ | ⟨third, rest⟩⟩⟩
  · cases split
    rintro ⟨_, full, _⟩
    cases full
  · cases split
    exact id
  · cases split
    rintro ⟨_, _, full⟩
    rw [archived] at full
    cases full
  · cases rest <;> cases split

theorem restart_undelivering (before : List Correspondence.Event) (place : Nat) (after : List Correspondence.Event)
    (split : restart = before ++ .deliver place :: after) : (encounter.start.run before).Unmistaken place := by
  have member : .deliver place ∈ restart := split ▸ List.mem_append_right before List.mem_cons_self
  simp [restart] at member

/-- The receiver, which has no state yet, answers the message with one that it is meant for. -/
theorem restart_unmistaken : restarted.Unmistaken 0 := by
  obtain ⟨letter, message, sent, form, sender, session, baseKey, _⟩ := restart_letter
  intro other inner record state found carried tries kept stranger
  rw [sent] at found
  cases found
  rw [restarted_receiver sender, form] at tries
  have made : state.baseKey = letter.session := by
    cases tries with
    | preKey accepted =>
      cases (Stores.acceptMessage_eq_ok.mp accepted).2 with
      | known has => cases has
      | built unknown signedPreKey oneTimePreKey signed oneTime =>
        cases List.mem_singleton.mp kept
        exact (congrArg PublicKey.serialize baseKey).trans session.symm
  cases stranger with
  | other differs => exact absurd made differs
  | pushedOut inner carried pushed_out =>
    rw [restarted_receiver sender] at pushed_out
    cases pushed_out
  | unheld new unheld =>
    rw [restarted_receiver sender] at unheld
    exact absurd offer_held (unheld _ begun_mem session.symm)

end Sample

/-- The message of a session that its sender has since left for another. -/
theorem delivers_in_any_session_left : ∃ letter, Sample.restarted.sent[0]? = some letter ∧
    (Sample.restarted.decrypt letter).1 = .ok [1, 2, 3] := by
  obtain ⟨letter, message, sent, form, sender, session, _, plaintext, counter⟩ := Sample.restart_letter
  have found : Sample.restarted.sent[0]? = some letter := by
    rw [sent]
    rfl
  have bounded : ∀ letter ∈ Sample.restarted.sent, ∀ inner, letter.message.inner? = some inner →
      inner.counter ≠ 0xffffffff := by
    intro other member inner carried
    rw [sent] at member
    cases List.mem_singleton.mp member
    rw [form] at carried
    cases carried
    rw [counter]
    decide
  have answerable : Sample.restarted.Answerable letter := by
    rw [Correspondence.Answerable, Sample.restarted_receiver sender]
    exact fun _ _ => .inr ⟨_, Sample.begun_mem, session.symm, Sample.offer_held⟩
  obtain ⟨inner, carried, decrypts⟩ := delivers_in_any_session Sample.encounter Sample.restart Sample.encounter_opens
    Sample.encounter_keyed bounded Sample.restart_unevicted Sample.restart_undelivering 0 letter found List.not_mem_nil
    answerable Sample.restart_unmistaken
  rw [form] at carried
  cases carried
  refine ⟨letter, found, plaintext ▸ decrypts ?_⟩
  have unread : (Sample.restarted.receiver letter).reads letter.session = [] := by
    rw [Sample.restarted_receiver sender]
    rfl
  change Deliverable ((Sample.restarted.receiver letter).reads letter.session) message.message
  rw [unread]
  refine ⟨?_, nofun, fun behind => absurd behind (Nat.not_lt_zero _)⟩
  rw [counter]
  exact Nat.zero_le _

end DoubleRatchet
