import DoubleRatchet.Proofs.Sessions.Invariant

/-! What a message is tried on when it is delivered. The one state that it is meant for has been kept, or is built for it
if the offer is still held; every other state is silent. -/
namespace DoubleRatchet

variable {c : Correspondence} {w : Setting} {g : Bytes → Standing} {count : Party → Nat} {letter : Letter}
  {thread : Thread} {inner : RatchetMessage} {rung : Rung} {n : Nat} {record : SessionRecord} {state : SessionState}

/-- The state that a message is meant for, in the record that it is tried on: it has been kept, or is new. -/
inductive Correspondence.Reader (c : Correspondence) (letter : Letter) (record : SessionRecord) (state : SessionState) : Prop
  | kept (member : state ∈ (c.receiver letter).record.states) (same : record = (c.receiver letter).record)
  | built (message : PreKeyMessage) (form : letter.message = .preKey message)
    (unknown : (c.receiver letter).record.hasStateFor message.version.toUInt32 message.baseKey = false)
    (made : record = (c.receiver letter).record.install state)
    (new : ∀ other ∈ (c.receiver letter).record.states, other.baseKey ≠ state.baseKey)

/-- A record that a message is tried on reads it with the one state or not at all. -/
structure SessionRecord.ReadBy (record : SessionRecord) (message : RatchetMessage) (state : SessionState) : Prop where
  member : state ∈ record.states
  others : ∀ other ∈ record.states, other = state ∨ other.Silent message

namespace SessionRecord

theorem ReadBy.only (by_state : record.ReadBy inner state) :
    ∀ other ∈ record.states, other.Reads inner → other = state :=
  fun other member reads => (by_state.others other member).resolve_right fun silent => silent.unread reads

/-- The states before the one that can read the message are passed over. -/
theorem ReadBy.reads (by_state : record.ReadBy inner state) (reads : state.Reads inner) (peer : Address) (e : Entropy) :
    ∃ found, (record.read peer inner e).1 = .ok found := by
  refine (record.read_isOk_iff inner ?_ peer e).mpr ⟨state, by_state.member, reads⟩
  intro current present fresh index counter repeated
  have member : current ∈ record.states := List.mem_append_left _ (Option.mem_toList.mpr present)
  rcases by_state.others current member with rfl | silent
  · obtain ⟨_, _, run⟩ := reads
    obtain ⟨_, run', _⟩ := SessionState.read_with_any run fresh
    rw [run'] at repeated
    cases repeated
  · exact silent.unrepeated fresh index counter repeated

theorem mem_install {other : SessionState} (member : other ∈ (record.install state).states) :
    other = state ∨ other ∈ record.states := by
  obtain ⟨kept, sub, states⟩ := record.install_states state
  rw [states] at member
  exact (List.mem_cons.mp member).imp_right fun kept => sub.subset kept

/-- Of all that a record keeps, a message announces the handshake of none. -/
theorem hasStateFor_of_none (version : UInt32) (baseKey : PublicKey)
    (none_kept : ∀ state ∈ record.states, state.baseKey ≠ baseKey.serialize) : record.hasStateFor version baseKey = false := by
  rw [hasStateFor, List.any_eq_false]
  intro state kept
  simp [none_kept state kept]

end SessionRecord

theorem Offer.Held.oneTimeKey {offer : Offer} {stores : Stores} (held : offer.Held stores) :
    stores.oneTimeKey (offer.oneTimePreKey.map (·.1)) = .ok (offer.oneTimePreKey.map (·.2)) := by
  cases offered : offer.oneTimePreKey with
  | none => rfl
  | some key =>
    obtain ⟨record, found, pair⟩ := held.oneTimePreKey key offered
    rw [Option.map_some, Stores.oneTimeKey, found, Option.map_some, ← pair]
    rfl

namespace Correspondence.Stands

variable (stands : c.Stands w g count) (posted : letter.Posted w c.threads g thread inner rung n)

include stands posted

theorem trusted {message : PreKeyMessage} (form : letter.message = .preKey message) :
    (c.receiver letter).stores.isTrusted (c.receiver letter).peer message.identityKey .receiving := by
  have sender := posted.from_other
  rw [form] at sender
  rw [show message.identityKey = _ from sender]
  exact (stands.ends letter.sender.other).trusting.isTrusted .receiving

omit stands in
theorem stranger_of_other {other : SessionState} (differs : other.baseKey ≠ thread.session) : c.Stranger letter other :=
  .other (posted.session ▸ differs)

/-! ## A session that the receiver has a state of -/

section Engaged

variable (kept : state ∈ (c.receiver letter).record.states)
  (state_stands : state.Stands (thread.terms w) (g thread.session) (thread.role letter.sender.other)
    ((c.receiver letter).reads thread.session))

include kept state_stands

omit stands posted in
theorem hasStateFor_of_kept (registrationId : UInt32) (inner : RatchetMessage) :
    (c.receiver letter).record.hasStateFor ((thread.terms w).opening registrationId inner).version.toUInt32
      ((thread.terms w).opening registrationId inner).baseKey = true := by
  have version : state.version = ((thread.terms w).opening registrationId inner).version.toUInt32 := by
    rw [SessionState.version, state_stands.tracks.formed.version]
    rfl
  have baseKey : state.baseKey = ((thread.terms w).opening registrationId inner).baseKey.serialize := state_stands.baseKey
  rw [SessionRecord.hasStateFor, List.any_eq_true]
  exact ⟨state, kept, by simp [version, baseKey]⟩

theorem tries_of_kept : (c.receiver letter).Tries letter.message (c.receiver letter).record := by
  rcases posted.form with ⟨form, _⟩ | ⟨responds, registrationId, form⟩
  · rw [form]
    exact .ratchet (Correspondent.kept_of_mem kept)
  · have trusted := stands.trusted posted form
    rw [form]
    exact .preKey (Stores.acceptMessage_eq_ok.mpr ⟨trusted, .known (hasStateFor_of_kept kept state_stands registrationId inner)⟩)

omit stands in
theorem record_of_kept (tries : (c.receiver letter).Tries letter.message record) :
    record = (c.receiver letter).record := by
  rcases posted.form with ⟨form, _⟩ | ⟨responds, registrationId, form⟩
  · rw [form] at tries
    cases tries with
    | ratchet loaded => exact (Stores.recordOrFresh_eq loaded).symm
  · rw [form] at tries
    cases tries with
    | preKey accepted =>
      cases (Stores.acceptMessage_eq_ok.mp accepted).2 with
      | known has => rfl
      | built unknown signedPreKey oneTimePreKey signed oneTime =>
        exact absurd (hasStateFor_of_kept kept state_stands registrationId inner) (Bool.eq_false_iff.mp unknown)

theorem readBy_of_kept (unmistaken : ∀ state ∈ (c.receiver letter).record.states, c.Stranger letter state →
    ¬ state.Mistakes inner) : (c.receiver letter).record.ReadBy inner state := by
  refine ⟨kept, fun other member => ?_⟩
  by_cases same : other.baseKey = thread.session
  · exact .inl ((stands.ends letter.sender.other).orderly.same member kept (same.trans state_stands.baseKey.symm))
  · exact .inr (stands.silent_of_other posted member same (unmistaken other member (stranger_of_other posted same)))

end Engaged

/-! ## A session that the receiver has no state of -/

section Awaiting

variable (awaits : (c.receiver letter).Awaits w thread (g thread.session) letter.sender.other)

include awaits

omit stands posted in
theorem hasStateFor_of_awaits (registrationId : UInt32) (inner : RatchetMessage) :
    (c.receiver letter).record.hasStateFor ((thread.terms w).opening registrationId inner).version.toUInt32
      ((thread.terms w).opening registrationId inner).baseKey = false :=
  SessionRecord.hasStateFor_of_none _ _ awaits.none_kept

omit stands in
/-- Until the session has been answered its messages announce it. -/
theorem form_of_awaits : ∃ registrationId, letter.message = .preKey ((thread.terms w).opening registrationId inner) := by
  rcases posted.form with ⟨_, answered⟩ | ⟨_, form⟩
  · exact absurd answered awaits.unanswered
  · exact form

omit stands in
/-- The handshake of the message is answered with a new state, from whatever keys are held under the numbers it names. -/
theorem built_of_awaits (tries : (c.receiver letter).Tries letter.message record) :
    ∃ registrationId signedPreKey oneTimePreKey,
      letter.message = .preKey ((thread.terms w).opening registrationId inner) ∧
      (c.receiver letter).stores.signedPreKeys[thread.offer.signedPreKeyId]? = some signedPreKey ∧
      (c.receiver letter).stores.oneTimeKey (thread.offer.oneTimePreKey.map (·.1)) = .ok oneTimePreKey ∧
      record = (c.receiver letter).record.install ((c.receiver letter).stores.responderState
        ((thread.terms w).opening registrationId inner) signedPreKey.keyPair oneTimePreKey) := by
  obtain ⟨registrationId, form⟩ := form_of_awaits posted awaits
  rw [form] at tries
  cases tries with
  | preKey accepted =>
    cases (Stores.acceptMessage_eq_ok.mp accepted).2 with
    | known has => exact absurd has (Bool.eq_false_iff.mp (hasStateFor_of_awaits awaits registrationId inner))
    | built unknown signedPreKey oneTimePreKey signed oneTime =>
      exact ⟨registrationId, signedPreKey, oneTimePreKey, form, signed, oneTime, rfl⟩

theorem tries_of_held (held : thread.offer.Held (c.receiver letter).stores) :
    ∃ record, (c.receiver letter).Tries letter.message record := by
  obtain ⟨registrationId, form⟩ := form_of_awaits posted awaits
  have trusted := stands.trusted posted form
  obtain ⟨signedPreKey, signed, _⟩ := held.signedPreKey
  rw [form]
  exact ⟨_, .preKey (Stores.acceptMessage_eq_ok.mpr ⟨trusted,
    .built (hasStateFor_of_awaits awaits registrationId inner) signedPreKey _ signed held.oneTimeKey⟩)⟩

/-- The new state is read with, or not even that. -/
theorem readBy_of_built (unmistaken : ∀ state ∈ record.states, c.Stranger letter state → ¬ state.Mistakes inner)
    (made : record = (c.receiver letter).record.install state) : record.ReadBy inner state := by
  subst made
  refine ⟨List.mem_cons_self, fun other member => ?_⟩
  refine (SessionRecord.mem_install member).imp_right fun kept => ?_
  have differs := awaits.none_kept other kept
  exact stands.silent_of_other posted kept differs (unmistaken other member (stranger_of_other posted differs))

/-- While the offer is held, the new state is that of the session. -/
theorem responder_of_held (sound : w.Sound) (held : thread.offer.Held (c.receiver letter).stores)
    (tries : (c.receiver letter).Tries letter.message record) :
    ∃ state, record = (c.receiver letter).record.install state ∧ c.Reader letter record state ∧
      state.Stands (thread.terms w) (g thread.session) (thread.role letter.sender.other)
        ((c.receiver letter).reads thread.session) := by
  obtain ⟨registrationId, signedPreKey, oneTimePreKey, form, signed, oneTime, made⟩ := built_of_awaits posted awaits tries
  obtain ⟨found, signed', pair⟩ := held.signedPreKey
  cases signed.symm.trans signed'
  cases oneTime.symm.trans held.oneTimeKey
  have before := stands.ends letter.sender.other
  have thread_stands := stands.threads thread posted.member
  have answerer := thread.answerer_of_role awaits.responds
  have unheard : (g thread.session).heard .responder = [] := by
    have heard := (before.follows thread posted.member).heard
    rw [awaits.unread, awaits.responds] at heard
    exact List.map_eq_nil_iff.mp heard
  have state_stands := Thread.responderState_stands sound thread_stands.offered thread_stands.keyed
    (before.identity.trans (congrArg w.identity answerer)) awaits.ground awaits.start unheard registrationId inner
  rw [pair] at made
  refine ⟨_, made, .built _ form (hasStateFor_of_awaits awaits registrationId inner) made awaits.none_kept, ?_⟩
  rw [awaits.unread, awaits.responds]
  exact state_stands

/-- From other keys than those that were offered comes a state that reads nothing of the session. -/
theorem silent_of_unheld (unheld : ¬ thread.offer.Held (c.receiver letter).stores)
    (tries : (c.receiver letter).Tries letter.message record)
    (unmistaken : ∀ state ∈ record.states, c.Stranger letter state → ¬ state.Mistakes inner) :
    ∃ state, record = (c.receiver letter).record.install state ∧ state.Silent inner := by
  obtain ⟨registrationId, signedPreKey, oneTimePreKey, form, signed, oneTime, made⟩ := built_of_awaits posted awaits tries
  have member := (stands.readBy_of_built posted awaits unmistaken made).member
  refine ⟨_, made, (SessionState.responderState_formed ..).silent rfl (unmistaken _ member (.unheld ?_ ?_))⟩
  · exact fun kept => awaits.none_kept _ kept rfl
  · intro other begun same
    rw [stands.same_thread begun posted.member (same.trans posted.session)]
    exact unheld

end Awaiting

/-- A message that is tried on a record is read with the state of its session, kept or new, or not at all. -/
theorem tried (sound : w.Sound) (tries : (c.receiver letter).Tries letter.message record)
    (unmistaken : ∀ state ∈ record.states, c.Stranger letter state → ¬ state.Mistakes inner) :
    ∃ state, record.ReadBy inner state ∧ (state.Silent inner ∨ c.Reader letter record state ∧
      state.Stands (thread.terms w) (g thread.session) (thread.role letter.sender.other)
        ((c.receiver letter).reads thread.session)) := by
  cases ((stands.ends letter.sender.other).follows thread posted.member).session with
  | engaged state kept engaged =>
    cases record_of_kept posted kept engaged.stands tries
    exact ⟨state, stands.readBy_of_kept posted kept engaged.stands unmistaken, .inr ⟨.kept kept rfl, engaged.stands⟩⟩
  | awaiting awaits =>
    by_cases held : thread.offer.Held (c.receiver letter).stores
    · obtain ⟨state, made, reader⟩ := stands.responder_of_held posted awaits sound held tries
      exact ⟨state, stands.readBy_of_built posted awaits unmistaken made, .inr reader⟩
    · obtain ⟨state, made, silent⟩ := stands.silent_of_unheld posted awaits held tries unmistaken
      exact ⟨state, stands.readBy_of_built posted awaits unmistaken made, .inl silent⟩

end Correspondence.Stands

end DoubleRatchet
