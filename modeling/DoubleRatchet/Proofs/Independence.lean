import DoubleRatchet.Proofs.OneTimeKeys
import DoubleRatchet.Proofs.Session.Actions

/-! Peers that do not get in each other's way. All that an action does to the stores is to put a record and an identity of
its peer in place and to use up a one-time key that its message names. A change of this kind for one peer shows nowhere in
an action for another one; so the two can be done in either order. -/
namespace DoubleRatchet

/-! ## Changes to maps -/

section Maps

variable {K V : Type} [Ord K] [Std.TransOrd K] [Std.LawfulEqOrd K] (map : Std.ExtTreeMap K V) {key other : K}

/-- The map with a value in place, if there is one to be put. -/
def put (map : Std.ExtTreeMap K V) (key : K) : Option V → Std.ExtTreeMap K V
  | some value => map.insert key value
  | none => map

/-- The map without a key, if there is one to be given up. -/
def giveUp (map : Std.ExtTreeMap K V) : Option K → Std.ExtTreeMap K V
  | some key => map.erase key
  | none => map

theorem getElem?_put (different : key ≠ other) (value : Option V) : (put map key value)[other]? = map[other]? := by
  cases value with
  | none => rfl
  | some _ => simp [put, Std.ExtTreeMap.getElem?_insert, Std.LawfulEqCmp.compare_eq_iff_eq, different]

theorem getElem?_giveUp {spent : Option K} (different : spent ≠ some key) : (giveUp map spent)[key]? = map[key]? := by
  cases spent with
  | none => rfl
  | some other =>
    have different : other ≠ key := fun same => different (congrArg some same)
    simp [giveUp, Std.ExtTreeMap.getElem?_erase, Std.LawfulEqCmp.compare_eq_iff_eq, different]

theorem put_comm (different : key ≠ other) (value another : Option V) :
    put (put map key value) other another = put (put map other another) key value := by
  cases value with
  | none => rfl
  | some value =>
    cases another with
    | none => rfl
    | some another =>
      apply Std.ExtTreeMap.ext_getElem?
      intro place
      simp only [put, Std.ExtTreeMap.getElem?_insert, Std.LawfulEqCmp.compare_eq_iff_eq]
      grind

theorem giveUp_comm (spent other : Option K) : giveUp (giveUp map spent) other = giveUp (giveUp map other) spent := by
  cases spent with
  | none => rfl
  | some key =>
    cases other with
    | none => rfl
    | some other =>
      apply Std.ExtTreeMap.ext_getElem?
      intro place
      simp only [giveUp, Std.ExtTreeMap.getElem?_erase, Std.LawfulEqCmp.compare_eq_iff_eq]
      grind

end Maps

/-! ## Changes to stores -/

/-- A change to what is stored for one peer: an identity or a record that is put in place, and a one-time key that is
given up. -/
structure Change where
  peer : Address
  identity : Option PublicKey := none
  record : Option SessionRecord := none
  spent : Option UInt32 := none

namespace Stores

def apply (stores : Stores) (change : Change) : Stores :=
  { stores with
    identities := put stores.identities change.peer change.identity
    sessions := put stores.sessions change.peer change.record
    preKeys := giveUp stores.preKeys change.spent }

variable (stores : Stores) {change other : Change} {peer : Address}

/-- Changes for different peers can be made in either order. -/
theorem apply_comm (apart : change.peer ≠ other.peer) :
    (stores.apply change).apply other = (stores.apply other).apply change := by
  simp only [apply, put_comm _ apart, giveUp_comm _ change.spent]

theorem withSession_eq_apply (peer : Address) (identity : PublicKey) (record : SessionRecord) :
    stores.withSession peer identity record = stores.apply { peer, identity, record } := rfl

theorem afterHandshake_eq_apply (peer : Address) (message : PreKeyMessage) :
    stores.afterHandshake peer message = stores.apply { peer, identity := message.identityKey } := rfl

theorem afterPreKey_eq_apply (peer : Address) (message : PreKeyMessage) (record : SessionRecord) (used : Option UInt32) :
    stores.afterPreKey peer message record used =
      stores.apply { peer, identity := message.identityKey, record, spent := used } := by
  cases used <;> rfl

/-! ## What a change leaves alone -/

section Frame

variable (apart : change.peer ≠ peer)

include apart

theorem apply_identities : (stores.apply change).identities[peer]? = stores.identities[peer]? :=
  getElem?_put _ apart _

theorem apply_sessions : (stores.apply change).sessions[peer]? = stores.sessions[peer]? :=
  getElem?_put _ apart _

theorem apply_trusts (identity : PublicKey) (direction : Direction) :
    (stores.apply change).trusts peer identity direction = stores.trusts peer identity direction := by
  simp only [trusts, isTrusted, stores.apply_identities apart]
  rfl

theorem apply_record : (stores.apply change).record peer = stores.record peer := by
  rw [Stores.record, Stores.record, stores.apply_sessions apart]

theorem apply_recordOrFresh : (stores.apply change).recordOrFresh peer = stores.recordOrFresh peer := by
  rw [recordOrFresh, recordOrFresh, stores.apply_sessions apart]

theorem apply_withSession (identity : PublicKey) (record : SessionRecord) :
    (stores.apply change).withSession peer identity record = (stores.withSession peer identity record).apply change := by
  rw [withSession_eq_apply, withSession_eq_apply, stores.apply_comm apart]

theorem apply_afterHandshake (message : PreKeyMessage) :
    (stores.apply change).afterHandshake peer message = (stores.afterHandshake peer message).apply change := by
  rw [afterHandshake_eq_apply, afterHandshake_eq_apply, stores.apply_comm apart]

theorem apply_afterPreKey (message : PreKeyMessage) (record : SessionRecord) (used : Option UInt32) :
    (stores.apply change).afterPreKey peer message record used =
      (stores.afterPreKey peer message record used).apply change := by
  rw [afterPreKey_eq_apply, afterPreKey_eq_apply, stores.apply_comm apart]

end Frame

theorem apply_oneTimeKey {id : Option UInt32} (unspent : ∀ n, id = some n → change.spent ≠ some n) :
    (stores.apply change).oneTimeKey id = stores.oneTimeKey id := by
  cases id with
  | none => rfl
  | some n =>
    have kept : (stores.apply change).preKeys[n]? = stores.preKeys[n]? := getElem?_giveUp _ (unspent n rfl)
    rw [oneTimeKey, oneTimeKey, kept]

theorem apply_respond (record : SessionRecord) {message : PreKeyMessage}
    (unspent : ∀ n, message.preKeyId = some n → change.spent ≠ some n) :
    (stores.apply change).respond record message = stores.respond record message := by
  simp only [respond, stores.apply_oneTimeKey unspent]
  rfl

/-! ## Actions beside a change for another peer -/

section Beside

variable {e : Entropy} (apart : change.peer ≠ peer)

include apart

theorem apply_acceptBundle (bundle : PreKeyBundle) (base ratchet : KeyPair) :
    (stores.apply change).acceptBundle peer bundle base ratchet =
      (·.apply change) <$> stores.acceptBundle peer bundle base ratchet := by
  simp only [acceptBundle, stores.apply_trusts apart, stores.apply_recordOrFresh apart, stores.apply_withSession apart,
    map_bind, map_pure]
  rfl

theorem apply_encrypt (plaintext : Bytes) :
    (stores.apply change).encrypt peer plaintext =
      (fun sent => (sent.1, sent.2.apply change)) <$> stores.encrypt peer plaintext := by
  simp only [encrypt, stores.apply_record apart, stores.apply_trusts apart, stores.apply_withSession apart, map_bind,
    map_pure]

theorem apply_acceptRead (read : Except Fault (SessionRecord × Opened)) :
    (stores.apply change).acceptRead peer read =
      (fun done => (done.1, done.2.apply change)) <$> stores.acceptRead peer read := by
  simp only [acceptRead, stores.apply_trusts apart, stores.apply_withSession apart, map_bind, map_pure]

theorem apply_decryptRatchet (message : RatchetMessage) : (stores.apply change).decryptRatchet peer message e =
    ((stores.decryptRatchet peer message e).1, (stores.decryptRatchet peer message e).2.1.apply change,
      (stores.decryptRatchet peer message e).2.2) := by
  rw [decryptRatchet, decryptRatchet, stores.apply_record apart]
  cases stores.record peer with
  | error fault => rfl
  | ok record =>
    dsimp only
    rw [stores.apply_acceptRead apart]
    cases stores.acceptRead peer (record.read peer message e).1 with
    | error fault => rfl
    | ok done => rfl

variable {message : PreKeyMessage} (unspent : ∀ n, message.preKeyId = some n → change.spent ≠ some n)

include unspent

theorem apply_acceptMessage : (stores.apply change).acceptMessage peer message = stores.acceptMessage peer message := by
  rw [acceptMessage, acceptMessage, stores.apply_trusts apart, stores.apply_recordOrFresh apart,
    stores.apply_respond _ unspent]

theorem apply_decryptPreKey : (stores.apply change).decryptPreKey peer message e =
    ((stores.decryptPreKey peer message e).1, (stores.decryptPreKey peer message e).2.1.apply change,
      (stores.decryptPreKey peer message e).2.2) := by
  rw [decryptPreKey, decryptPreKey, stores.apply_acceptMessage apart unspent]
  cases stores.acceptMessage peer message with
  | error fault => rfl
  | ok accepted =>
    obtain ⟨record, used⟩ := accepted
    dsimp only
    rcases record.read peer message.message e with ⟨_ | ⟨record, opened⟩, e'⟩
    · dsimp only
      rw [stores.apply_afterHandshake apart]
    · dsimp only
      rw [stores.apply_afterPreKey apart]

theorem apply_accept (record : SessionRecord) : (stores.apply change).accept peer record message =
    ((stores.accept peer record message).1, (stores.accept peer record message).2.apply change) := by
  rw [accept, accept, stores.apply_trusts apart, stores.apply_respond _ unspent]
  cases (do stores.trusts peer message.identityKey .receiving; stores.respond record message) with
  | error fault => rfl
  | ok answered => exact Prod.ext rfl (stores.apply_afterHandshake apart message)

end Beside

/-- A change for another peer, which gives up no one-time key that an action names, shows nowhere in the action. -/
theorem apply_perform (stores : Stores) (e : Entropy) {change : Change} {action : Action}
    (apart : change.peer ≠ action.peer) (unspent : ∀ n, action.names? = some n → change.spent ≠ some n) :
    (stores.apply change).perform e action =
      ((stores.perform e action).1, (stores.perform e action).2.1.apply change, (stores.perform e action).2.2) := by
  cases action with
  | accept peer record message =>
    have apart : change.peer ≠ peer := apart
    have unspent : ∀ n, message.preKeyId = some n → change.spent ≠ some n := unspent
    simp only [perform, stores.apply_accept apart unspent]
  | ask request =>
    cases request with
    | acceptBundle peer bundle =>
      have apart : change.peer ≠ peer := apart
      simp only [perform, serve, stores.apply_acceptBundle apart]
      cases stores.acceptBundle peer bundle (e.pair 0) (e.pair 1) with
      | error fault => rfl
      | ok after => rfl
    | encrypt peer plaintext =>
      have apart : change.peer ≠ peer := apart
      simp only [perform, serve, stores.apply_encrypt apart]
      cases stores.encrypt peer plaintext with
      | error fault => rfl
      | ok sent => rfl
    | decryptRatchet peer message =>
      have apart : change.peer ≠ peer := apart
      simp only [perform, serve, stores.apply_decryptRatchet apart]
    | decryptPreKey peer message =>
      have apart : change.peer ≠ peer := apart
      have unspent : ∀ n, message.preKeyId = some n → change.spent ≠ some n := unspent
      simp only [perform, serve, stores.apply_decryptPreKey apart unspent]

/-! ## What an action changes -/

theorem Leaves.exists_change {stores after : Stores} {request : Request} (leaves : stores.Leaves request after) :
    ∃ change : Change, after = stores.apply change ∧ change.peer = request.peer ∧
      ∀ id, change.spent = some id → (Action.ask request).names? = some id := by
  cases leaves with
  | all request => exact ⟨{ peer := request.peer }, rfl, rfl, by simp⟩
  | session record trusted => exact ⟨_, stores.withSession_eq_apply _ _ _, rfl, by simp⟩
  | handshake trusted => exact ⟨_, stores.afterHandshake_eq_apply _ _, rfl, by simp⟩
  | @opening peer message _ used record trusted answers =>
    refine ⟨_, stores.afterPreKey_eq_apply _ _ _ _, rfl, ?_⟩
    intro id spent
    cases answers with
    | known _ => cases spent
    | built _ _ _ _ _ => exact (Option.filter_eq_some_iff.mp spent).1

theorem perform_change (stores : Stores) (e : Entropy) (action : Action) :
    ∃ change : Change, (stores.perform e action).2.1 = stores.apply change ∧ change.peer = action.peer ∧
      ∀ id, change.spent = some id → action.names? = some id := by
  cases action with
  | ask request => exact (stores.serve_leaves e request).exists_change
  | accept peer record message =>
    simp only [perform, accept]
    split
    · exact ⟨{ peer }, rfl, rfl, by simp⟩
    · exact ⟨_, stores.afterHandshake_eq_apply _ _, rfl, by simp⟩

/-- All that is stored for other peers is as before, and of the one-time keys one that the action names may be gone. -/
theorem perform_frame (stores : Stores) (e : Entropy) (action : Action) :
    let after := (stores.perform e action).2.1
    (∀ peer ≠ action.peer, after.sessions[peer]? = stores.sessions[peer]? ∧
        after.identities[peer]? = stores.identities[peer]?) ∧
      after.signedPreKeys = stores.signedPreKeys ∧ after.senderKeys = stores.senderKeys ∧
      (after.preKeys = stores.preKeys ∨ ∃ id, action.names? = some id ∧ after.preKeys = stores.preKeys.erase id) := by
  obtain ⟨change, changed, peer, named⟩ := stores.perform_change e action
  intro after
  rw [show after = stores.apply change from changed]
  refine ⟨?_, rfl, rfl, ?_⟩
  · intro other different
    have apart : change.peer ≠ other := fun same => different (same.symm.trans peer)
    exact ⟨stores.apply_sessions apart, stores.apply_identities apart⟩
  · cases spent : change.spent with
    | none => exact .inl (by simp only [apply, spent, giveUp])
    | some id => exact .inr ⟨id, named id spent, by simp only [apply, spent, giveUp]⟩

/-- An action for one peer after another for a different peer, and the two in the other order. -/
theorem perform_comm (stores : Stores) (e e' : Entropy) {action other : Action} (apart : action.peer ≠ other.peer)
    (unshared : ∀ id, action.names? = some id → other.names? ≠ some id) :
    ((stores.perform e' other).2.1.perform e action).1 = (stores.perform e action).1 ∧
      ((stores.perform e action).2.1.perform e' other).1 = (stores.perform e' other).1 ∧
      ((stores.perform e' other).2.1.perform e action).2.1 = ((stores.perform e action).2.1.perform e' other).2.1 := by
  obtain ⟨change, changed, peer, named⟩ := stores.perform_change e action
  obtain ⟨change', changed', peer', named'⟩ := stores.perform_change e' other
  -- Each action finds the change of the other one, which it neither sees nor touches.
  have beside : change.peer ≠ other.peer := peer ▸ apart
  have beside' : change'.peer ≠ action.peer := peer' ▸ apart.symm
  rw [changed, changed', stores.apply_perform e' beside fun n names spent => unshared n (named n spent) names,
    stores.apply_perform e beside' fun n names spent => unshared n names (named' n spent), changed, changed']
  exact ⟨rfl, rfl, stores.apply_comm (peer' ▸ beside)⟩

/-- Two actions, each with its own surroundings, one after the other: the outcomes of both, and the stores after them. -/
def inTurn (stores : Stores) (first second : Action × Ambient) : (Except Fault Outcome × Except Fault Outcome) × Stores :=
  let done := (first.1.perform : OnDevice Outcome) ⟨stores, first.2⟩
  let done' := (second.1.perform : OnDevice Outcome) ⟨done.2.stores, second.2⟩
  ((done.1, done'.1), done'.2.stores)

theorem inTurn_of_first {device device' : Device} {action : Action} {outcome : Except Fault Outcome}
    (first : (action.perform : OnDevice Outcome) device = (outcome, device')) (second : Action × Ambient) :
    let done := (second.1.perform : OnDevice Outcome) ⟨device'.stores, second.2⟩
    device.stores.inTurn (action, device.ambient) second = ((outcome, done.1), done.2.stores) := by
  obtain ⟨stores, ambient⟩ := device
  simp only [inTurn, first]

end Stores

/-- Whatever an action does and whatever comes of it, all that is stored for other peers is as before, and so are all signed
keys and all chains of groups; of the one-time keys one that its message names may be gone. So an action for one peer and one
for another can be done in either order, each with its own randomness, unless both name the same one-time key: both have the
same outcomes, and the same is stored in the end. -/
theorem actions_for_different_peers_commute (stores : Stores) (action : Action) :
    (∀ ambient,
      let after := ((action.perform : OnDevice Outcome) ⟨stores, ambient⟩).2.stores
      (∀ peer ≠ action.peer, after.sessions[peer]? = stores.sessions[peer]? ∧
        after.identities[peer]? = stores.identities[peer]?) ∧
      after.signedPreKeys = stores.signedPreKeys ∧ after.senderKeys = stores.senderKeys ∧
      (after.preKeys = stores.preKeys ∨ ∃ id, action.names? = some id ∧ after.preKeys = stores.preKeys.erase id)) ∧
    ∀ other : Action, action.peer ≠ other.peer → (∀ id, action.names? = some id → other.names? ≠ some id) →
      ∀ mine yours : Ambient, stores.inTurn (action, mine) (other, yours) =
        (stores.inTurn (other, yours) (action, mine)).map Prod.swap id := by
  constructor
  · intro ambient
    rw [action.perform_stores]
    exact stores.perform_frame ambient.entropy action
  · intro other apart unshared mine yours
    obtain ⟨same, same', after⟩ := stores.perform_comm mine.entropy yours.entropy apart unshared
    simp only [Stores.inTurn, Action.perform_outcome, Action.perform_stores, same, same', after]
    rfl

/-- A message that opens a session uses up a one-time key, and a bundle of another peer is accepted. In either order the
message is read, the bundle gets the same answer, and the same is stored in the end, without the key. -/
theorem actions_for_different_peers_commute_with_spending :
    let opening : Action × Ambient := (.ask (.decryptPreKey Sample.initiator Sample.rewrapped), Sample.holding.ambient)
    let beginning : Action × Ambient := (.ask (.acceptBundle Sample.responder Sample.bundle), Sample.initiating.ambient)
    let done := Sample.holding.stores.inTurn opening beginning
    done = (Sample.holding.stores.inTurn beginning opening).map Prod.swap id ∧ done.1.1.isOk ∧
      done.2.preKeys[(5 : UInt32)]? = none := by
  obtain ⟨⟨plaintext, keys⟩, device', run, gone⟩ := Sample.holding_spends
  intro opening beginning done
  have commute := (actions_for_different_peers_commute Sample.holding.stores opening.1).2 beginning.1 (by decide)
    (by simp [beginning, Action.names?]) opening.2 beginning.2
  have done_eq := Stores.inTurn_of_first (Action.perform_decryptPreKey run) beginning
  have kept := ((actions_for_different_peers_commute device'.stores beginning.1).1 beginning.2).2.2.2
  refine ⟨commute, ?_, ?_⟩
  · rw [show done = _ from done_eq]
    rfl
  · rw [show done = _ from done_eq]
    rcases kept with kept | ⟨id, named, -⟩
    · rw [kept]
      exact gone
    · cases named

end DoubleRatchet
