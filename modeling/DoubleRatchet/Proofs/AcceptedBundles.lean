import DoubleRatchet.Proofs.Checks
import DoubleRatchet.Proofs.PinnedIdentities
import DoubleRatchet.Proofs.PreKeyWrapping
import DoubleRatchet.Store.Watched
import Mathlib.Data.List.Induction

/-! When a bundle is accepted, and what its acceptance leaves. A device looks at the bundle alone until it has found it safe:
it asks whether the identity is trusted, and calls nothing else and draws nothing before it has checked the signature. So a
state that still announces its handshake goes back to a key that its peer has signed. -/
namespace DoubleRatchet

open Session

/-! ## Devices whose calls are watched -/

/-- What a watched device stores and has left to draw, the calls that were made on it and those that will be refused. -/
def WatchedDevice.contents (watched : WatchedDevice) : (Stores × Entropy) × List String × List String :=
  (watched.device.contents, watched.calls, watched.refused)

namespace OnWatched

variable {A : Type} (stores : Stores) (calls : List String)

theorem act_yields {x : Act A} {e e' : Entropy} {result : Except Fault A} (yields : Act.Yields x e result e') :
    Yields WatchedDevice.contents (OnWatched.act x) ((stores, e), calls, []) result ((stores, e'), calls, []) := by
  rintro ⟨⟨stores, ambient⟩, calls', refused⟩ shown
  cases shown
  obtain ⟨device', run, shown⟩ := OnDevice.act_yields stores yields ⟨stores, ambient⟩ rfl
  refine ⟨⟨device', calls', []⟩, ?_, by rw [WatchedDevice.contents, shown]⟩
  simp only [OnWatched.act, run]

/-- A call that is not refused is listed, and answered from the stores. -/
theorem call_yields (e : Entropy) (call : StoreCall A) :
    Yields WatchedDevice.contents (OnWatched.call call) ((stores, e), calls, []) (stores.answer call).1
      (((stores.answer call).2, e), calls ++ [call.display], []) := by
  rintro ⟨device, calls', refused⟩ shown
  cases shown
  exact ⟨_, rfl, rfl⟩

end OnWatched

/-! ## Acceptance -/

/-- The signed key of a bundle is signed by the bundle's identity. -/
def PreKeyBundle.signed (bundle : PreKeyBundle) : Bool :=
  bundle.signedPreKey.any fun key => bundle.identityKey.verify key.serialize bundle.signature

/-- What a device asks of a bundle, in this order. -/
def PreKeyBundle.checks (bundle : PreKeyBundle) (stores : Stores) (peer : Address) : List Check := [
  ⟨stores.isTrusted peer bundle.identityKey .sending, .untrustedIdentity peer⟩,
  ⟨bundle.signedPreKey.isSome, .noSignedPreKey⟩,
  ⟨bundle.signed, .badBundleSignature⟩]

theorem PreKeyBundle.verified_guard (bundle : PreKeyBundle) :
    Check.Guard [⟨bundle.signedPreKey.isSome, .noSignedPreKey⟩, ⟨bundle.signed, .badBundleSignature⟩] bundle.verified := by
  unfold verified signed
  cases bundle.signedPreKey with
  | none => exact .cons (fun _ => rfl) fun present => absurd present (by simp)
  | some key =>
    refine .cons (fun absent => absurd absent (by simp)) fun _ => .cons (fun unsigned => ?_) fun signed => ?_
    · exact if_neg (Bool.eq_false_iff.mp unsigned)
    · have signed : bundle.identityKey.verify key.serialize bundle.signature := signed
      dsimp only
      rw [if_pos signed]
      exact .ok key

namespace Stores

theorem trusts_guard (stores : Stores) (peer : Address) (identity : PublicKey) (direction : Direction) :
    Check.Guard [⟨stores.isTrusted peer identity direction, .untrustedIdentity peer⟩]
      (stores.trusts peer identity direction) := by
  unfold trusts
  refine .cons (fun distrusted => ?_) fun trusted => ?_
  · rw [if_neg (Bool.eq_false_iff.mp distrusted)]
  · rw [if_pos trusted]
    exact .ok ()

theorem acceptBundle_guard (stores : Stores) (peer : Address) (bundle : PreKeyBundle) (base ratchet : KeyPair) :
    Check.Guard (bundle.checks stores peer) (stores.acceptBundle peer bundle base ratchet) :=
  (stores.trusts_guard peer bundle.identityKey .sending).bind fun _ _ => bundle.verified_guard.map _

end Stores

namespace Session

/-- The calls that are made for a bundle once it has been found safe. -/
def acceptanceCalls (peer : Address) (bundle : PreKeyBundle) (record : SessionRecord) : List String := [
  (StoreCall.loadSession peer).display, StoreCall.ownIdentity.display, StoreCall.registrationId.display,
  (StoreCall.storeSession peer record).display, (StoreCall.saveIdentity peer bundle.identityKey).display]

/-- A bundle that is refused has cost the question for trust, and nothing more. -/
theorem acceptBundle_watched (stores : Stores) (peer : Address) (e : Entropy) (calls : List String) (bundle : PreKeyBundle) :
    let asked := calls ++ [(StoreCall.isTrusted peer bundle.identityKey .sending).display]
    Commits WatchedDevice.contents (acceptBundle peer bundle) ((stores, e), calls, []) ((stores, e), asked, [])
      (stores.acceptBundle peer bundle (e.pair 0) (e.pair 1)) (fun _ => ()) fun stores' =>
        ((stores', e.skip 2), asked ++ acceptanceCalls peer bundle (stores'.recordOrFresh peer), []) := by
  intro asked
  have trust : Yields WatchedDevice.contents (requireTrusted peer bundle.identityKey .sending : OnWatched Unit)
      ((stores, e), calls, []) (stores.trusts peer bundle.identityKey .sending) ((stores, e), asked, []) := by
    unfold requireTrusted Stores.trusts
    refine .bind (OnWatched.call_yields _ _ _ _) ?_
    dsimp only [Stores.answer]
    split
    · exact .pure _ _
    · exact .bind (OnWatched.act_yields _ _ (Act.note_yields _ _ _)) (OnWatched.act_yields _ _ (.throw _ _))
  have listed (record : SessionRecord) : asked ++ acceptanceCalls peer bundle record =
      asked ++ [(StoreCall.loadSession peer).display] ++ [StoreCall.ownIdentity.display] ++
        [StoreCall.registrationId.display] ++ [(StoreCall.storeSession peer record).display] ++
        [(StoreCall.saveIdentity peer bundle.identityKey).display] := by
    simp only [acceptanceCalls, List.append_assoc, List.cons_append, List.nil_append]
  simp only [listed]
  unfold acceptBundle Stores.acceptBundle
  refine .bind trust fun _ => .bind (OnWatched.act_yields _ _ (.lift _ _)) fun signedPreKey => ?_
  refine Yields.bind (.bind (OnWatched.call_yields _ _ _ _) (.pure _ _)) ?_
  refine Yields.bind (OnWatched.act_yields _ _ (Act.generate_yields e)) (Yields.bind (OnWatched.call_yields _ _ _ _) ?_)
  refine Yields.bind (OnWatched.act_yields _ _ (initiator_run_yields _ _)) ?_
  refine Yields.bind (OnWatched.act_yields _ _ (Act.note_yields _ _ _)) (Yields.bind (OnWatched.call_yields _ _ _ _) ?_)
  refine Yields.bind (OnWatched.act_yields _ _ (SessionRecord.noteArchiving_yields _ _)) ?_
  refine Yields.bind (OnWatched.call_yields _ _ _ _) (Yields.bind (OnWatched.call_yields _ _ _ _) ?_)
  exact Yields.pure _ _

end Session

theorem SessionRecord.install_eq {record : SessionRecord} (few : record.archived.length ≤ maxArchivedStates)
    (state : SessionState) : record.install state = ⟨some state, record.states.take maxArchivedStates⟩ := by
  have states := (record.install_of_few few state).1
  rw [begun, List.take_succ_cons] at states
  exact congrArg (SessionRecord.mk (some state)) (List.tail_eq_of_cons_eq states)

/-- What a state has of the handshake with the owner of a bundle. -/
structure SessionState.Shakes (stores : Stores) (bundle : PreKeyBundle) (base : KeyPair) (state : SessionState) : Prop where
  localIdentity : state.localIdentityKey = .ok stores.identity.publicKey
  remoteIdentity : state.remoteIdentityKey? = .ok (some bundle.identityKey)
  baseKey : state.baseKey = base.publicKey.serialize
  pending : state.pendingPreKey =
    some (.ofPending ⟨bundle.preKey.map (·.1), bundle.signedPreKeyId, base.publicKey⟩)
  localRegistrationId : state.localRegistrationId = stores.registrationId
  remoteRegistrationId : state.remoteRegistrationId = bundle.registrationId

theorem Stores.initiatorState_shakes (stores : Stores) (bundle : PreKeyBundle) (signedPreKey : PublicKey)
    (base ratchet : KeyPair) : (stores.initiatorState bundle signedPreKey base ratchet).Shakes stores bundle base := by
  have formed := SessionState.initiatorState_formed stores bundle signedPreKey base ratchet
  exact ⟨formed.localIdentityKey, formed.remoteIdentityKey?, rfl, rfl, rfl, rfl⟩

/-! ## Runs -/

/-- A state has only sent since a bundle from a peer began it at some point of a run. The signed key that it was built from
is signed by the identity that is now the state's remote one. -/
def SessionState.Vouched (device : Device) (moves : List Move) (peer : Address) (state : SessionState) : Prop :=
  ∃ (before : List Move) (bundle : PreKeyBundle) (signedPreKey : PublicKey) (place : ChainKey),
    let point := (device.goThrough before).2
    before ++ [.performs (.ask (.acceptBundle peer bundle))] <+: moves ∧
    bundle.signedPreKey = some signedPreKey ∧
    bundle.identityKey.verify signedPreKey.serialize bundle.signature ∧
    state.remoteIdentityKey? = .ok (some bundle.identityKey) ∧
    state = (point.stores.initiatorState bundle signedPreKey (point.ambient.entropy.pair 0)
      (point.ambient.entropy.pair 1)).withSendingChainKey place

namespace SessionState

theorem withSendingChainKey_again (state : SessionState) (before after : ChainKey) :
    (state.withSendingChainKey before).withSendingChainKey after = state.withSendingChainKey after := by
  simp only [withSendingChainKey, Option.map_map]
  rfl

/-- A property that a state has as long as it announces its handshake. -/
def Announcing (P : SessionState → Prop) (state : SessionState) : Prop := state.pendingPreKey.isSome → P state

end SessionState

namespace Stores

variable {stores : Stores} {peer : Address} {record record' : SessionRecord} {P : SessionState → Prop} {e : Entropy} {request : Request}

/-- What sends goes on announcing; what reads stops, and what answers a handshake never announces. -/
theorem Turns.announcing (turns : stores.Turns record request record')
    (other : ∀ peer bundle, request ≠ .acceptBundle peer bundle)
    (sends : ∀ state place, P state → P (state.withSendingChainKey place))
    (all : record.All (SessionState.Announcing P)) : record'.All (SessionState.Announcing P) := by
  cases turns with
  | begins peer bundle signedPreKey base ratchet => exact absurd rfl (other peer bundle)
  | @sends _ _ state chain current _ =>
    have replaces : record.Replaces state (state.withSendingChainKey chain.next) _ := .current current
    exact all.replace replaces fun announces => sends state chain.next (all state replaces.member announces)
  | reads peer message opens replaces =>
    have silent := SessionState.read_acknowledges opens
    exact all.replace replaces fun announces => by simp [silent] at announces
  | answers peer message answers opens replaces =>
    have silent := SessionState.read_acknowledges opens
    have accepted := answers.all all fun signedPreKey oneTimePreKey announces => absurd announces Bool.false_ne_true
    exact accepted.replace replaces fun announces => by simp [silent] at announces

/-- A property that accepted bundles give to new states, and that sending keeps, is one of all states that announce. -/
theorem serve_announcing (sends : ∀ state place, P state → P (state.withSendingChainKey place))
    (begins : ∀ bundle signedPreKey, request = .acceptBundle peer bundle → bundle.verified = .ok signedPreKey →
      P (stores.initiatorState bundle signedPreKey (e.pair 0) (e.pair 1)))
    (holds : stores.Holds peer (·.All (SessionState.Announcing P))) :
    (stores.serve e request).2.1.Holds peer (·.All (SessionState.Announcing P)) := by
  cases run : (stores.serve e request).1 with
  | error fault => exact holds.of_sessions (serve_error run)
  | ok reply =>
    by_cases asks : ∃ peer bundle, request = .acceptBundle peer bundle
    · obtain ⟨peer', bundle, rfl⟩ := asks
      cases made : stores.acceptBundle peer' bundle (e.pair 0) (e.pair 1) with
      | error fault =>
        simp only [serve, made] at run
        cases run
      | ok after =>
        simp only [serve, made]
        obtain ⟨_, signedPreKey, verified, rfl⟩ := acceptBundle_eq_ok.mp made
        refine holds.insert rfl ?_
        rintro rfl
        exact holds.recordOrFresh.install fun _ => begins bundle signedPreKey rfl verified
    · obtain ⟨record, turns, sessions⟩ := serve_ok run
      refine holds.insert sessions ?_
      rintro rfl
      refine turns.announcing (fun peer bundle same => asks ⟨peer, bundle, same⟩) sends holds.recordOrFresh

theorem accept_sessions (stores : Stores) (peer : Address) (record : SessionRecord) (message : PreKeyMessage) :
    (stores.accept peer record message).2.sessions = stores.sessions := by
  unfold accept
  split <;> rfl

end Stores

theorem Device.goThrough_performs (device : Device) (action : Action) :
    (device.goThrough [.performs action]).2.stores = (device.stores.perform device.ambient.entropy action).2.1 :=
  congrArg Prod.fst (action.perform_run device).2

namespace SessionState.Vouched

variable {device : Device} {moves : List Move} {peer : Address} {state : SessionState}

theorem append (vouched : state.Vouched device moves peer) (more : List Move) : state.Vouched device (moves ++ more) peer := by
  obtain ⟨before, bundle, signedPreKey, place, began, rest⟩ := vouched
  exact ⟨before, bundle, signedPreKey, place, began.trans (List.prefix_append moves more), rest⟩

theorem sends (vouched : state.Vouched device moves peer) (place : ChainKey) :
    (state.withSendingChainKey place).Vouched device moves peer := by
  obtain ⟨before, bundle, signedPreKey, _, began, present, signed, remote, rfl⟩ := vouched
  exact ⟨before, bundle, signedPreKey, place, began, present, signed, remote, withSendingChainKey_again ..⟩

/-- A new state is the same with its own place in its sending chain. -/
theorem begins (device : Device) (moves : List Move) (peer : Address) {bundle : PreKeyBundle} {signedPreKey : PublicKey}
    (verified : bundle.verified = .ok signedPreKey) :
    let point := (device.goThrough moves).2
    (point.stores.initiatorState bundle signedPreKey (point.ambient.entropy.pair 0) (point.ambient.entropy.pair 1)).Vouched
      device (moves ++ [.performs (.ask (.acceptBundle peer bundle))]) peer := by
  intro point
  obtain ⟨present, signed⟩ := PreKeyBundle.verified_eq_ok.mp verified
  exact ⟨moves, bundle, signedPreKey, _, List.prefix_rfl, present, signed,
    (point.stores.initiatorState_shakes bundle signedPreKey _ _).remoteIdentity, rfl⟩

end SessionState.Vouched

/-- Moves leave nothing that announces a handshake but what an accepted bundle has begun. -/
theorem Device.goThrough_vouched (device : Device) (without : device.stores.sessions = ∅) (moves : List Move)
    (peer : Address) : (device.goThrough moves).2.stores.Holds peer (·.All (SessionState.Announcing
      (SessionState.Vouched device moves peer))) := by
  -- Induction on the moves from the last, so that the point at which a state began stays a prefix of them.
  induction moves using List.reverseRecOn with
  | nil =>
    intro record stored
    rw [show (device.goThrough []).2.stores.sessions = ∅ from without] at stored
    cases stored
  | append_singleton moves move ih =>
    have holds : (device.goThrough moves).2.stores.Holds peer (·.All (SessionState.Announcing
        (SessionState.Vouched device (moves ++ [move]) peer))) :=
      fun record stored state member announces => (ih record stored state member announces).append [move]
    rw [Device.goThrough_append]
    cases move with
    | denies directions => exact holds.of_sessions rfl
    | performs action =>
      rw [Device.goThrough_performs]
      cases action with
      | accept other record message => exact holds.of_sessions (Stores.accept_sessions ..)
      | ask request =>
        refine Stores.serve_announcing (fun state place vouched => vouched.sends place) ?_ holds
        rintro bundle signedPreKey rfl verified
        exact .begins device moves peer verified

/-! ## Both together -/

/-- What a device whose calls are answered does with a bundle from a peer. -/
structure WatchedDevice.Judges (watched : WatchedDevice) (peer : Address) (bundle : PreKeyBundle) : Prop where
  /-- The bundle is accepted if and only if it is safe. -/
  accepts : ((acceptBundle peer bundle : OnWatched Unit) watched).1 = .ok () ↔
    watched.device.stores.isTrusted peer bundle.identityKey .sending ∧ ∃ signedPreKey,
      bundle.signedPreKey = some signedPreKey ∧ bundle.identityKey.verify signedPreKey.serialize bundle.signature
  /-- What it lacks first is what it is refused for. -/
  refuses : ∀ fault, ((acceptBundle peer bundle : OnWatched Unit) watched).1 = .error fault ↔
    Check.first? (bundle.checks watched.device.stores peer) = some fault
  /-- A refusal comes before anything is drawn, and before any call but the question for trust. -/
  untouched : ((acceptBundle peer bundle : OnWatched Unit) watched).1 ≠ .ok () →
    ((acceptBundle peer bundle : OnWatched Unit) watched).2.contents =
      (watched.device.contents, watched.calls ++ [(StoreCall.isTrusted peer bundle.identityKey .sending).display], [])
  /-- Nothing but the record and the identity of the peer is changed. -/
  keeps : ((acceptBundle peer bundle : OnWatched Unit) watched).1 = .ok () →
    ∃ signedPreKey, bundle.signedPreKey = some signedPreKey ∧
      let stores := watched.device.stores
      let e := watched.device.ambient.entropy
      let state := stores.initiatorState bundle signedPreKey (e.pair 0) (e.pair 1)
      let record : SessionRecord := ⟨some state, (stores.recordOrFresh peer).states.take maxArchivedStates⟩
      state.Shakes stores bundle (e.pair 0) ∧
      ((acceptBundle peer bundle : OnWatched Unit) watched).2.device.contents =
        ({ stores with
            identities := stores.identities.insert peer bundle.identityKey
            sessions := stores.sessions.insert peer record }, e.skip 2)

/-- The run of an acceptance on a watched device, from what the acceptance makes of the stores. -/
theorem WatchedDevice.acceptBundle_run {watched : WatchedDevice} (answers : watched.refused = []) (peer : Address)
    (bundle : PreKeyBundle) :
    let e := watched.device.ambient.entropy
    let asked := watched.calls ++ [(StoreCall.isTrusted peer bundle.identityKey .sending).display]
    match watched.device.stores.acceptBundle peer bundle (e.pair 0) (e.pair 1) with
    | .ok stores =>
      ((acceptBundle peer bundle : OnWatched Unit) watched).1 = .ok () ∧
        ((acceptBundle peer bundle : OnWatched Unit) watched).2.contents =
          ((stores, e.skip 2), asked ++ acceptanceCalls peer bundle (stores.recordOrFresh peer), [])
    | .error fault =>
      ((acceptBundle peer bundle : OnWatched Unit) watched).1 = .error fault ∧
        ((acceptBundle peer bundle : OnWatched Unit) watched).2.contents = (watched.device.contents, asked, []) := by
  obtain ⟨⟨stores, ambient⟩, calls, _⟩ := watched
  cases answers
  have commits := acceptBundle_watched stores peer ambient.entropy calls bundle
  unfold Commits at commits
  dsimp only
  split at commits
  · rename_i made
    obtain ⟨after, run, shown⟩ := commits ⟨⟨stores, ambient⟩, calls, []⟩ rfl
    rw [made, run]
    exact ⟨rfl, shown⟩
  · rename_i made
    obtain ⟨after, run, shown⟩ := commits ⟨⟨stores, ambient⟩, calls, []⟩ rfl
    rw [made, run]
    exact ⟨rfl, shown⟩

theorem WatchedDevice.judges {watched : WatchedDevice} (answers : watched.refused = []) {peer : Address}
    (few : (watched.device.stores.recordOrFresh peer).archived.length ≤ maxArchivedStates) (bundle : PreKeyBundle) :
    watched.Judges peer bundle := by
  have run := WatchedDevice.acceptBundle_run answers peer bundle
  have guards := watched.device.stores.acceptBundle_guard peer bundle (watched.device.ambient.entropy.pair 0)
    (watched.device.ambient.entropy.pair 1)
  dsimp only at run
  cases made : watched.device.stores.acceptBundle peer bundle (watched.device.ambient.entropy.pair 0)
      (watched.device.ambient.entropy.pair 1) with
  | error fault =>
    rw [made] at run guards
    obtain ⟨refused, contents⟩ := run
    refine ⟨?_, ?_, fun _ => contents, fun accepted => ?_⟩
    · constructor
      · intro accepted
        rw [refused] at accepted
        cases accepted
      · rintro ⟨trusted, signedPreKey, verified⟩
        rw [Stores.acceptBundle_eq_ok.mpr ⟨trusted, signedPreKey, PreKeyBundle.verified_eq_ok.mpr verified, rfl⟩] at made
        cases made
    · intro other
      rw [refused, ← guards other]
      simp
    · rw [refused] at accepted
      cases accepted
  | ok after =>
    rw [made] at run guards
    obtain ⟨accepted, contents⟩ := run
    obtain ⟨trusted, signedPreKey, verified, rfl⟩ := Stores.acceptBundle_eq_ok.mp made
    have signed := PreKeyBundle.verified_eq_ok.mp verified
    refine ⟨?_, ?_, fun refused => absurd accepted refused, fun _ => ⟨signedPreKey, signed.1, ?_, ?_⟩⟩
    · rw [accepted]
      exact ⟨fun _ => ⟨trusted, signedPreKey, signed⟩, fun _ => rfl⟩
    · intro fault
      rw [accepted, ← guards fault]
      simp
    · exact Stores.initiatorState_shakes ..
    · rw [← SessionRecord.install_eq few]
      exact congrArg Prod.fst contents

/-- A device accepts a bundle if and only if the identity is trusted and has signed the signed key; it looks at nothing else
before it knows, and changes nothing but the peer's record and identity. Hence in every run from stores without sessions, each
state that announces a handshake was built from a key that the state's remote identity has signed. -/
theorem bundles_accepted_iff_signed :
    (∀ (watched : WatchedDevice) (peer : Address) (bundle : PreKeyBundle), watched.refused = [] →
      (watched.device.stores.recordOrFresh peer).archived.length ≤ maxArchivedStates → watched.Judges peer bundle) ∧
    ∀ (device : Device) (moves : List Move), device.stores.sessions = ∅ → ∀ (peer : Address) (record : SessionRecord),
      (device.goThrough moves).2.stores.sessions[peer]? = some record → ∀ state ∈ record.states,
        state.pendingPreKey.isSome → state.Vouched device moves peer :=
  ⟨fun _ _ bundle answers few => WatchedDevice.judges answers few bundle,
    fun device moves without peer record stored state member announces =>
      device.goThrough_vouched without moves peer record stored state member announces⟩

/-- A bundle that is accepted leaves a record whose current state announces the handshake. -/
theorem Device.goThrough_accepted (device : Device) (peer : Address) {bundle : PreKeyBundle} {signedPreKey : PublicKey}
    (trusted : device.stores.isTrusted peer bundle.identityKey .sending) (verified : bundle.verified = .ok signedPreKey) :
    ∃ record state, (device.goThrough [.performs (.ask (.acceptBundle peer bundle))]).2.stores.sessions[peer]? = some record ∧
      state ∈ record.states ∧ state.pendingPreKey.isSome := by
  have made : device.stores.acceptBundle peer bundle (device.ambient.entropy.pair 0) (device.ambient.entropy.pair 1) = .ok _ :=
    Stores.acceptBundle_eq_ok.mpr ⟨trusted, signedPreKey, verified, rfl⟩
  rw [Device.goThrough_performs]
  simp only [Stores.perform, Stores.serve, made]
  exact ⟨_, _, Std.ExtTreeMap.getElem?_insert_self, List.mem_cons_self, rfl⟩

/-- A signed bundle is accepted, and leaves a state that is vouched for; without its signature it is refused. -/
theorem bundles_accepted_iff_signed_unless_stripped :
    let watched : WatchedDevice := { device := Sample.initiating }
    let stripped : PreKeyBundle := { Sample.bundle with signature := [] }
    ((acceptBundle Sample.responder Sample.bundle : OnWatched Unit) watched).1 = .ok () ∧
      ((acceptBundle Sample.responder stripped : OnWatched Unit) watched).1 = .error .badBundleSignature ∧
      ∃ state : SessionState, state.Vouched Sample.initiating [.performs (.ask (.acceptBundle Sample.responder Sample.bundle))]
        Sample.responder := by
  intro watched stripped
  have few : (watched.device.stores.recordOrFresh Sample.responder).archived.length ≤ maxArchivedStates := Nat.zero_le _
  have trusted : Sample.initiating.stores.isTrusted Sample.responder Sample.bundle.identityKey .sending := rfl
  have signed : Sample.bundle.identityKey.verify Sample.signedPreKey.publicKey.serialize Sample.bundle.signature := by
    decide +kernel
  have refused : Check.first? (stripped.checks Sample.initiating.stores Sample.responder) = some .badBundleSignature := by
    decide +kernel
  obtain ⟨judges, vouched⟩ := bundles_accepted_iff_signed
  refine ⟨(judges watched _ _ rfl few).accepts.mpr ⟨trusted, _, rfl, signed⟩,
    ((judges watched _ _ rfl few).refuses _).mpr refused, ?_⟩
  obtain ⟨record, state, stored, member, announces⟩ := Sample.initiating.goThrough_accepted Sample.responder trusted
    (PreKeyBundle.verified_eq_ok.mpr ⟨(rfl : Sample.bundle.signedPreKey = _), signed⟩)
  exact ⟨state, vouched _ _ rfl _ record stored state member announces⟩

end DoubleRatchet
