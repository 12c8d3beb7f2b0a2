import DoubleRatchet.Proofs.Pinning
import DoubleRatchet.Proofs.Session.Actions

/-! A device that notes which identities are saved on it. Whatever the library does on such a device it does as on any other,
and it saves an identity only where it has just been trusted: where none was saved before, or the same. -/
namespace DoubleRatchet

open Session

/-- A call that saves an identity for a peer, and the identity that was saved for the peer before. -/
structure Save where
  peer : Address
  identity : PublicKey
  previous : Option PublicKey

/-- A device with a note of every call that saves an identity on it. -/
structure Ledger where
  device : Device
  saves : List Save := []

abbrev OnLedger := ExceptT Fault (StateM Ledger)

namespace OnLedger

variable {A : Type}

def act (computation : Act A) : OnLedger A := fun ledger =>
  let (result, device) := OnDevice.act computation ledger.device
  (result, { ledger with device })

/-- What is noted of a call on stores. -/
def note (stores : Stores) : StoreCall A → List Save
  | .saveIdentity peer identity => [⟨peer, identity, stores.identities[peer]?⟩]
  | _ => []

/-- Answers a call as the device does, and notes what it saves. -/
def call (call : StoreCall A) : OnLedger A := fun ledger =>
  let (result, device) := OnDevice.call call ledger.device
  (result, ⟨device, ledger.saves ++ note ledger.device.stores call⟩)

instance : Host OnLedger := ⟨act, call⟩

end OnLedger

/-- Whether a call saves an identity. -/
def StoreCall.savesIdentity {A : Type} : StoreCall A → Bool
  | saveIdentity _ _ => true
  | _ => false

section

variable {A : Type} {call : StoreCall A} (quiet : call.savesIdentity = false) (stores : Stores)

include quiet

theorem OnLedger.note_eq_nil : note stores call = [] := by
  cases call with
  | saveIdentity peer identity => cases quiet
  | _ => rfl

theorem Stores.answer_identities : (stores.answer call).2.identities = stores.identities := by
  cases call with
  | saveIdentity peer identity => cases quiet
  | _ => rfl

end

/-! ## Saves that replace nothing -/

abbrev Identities := Std.ExtTreeMap Address PublicKey

/-- To save an identity for a peer replaces no other one. -/
def Identities.Spare (identities : Identities) (peer : Address) (identity : PublicKey) : Prop :=
  ∀ saved, identities[peer]? = some saved → saved = identity

/-- Saves that have led from some identities to others, and have replaced none of them. -/
structure Harmless (before : Identities) (saves : List Save) (after : Identities) : Prop where
  spared : ∀ save ∈ saves, ∀ previous, save.previous = some previous → previous = save.identity
  kept : ∀ (peer : Address) (saved : PublicKey), before[peer]? = some saved → after[peer]? = some saved

namespace Harmless

variable {before between after : Identities} {saves later : List Save}

theorem nil : Harmless before [] before := ⟨by simp, fun _ _ held => held⟩

theorem append (first : Harmless before saves between) (second : Harmless between later after) :
    Harmless before (saves ++ later) after := by
  constructor
  · intro save member
    rcases List.mem_append.mp member with early | late
    · exact first.spared save early
    · exact second.spared save late
  · intro peer saved held
    exact second.kept peer saved (first.kept peer saved held)

theorem save {peer : Address} {identity : PublicKey} (spare : before.Spare peer identity) :
    Harmless before [⟨peer, identity, before[peer]?⟩] (before.insert peer identity) := by
  constructor
  · intro save member previous held
    cases List.mem_singleton.mp member
    exact spare previous held
  · intro other saved held
    rw [Std.ExtTreeMap.getElem?_insert]
    split
    · rename_i same
      cases Std.LawfulEqCmp.compare_eq_iff_eq.mp same
      rw [spare saved held]
    · exact held

end Harmless

/-! ## Computations with and without the ledger -/

section

variable {A B : Type} {pre : Identities → Prop} {x : OnLedger A} {y : OnDevice A} {post mid : A → Identities → Prop}

/-- From identities as in `pre`, a computation on a ledger does to its device what the other does, and all that it saves is
harmless. If it succeeds, the identities are as in `post`. -/
def Follows (pre : Identities → Prop) (x : OnLedger A) (y : OnDevice A) (post : A → Identities → Prop) : Prop :=
  ∀ ledger, pre ledger.device.stores.identities → ∃ saves,
    x ledger = ((y ledger.device).1, ⟨(y ledger.device).2, ledger.saves ++ saves⟩) ∧
    Harmless ledger.device.stores.identities saves (y ledger.device).2.stores.identities ∧
    ∀ a, (y ledger.device).1 = .ok a → post a (y ledger.device).2.stores.identities

namespace Follows

theorem pure_of {a : A} (holds : ∀ identities, pre identities → post a identities) :
    Follows pre (Pure.pure a) (Pure.pure a) post := by
  intro ledger held
  refine ⟨[], by rw [List.append_nil]; rfl, .nil, ?_⟩
  intro b same
  cases same
  exact holds _ held

theorem pure (a : A) : Follows pre (Pure.pure a) (Pure.pure a) fun _ => pre := pure_of fun _ held => held

theorem bind {f : A → OnLedger B} {g : A → OnDevice B} {post : B → Identities → Prop} (first : Follows pre x y mid)
    (second : ∀ a, Follows (mid a) (f a) (g a) post) : Follows pre (x >>= f) (y >>= g) post := by
  intro ledger held
  obtain ⟨saves, run, harmless, reached⟩ := first ledger held
  rw [bind_apply, bind_apply, run]
  rcases result : y ledger.device with ⟨fault | a, device⟩
  · -- What comes after a fault saves nothing, and nothing is claimed of the identities.
    rw [result] at harmless
    exact ⟨saves, rfl, harmless, by simp⟩
  · rw [result] at harmless reached
    obtain ⟨later, run', harmless', reached'⟩ := second a ⟨device, ledger.saves ++ saves⟩ (reached a rfl)
    rw [List.append_assoc] at run'
    exact ⟨saves ++ later, run', harmless.append harmless', reached'⟩

theorem strengthen {stronger : Identities → Prop} (follows : Follows pre x y post)
    (implies : ∀ identities, stronger identities → pre identities) : Follows stronger x y post :=
  fun ledger held => follows ledger (implies _ held)

theorem observe (follows : Follows pre x y mid) :
    Follows pre (DoubleRatchet.observe x) (DoubleRatchet.observe y) fun result identities =>
      ∀ a, result = .ok a → mid a identities := by
  intro ledger held
  obtain ⟨saves, run, harmless, reached⟩ := follows ledger held
  rw [observe_apply, observe_apply, run]
  refine ⟨saves, rfl, harmless, ?_⟩
  intro result same
  cases same
  exact reached

theorem act (computation : Act A) : Follows pre (OnLedger.act computation) (OnDevice.act computation) fun _ => pre := by
  intro ledger held
  exact ⟨[], by rw [List.append_nil]; rfl, .nil, fun _ _ => held⟩

theorem refuse (fault : Fault) : Follows pre (OnLedger.act (throw fault)) (OnDevice.act (throw fault)) post := by
  intro ledger _
  refine ⟨[], by rw [List.append_nil]; rfl, .nil, ?_⟩
  intro a succeeds
  cases succeeds

/-- A call that saves no identity, and what its answer says about those that are saved. -/
theorem asking {call : StoreCall A} (quiet : call.savesIdentity = false)
    (tells : ∀ (stores : Stores) a, pre stores.identities → (stores.answer call).1 = .ok a →
      post a stores.identities) : Follows pre (Host.call call) (Host.call call) post := by
  intro ledger held
  have kept : ((Host.call call : OnDevice A) ledger.device).2.stores.identities = ledger.device.stores.identities :=
    ledger.device.stores.answer_identities quiet
  have saves := OnLedger.note_eq_nil quiet ledger.device.stores
  refine ⟨[], ?_, ?_, ?_⟩
  · rw [← saves]
    rfl
  · rw [kept]
    exact .nil
  · rw [kept]
    exact fun a answer => tells _ a held answer

theorem call {call : StoreCall A} (quiet : call.savesIdentity = false) :
    Follows pre (Host.call call) (Host.call call) fun _ => pre :=
  asking quiet fun _ _ held _ => held

theorem save (peer : Address) (identity : PublicKey) :
    Follows (·.Spare peer identity) (Host.call (.saveIdentity peer identity)) (Host.call (.saveIdentity peer identity))
      fun _ _ => True :=
  fun _ spare => ⟨_, rfl, .save spare, fun _ _ => trivial⟩

end Follows

end

/-! ## Operations -/

namespace Session

variable {pre : Identities → Prop} (peer : Address)

/-- An identity that has passed the gate is one that can be saved. -/
theorem requireTrusted_follows (identity : PublicKey) (direction : Direction) :
    Follows pre (requireTrusted peer identity direction) (requireTrusted peer identity direction)
      fun _ identities => identities.Spare peer identity := by
  have asked : Follows pre (Host.call (.isTrusted peer identity direction)) (Host.call (.isTrusted peer identity direction))
      fun trusted identities => trusted = true → identities.Spare peer identity := by
    apply Follows.asking rfl
    intro stores trusted _ answer passed saved held
    have answer : stores.isTrusted peer identity direction = trusted := Except.ok.inj answer
    exact Stores.saved_of_isTrusted (answer.trans passed) held
  unfold requireTrusted
  refine asked.bind fun trusted => ?_
  cases trusted with
  | true => exact .pure_of fun _ spare => spare rfl
  | false => exact (Follows.act _).bind fun _ => .refuse _

theorem existing_follows : Follows pre (existing peer) (existing peer) fun _ => pre := by
  unfold existing
  refine (Follows.call rfl).bind fun found => ?_
  cases found with
  | some record => exact .pure _
  | none => exact .act _

theorem existingOrFresh_follows : Follows pre (existingOrFresh peer) (existingOrFresh peer) fun _ => pre := by
  unfold existingOrFresh
  exact (Follows.call rfl).bind fun _ => .pure _

theorem acceptBundle_follows (bundle : PreKeyBundle) :
    Follows pre (acceptBundle peer bundle) (acceptBundle peer bundle) fun _ _ => True := by
  unfold acceptBundle
  refine (requireTrusted_follows peer bundle.identityKey .sending).bind fun _ => ?_
  refine (Follows.act _).bind fun signedPreKey => (existingOrFresh_follows peer).bind fun record => ?_
  refine (Follows.act _).bind fun base => (Follows.call rfl).bind fun identity => ?_
  refine (Follows.act _).bind fun state => (Follows.act _).bind fun _ => ?_
  refine (Follows.call rfl).bind fun registrationId => (Follows.act _).bind fun _ => ?_
  refine (Follows.call rfl).bind fun _ => ?_
  exact (Follows.save peer bundle.identityKey).bind fun _ => .pure _

theorem encrypt_follows (plaintext : Bytes) :
    Follows pre (encrypt peer plaintext) (encrypt peer plaintext) fun _ _ => True := by
  unfold encrypt
  refine (existing_follows peer).bind fun record => (Follows.act _).bind fun state => (Follows.act _).bind fun made => ?_
  refine (Follows.act _).bind fun chain => (requireTrusted_follows peer made.2 .sending).bind fun _ => ?_
  refine (Follows.save peer made.2).bind fun _ => (Follows.call rfl).bind fun _ => ?_
  exact .pure _

theorem decryptRatchet_follows (message : RatchetMessage) :
    Follows pre (decryptRatchet peer message) (decryptRatchet peer message) fun _ _ => True := by
  unfold decryptRatchet
  refine (existing_follows peer).bind fun record => (Follows.act _).bind fun read => (Follows.act _).bind fun state => ?_
  refine (Follows.act _).bind fun identity => (requireTrusted_follows peer identity .receiving).bind fun _ => ?_
  refine (Follows.save peer identity).bind fun _ => (Follows.call rfl).bind fun _ => ?_
  exact .pure _

theorem oneTimeKey_follows (id : Option UInt32) : Follows pre (oneTimeKey peer id) (oneTimeKey peer id) fun _ => pre := by
  unfold oneTimeKey
  cases id with
  | some id => exact (Follows.call rfl).bind fun _ => .pure _
  | none => exact (Follows.act _).bind fun _ => .pure _

theorem respond_follows (record : SessionRecord) (message : PreKeyMessage) :
    Follows pre (respond peer record message) (respond peer record message) fun _ => pre := by
  unfold respond
  split
  · exact (Follows.act _).bind fun _ => .pure _
  · refine (Follows.call rfl).bind fun signedPreKey => ?_
    refine (oneTimeKey_follows peer message.preKeyId).bind fun oneTimePreKey => ?_
    refine (Follows.call rfl).bind fun identity => (Follows.act _).bind fun state => ?_
    refine (Follows.call rfl).bind fun registrationId => (Follows.act _).bind fun _ => ?_
    exact .pure _

/-- The identity is saved after the handshake has been answered, which saves none. -/
theorem acceptMessage_follows (record : SessionRecord) (message : PreKeyMessage) :
    Follows pre (acceptMessage peer record message) (acceptMessage peer record message) fun _ _ => True := by
  have answered : Follows pre (do requireTrusted peer message.identityKey .receiving; respond peer record message)
      (do requireTrusted peer message.identityKey .receiving; respond peer record message)
      fun _ identities => identities.Spare peer message.identityKey :=
    (requireTrusted_follows peer message.identityKey .receiving).bind fun _ => respond_follows peer record message
  unfold acceptMessage
  refine answered.observe.bind fun answer => ?_
  cases answer with
  | error fault => exact .pure_of fun _ _ => trivial
  | ok found =>
    have save := (Follows.save peer message.identityKey).observe
    refine (save.strengthen fun _ spare => spare found rfl).bind fun saved => ?_
    cases saved with
    | error fault => exact .pure_of fun _ _ => trivial
    | ok _ => exact .pure_of fun _ _ => trivial

theorem decryptPreKey_follows (message : PreKeyMessage) :
    Follows pre (decryptPreKey peer message) (decryptPreKey peer message) fun _ _ => True := by
  unfold decryptPreKey
  refine (existingOrFresh_follows peer).bind fun record => ?_
  refine (acceptMessage_follows peer record message).bind fun accepted => ?_
  obtain ⟨record, accepted⟩ := accepted
  cases accepted with
  | error fault => exact (Follows.act _).bind fun _ => .refuse _
  | ok used =>
    refine (Follows.act _).bind fun read => (Follows.call rfl).bind fun _ => ?_
    cases used with
    | some id => exact (Follows.call rfl).bind fun _ => .pure _
    | none => exact .pure _

end Session

/-- Whatever an action does, it does on a ledger as on the device alone, and replaces no identity. -/
theorem Action.perform_follows (action : Action) :
    Follows (fun _ => True) action.perform action.perform fun _ _ => True := by
  cases action with
  | accept peer record message => exact (acceptMessage_follows peer record message).bind fun _ => .pure _
  | ask request =>
    have served : Follows (fun _ => True) request.perform request.perform fun _ _ => True := by
      cases request with
      | acceptBundle peer bundle => exact (acceptBundle_follows peer bundle).bind fun _ => .pure _
      | encrypt peer plaintext => exact (encrypt_follows peer plaintext).bind fun _ => .pure _
      | decryptRatchet peer message => exact (decryptRatchet_follows peer message).bind fun _ => .pure _
      | decryptPreKey peer message => exact (decryptPreKey_follows peer message).bind fun _ => .pure _
    exact served.bind fun _ => .pure _

end DoubleRatchet
