import DoubleRatchet.Proofs.Group.Operations
import DoubleRatchet.Session.Cipher

/-! An operation that fails changes no record. Every operation writes records only when nothing can fail any more, which
is seen by following its text: what comes before the first write keeps all records whatever comes of it, and from the
first write on nothing fails. -/
namespace DoubleRatchet

variable {A B : Type}

/-- Stores with the same sessions, keys for handshakes and chains of groups; the identities of peers may differ. -/
structure Stores.SameRecords (before after : Stores) : Prop where
  sessions : after.sessions = before.sessions
  preKeys : after.preKeys = before.preKeys
  signedPreKeys : after.signedPreKeys = before.signedPreKeys
  senderKeys : after.senderKeys = before.senderKeys

namespace Stores.SameRecords

variable {a b c : Stores}

theorem refl (a : Stores) : a.SameRecords a := ⟨rfl, rfl, rfl, rfl⟩

theorem trans (first : a.SameRecords b) (second : b.SameRecords c) : a.SameRecords c where
  sessions := second.sessions.trans first.sessions
  preKeys := second.preKeys.trans first.preKeys
  signedPreKeys := second.signedPreKeys.trans first.signedPreKeys
  senderKeys := second.senderKeys.trans first.senderKeys

end Stores.SameRecords

namespace OnDevice

/-- Whatever comes of it, the computation changes no record. -/
def Quiet (x : OnDevice A) : Prop := ∀ device : Device, device.stores.SameRecords (x device).2.stores

/-- The computation does not fail. -/
def Total (x : OnDevice A) : Prop := ∀ device : Device, ∃ a device', x device = (.ok a, device')

/-- If it fails, the computation changes no record. -/
def Atomic (x : OnDevice A) : Prop :=
  ∀ (device : Device) fault device', x device = (.error fault, device') → device.stores.SameRecords device'.stores

theorem Quiet.atomic {x : OnDevice A} (quiet : Quiet x) : Atomic x := by
  intro device fault device' run
  have same := quiet device
  rw [run] at same
  exact same

theorem Total.atomic {x : OnDevice A} (total : Total x) : Atomic x := by
  intro device fault device' run
  obtain ⟨a, after, run'⟩ := total device
  rw [run] at run'
  cases run'

section Bind

variable {x : OnDevice A} {f : A → OnDevice B}

theorem Quiet.bind (first : Quiet x) (second : ∀ a, Quiet (f a)) : Quiet (x >>= f) := by
  intro device
  have same := first device
  rw [bind_apply]
  rcases run : x device with ⟨_ | a, device'⟩
  · rw [run] at same
    exact same
  · rw [run] at same
    exact same.trans (second a device')

theorem Total.bind (first : Total x) (second : ∀ a, Total (f a)) : Total (x >>= f) := by
  intro device
  obtain ⟨a, device', run⟩ := first device
  rw [bind_apply, run]
  exact second a device'

/-- What follows a quiet computation has only to be atomic for what the computation can give. -/
theorem Quiet.bind_atomic_of_run (first : Quiet x)
    (second : ∀ device a device', x device = (.ok a, device') → Atomic (f a)) : Atomic (x >>= f) := by
  intro device fault device'' failed
  have same := first device
  rw [bind_apply] at failed
  rcases run : x device with ⟨_ | a, device'⟩
  · rw [run] at failed same
    cases failed
    exact same
  · rw [run] at failed same
    exact same.trans (second device a device' run device' fault device'' failed)

theorem Quiet.bind_atomic (first : Quiet x) (second : ∀ a, Atomic (f a)) : Atomic (x >>= f) :=
  first.bind_atomic_of_run fun _ a _ _ => second a

theorem Atomic.bind_total (first : Atomic x) (second : ∀ a, Total (f a)) : Atomic (x >>= f) := by
  intro device fault device'' failed
  rw [bind_apply] at failed
  rcases run : x device with ⟨_ | a, device'⟩
  · rw [run] at failed
    cases failed
    exact first device fault device'' run
  · rw [run] at failed
    obtain ⟨b, after, run'⟩ := second a device'
    change f a device' = _ at failed
    rw [run'] at failed
    cases failed

end Bind

theorem Quiet.pure (a : A) : Quiet (Pure.pure a) := fun _ => .refl _

theorem Quiet.act (x : Act A) : Quiet (OnDevice.act x) := fun _ => .refl _

theorem Quiet.call {call : StoreCall A} (keeps : ∀ stores : Stores, stores.SameRecords (stores.answer call).2) :
    Quiet (OnDevice.call call) :=
  fun device => keeps device.stores

theorem Quiet.observe {x : OnDevice A} (quiet : Quiet x) : Quiet (DoubleRatchet.observe x) := by
  intro device
  rw [observe_apply]
  exact quiet device

theorem Total.pure (a : A) : Total (Pure.pure a) := fun device => ⟨a, device, rfl⟩

theorem Total.lift {x : Except Fault A} {a : A} (ok : x = .ok a) : Total (OnDevice.act (liftM x)) := by
  intro device
  exact ⟨a, device, by rw [ok]; rfl⟩

theorem Total.call {call : StoreCall A} (answers : ∀ stores : Stores, ∃ a, (stores.answer call).1 = .ok a) :
    Total (OnDevice.call call) := by
  intro device
  obtain ⟨a, answer⟩ := answers device.stores
  exact ⟨a, _, Prod.ext answer rfl⟩

theorem Quiet.read {call : StoreCall A} (same : ∀ stores : Stores, (stores.answer call).2 = stores) :
    Quiet (OnDevice.call call) :=
  .call fun stores => by rw [same]; exact .refl stores

end OnDevice

open OnDevice

/-! ## Sessions -/

namespace Session

variable (peer : Address)

theorem saveIdentity_quiet (identity : PublicKey) : Quiet (Host.call (.saveIdentity peer identity)) :=
  .call fun _ => ⟨rfl, rfl, rfl, rfl⟩

theorem saveIdentity_total (identity : PublicKey) : Total (Host.call (.saveIdentity peer identity)) :=
  .call fun _ => ⟨_, rfl⟩

theorem storeSession_total (record : SessionRecord) : Total (Host.call (.storeSession peer record)) :=
  .call fun _ => ⟨_, rfl⟩

theorem requireTrusted_quiet (identity : PublicKey) (direction : Direction) :
    Quiet (requireTrusted peer identity direction) := by
  unfold requireTrusted
  apply Quiet.bind
  · exact .read fun _ => rfl
  · intro trusted
    cases trusted with
    | true => exact .pure ()
    | false => exact .bind (.act _) fun _ => .act _

theorem existing_quiet : Quiet (existing peer) := by
  unfold existing
  apply Quiet.bind
  · exact .read fun _ => rfl
  · intro found
    cases found with
    | some record => exact .pure record
    | none => exact .act _

theorem existingOrFresh_quiet : Quiet (existingOrFresh peer) := by
  unfold existingOrFresh
  apply Quiet.bind
  · exact .read fun _ => rfl
  · intro found
    apply Quiet.pure

theorem oneTimeKey_quiet (id : Option UInt32) : Quiet (oneTimeKey peer id) := by
  unfold oneTimeKey
  cases id with
  | some id =>
    apply Quiet.bind
    · exact .read fun _ => rfl
    · intro preKey
      apply Quiet.pure
  | none => exact .bind (.act _) fun _ => .pure none

theorem respond_quiet (record : SessionRecord) (message : PreKeyMessage) : Quiet (respond peer record message) := by
  unfold respond
  split
  · exact .bind (.act _) fun _ => .pure _
  · apply Quiet.bind (.read fun _ => rfl)
    intro signedPreKey
    apply (oneTimeKey_quiet peer message.preKeyId).bind
    intro oneTimePreKey
    apply Quiet.bind (.read fun _ => rfl)
    intro identity
    apply Quiet.bind (.act _)
    intro state
    apply Quiet.bind (.read fun _ => rfl)
    intro registrationId
    exact .bind (.act _) fun _ => .pure _

/-- Accepting a handshake saves an identity and nothing else. -/
theorem acceptMessage_quiet (record : SessionRecord) (message : PreKeyMessage) :
    Quiet (acceptMessage peer record message) := by
  unfold acceptMessage
  apply Quiet.bind
  · exact (Quiet.bind (requireTrusted_quiet peer message.identityKey .receiving) fun _ => respond_quiet peer record message).observe
  · intro accepted
    cases accepted with
    | error fault => apply Quiet.pure
    | ok found =>
      apply Quiet.bind
      · exact (saveIdentity_quiet peer message.identityKey).observe
      · intro saved
        cases saved with
        | error fault => apply Quiet.pure
        | ok changed => apply Quiet.pure

theorem acceptBundle_atomic (bundle : PreKeyBundle) : Atomic (acceptBundle peer bundle) := by
  unfold acceptBundle
  apply (requireTrusted_quiet peer bundle.identityKey .sending).bind_atomic
  intro _
  apply Quiet.bind_atomic (.act _)
  intro signedPreKey
  apply (existingOrFresh_quiet peer).bind_atomic
  intro record
  apply Quiet.bind_atomic (.act _)
  intro base
  apply Quiet.bind_atomic (.read fun _ => rfl)
  intro identity
  apply Quiet.bind_atomic (.act _)
  intro state
  apply Quiet.bind_atomic (.act _)
  intro _
  apply Quiet.bind_atomic (.read fun _ => rfl)
  intro registrationId
  apply Quiet.bind_atomic (.act _)
  intro _
  apply Total.atomic
  apply (storeSession_total peer _).bind
  intro _
  exact (saveIdentity_total peer bundle.identityKey).bind fun _ => .pure ()

theorem encrypt_atomic (plaintext : Bytes) : Atomic (encrypt peer plaintext) := by
  unfold encrypt
  apply (existing_quiet peer).bind_atomic
  intro record
  apply Quiet.bind_atomic (.act _)
  intro state
  apply Quiet.bind_atomic (.act _)
  intro sent
  apply Quiet.bind_atomic (.act _)
  intro chain
  apply (requireTrusted_quiet peer sent.2 .sending).bind_atomic
  intro _
  apply (saveIdentity_quiet peer sent.2).bind_atomic
  intro _
  apply Total.atomic
  exact (storeSession_total peer _).bind fun _ => .pure _

theorem decryptRatchet_atomic (message : RatchetMessage) : Atomic (decryptRatchet peer message) := by
  unfold decryptRatchet
  apply (existing_quiet peer).bind_atomic
  intro record
  apply Quiet.bind_atomic (.act _)
  intro read
  apply Quiet.bind_atomic (.act _)
  intro state
  apply Quiet.bind_atomic (.act _)
  intro identity
  apply (requireTrusted_quiet peer identity .receiving).bind_atomic
  intro _
  apply (saveIdentity_quiet peer identity).bind_atomic
  intro _
  apply Total.atomic
  exact (storeSession_total peer _).bind fun _ => .pure _

theorem decryptPreKey_atomic (message : PreKeyMessage) : Atomic (decryptPreKey peer message) := by
  unfold decryptPreKey
  apply (existingOrFresh_quiet peer).bind_atomic
  intro record
  apply (acceptMessage_quiet peer record message).bind_atomic
  intro accepted
  obtain ⟨record, accepted⟩ := accepted
  cases accepted with
  | error fault => exact (Quiet.bind (.act _) fun _ => .act _).atomic
  | ok used =>
    apply Quiet.bind_atomic (.act _)
    intro read
    apply Total.atomic
    apply (storeSession_total peer _).bind
    intro _
    cases used with
    | none => exact .bind (.pure ()) fun _ => .pure _
    | some id => exact .bind (.call fun _ => ⟨_, rfl⟩) fun _ => .pure _

theorem decrypt_atomic (message : Message) : Atomic (decrypt peer message) := by
  unfold decrypt
  cases message with
  | ratchet message => exact (decryptRatchet_atomic peer message).bind_total fun _ => .pure _
  | preKey message => exact (decryptPreKey_atomic peer message).bind_total fun _ => .pure _
  | group message => exact (Quiet.act _).atomic
  | distribution message => exact (Quiet.act _).atomic

end Session

/-! ## Groups -/

namespace Group

variable (name : SenderKeyName)

theorem existingOrEmpty_quiet : Quiet (existingOrEmpty name) := by
  unfold existingOrEmpty
  apply Quiet.bind
  · exact .read fun _ => rfl
  · intro found
    apply Quiet.pure

theorem storeSenderKey_total (record : SenderKeyRecord) : Total (Host.call (.storeSenderKey name record)) :=
  .call fun _ => ⟨_, rfl⟩

theorem process_atomic (message : KeyDistribution) : Atomic (process name message) := by
  unfold process
  split
  · exact (Quiet.act _).atomic
  · apply Quiet.bind_atomic (.act _)
    intro _
    apply (existingOrEmpty_quiet name).bind_atomic
    intro record
    exact (storeSenderKey_total name _).atomic

theorem newState_eq {device device' : Device} {state : SenderKeyState}
    (run : (newState name : OnDevice SenderKeyState) device = (.ok state, device')) :
    ∃ keyId chain signingKey signingPrivateKey, state = .start keyId chain signingKey signingPrivateKey := by
  cases run
  exact ⟨_, _, _, _, rfl⟩

theorem create_atomic : Atomic (create name) := by
  unfold create
  apply (existingOrEmpty_quiet name).bind_atomic
  intro record
  split
  · apply Quiet.bind_atomic_of_run (.act _)
    intro device state device' run
    obtain ⟨keyId, chain, signingKey, signingPrivateKey, rfl⟩ := newState_eq name run
    apply Total.atomic
    apply (storeSenderKey_total name _).bind
    intro _
    exact .lift (distribution_start keyId chain signingKey signingPrivateKey)
  · exact (Quiet.act _).atomic

theorem encrypt_atomic (plaintext : Bytes) : Atomic (encrypt name plaintext) := by
  unfold encrypt
  apply Quiet.bind_atomic (.read fun _ => rfl)
  intro found
  cases found with
  | none => exact (Quiet.act _).atomic
  | some record =>
    apply Quiet.bind_atomic (.act _)
    intro state
    apply Quiet.bind_atomic (.act _)
    intro sent
    apply Total.atomic
    exact (storeSenderKey_total name _).bind fun _ => .pure _

theorem decrypt_atomic (bytes : Bytes) : Atomic (decrypt name bytes) := by
  unfold decrypt
  apply Quiet.bind_atomic (.act _)
  intro message
  apply Quiet.bind_atomic (.read fun _ => rfl)
  intro found
  cases found with
  | none => exact (Quiet.act _).atomic
  | some record =>
    have stores (found : Bytes × SenderKeyRecord) : Atomic (do
        Host.call (.storeSenderKey name found.2)
        return found.1) :=
      ((storeSenderKey_total name found.2).bind fun _ => .pure _).atomic
    dsimp only
    split
    · apply Quiet.bind_atomic (.act _)
      intro _
      exact Quiet.bind_atomic (.act _) stores
    · exact Quiet.bind_atomic (.act _) stores

end Group

/-- When an operation on sessions or groups fails, for whatever reason and with whatever in the stores, all sessions,
prekeys, signed prekeys and chains of groups are as before. -/
theorem operations_atomic (peer : Address) (name : SenderKeyName) :
    (∀ bundle, Atomic (Session.acceptBundle peer bundle)) ∧
    (∀ plaintext, Atomic (Session.encrypt peer plaintext)) ∧
    (∀ message, Atomic (Session.decrypt peer message)) ∧
    (∀ message, Atomic (Session.decryptRatchet peer message)) ∧
    (∀ message, Atomic (Session.decryptPreKey peer message)) ∧
    (∀ message, Atomic (Group.process name message)) ∧
    Atomic (Group.create name) ∧
    (∀ plaintext, Atomic (Group.encrypt name plaintext)) ∧
    ∀ bytes, Atomic (Group.decrypt name bytes) := by
  refine ⟨?_, ?_, ?_, ?_, ?_, ?_, ?_, ?_, ?_⟩
  · exact Session.acceptBundle_atomic peer
  · exact Session.encrypt_atomic peer
  · exact Session.decrypt_atomic peer
  · exact Session.decryptRatchet_atomic peer
  · exact Session.decryptPreKey_atomic peer
  · exact Group.process_atomic name
  · exact Group.create_atomic name
  · exact Group.encrypt_atomic name
  · exact Group.decrypt_atomic name

/-- A chain that stands at the last iteration of all signs a message and then cannot pass it: the message is not sent, and
the chain stays where it is. -/
theorem operations_atomic_last_iteration :
    let name : SenderKeyName := ⟨"group", ⟨"sender", 1⟩⟩
    let signing := (Entropy.ofSeed 1).pair 0
    let record : Group.SenderKeyRecord :=
      .push .empty (.start 7 ⟨0xffffffff, ⟨List.replicate 32 0, rfl⟩⟩ signing.publicKey (some signing.privateKey))
    let device : Device := {
      stores := { identity := signing, registrationId := 1, senderKeys := .insert ∅ name record }
      ambient := { entropy := (Entropy.ofSeed 1).skip 1 } }
    let overflowed := Group.corrupt "chain iteration overflowed"
    ∃ device', (Group.encrypt name [1, 2, 3] : OnDevice GroupMessage) device = (.error overflowed, device') ∧
      device.stores.SameRecords device'.stores := by
  intro name signing record device overflowed
  have failed : (match ((Group.encrypt name [1, 2, 3] : OnDevice GroupMessage) device).1 with
      | .error fault => decide (fault = overflowed)
      | .ok _ => false) = true := by
    decide +kernel
  rcases run : (Group.encrypt name [1, 2, 3] : OnDevice GroupMessage) device with ⟨fault | message, device'⟩
  · rw [run] at failed
    cases of_decide_eq_true failed
    have atomic := (operations_atomic name.sender name).2.2.2.2.2.2.2.1 [1, 2, 3]
    exact ⟨device', rfl, atomic device _ device' run⟩
  · rw [run] at failed
    cases failed

end DoubleRatchet
