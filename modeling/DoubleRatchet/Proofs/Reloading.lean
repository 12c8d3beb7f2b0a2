import DoubleRatchet.Proofs.Computation
import DoubleRatchet.Proofs.StoredRecords
import DoubleRatchet.Session.Cipher

/-! Devices that are shut down and started again. What a device keeps it can write as bytes and read again at any time, and
nobody can tell afterwards, from its answers or from what it stores. -/
namespace DoubleRatchet

/-- Where a device keeps a record: its own identity, or what is stored under a key. -/
inductive Place where
  | identity
  | session (peer : Address)
  | preKey (id : UInt32)
  | signedPreKey (id : UInt32)
  | senderKey (name : SenderKeyName)
  deriving DecidableEq

namespace Stores

/-- The bytes that the record at a place is stored as, if there is one. -/
def bytesAt (stores : Stores) : Place → Option Bytes
  | .identity => some stores.identity.encode
  | .session peer => stores.sessions[peer]?.map (·.encode)
  | .preKey id => stores.preKeys[id]?.map (·.encode)
  | .signedPreKey id => stores.signedPreKeys[id]?.map (·.encode)
  | .senderKey name => stores.senderKeys[name]?.map (·.encode)

/-- The stores with the record at a place that is read from bytes. -/
def load (stores : Stores) (bytes : Bytes) : Place → Except Fault Stores
  | .identity => return { stores with identity := ← KeyPair.decode bytes }
  | .session peer => return { stores with sessions := stores.sessions.insert peer (← SessionRecord.decode bytes) }
  | .preKey id => return { stores with preKeys := stores.preKeys.insert id (← PreKeyRecord.decode bytes) }
  | .signedPreKey id =>
    return { stores with signedPreKeys := stores.signedPreKeys.insert id (← SignedPreKeyRecord.decode bytes) }
  | .senderKey name =>
    return { stores with senderKeys := stores.senderKeys.insert name (← Group.SenderKeyRecord.decode bytes) }

/-- The stores with the record at a place replaced by what is read from its bytes. -/
def reload (stores : Stores) (place : Place) : Except Fault Stores :=
  match stores.bytesAt place with
  | some bytes => stores.load bytes place
  | none => .ok stores

/-- A record is stored as no more bytes than can be counted. -/
def Storable (stores : Stores) (place : Place) : Prop := ∀ bytes ∈ stores.bytesAt place, bytes.length < UInt64.size

variable {stores : Stores} {place : Place}

theorem load_bytesAt {bytes : Bytes} (held : stores.bytesAt place = some bytes) (short : bytes.length < UInt64.size) :
    stores.load bytes place = .ok stores := by
  cases place with
  | identity =>
    cases held
    rw [load, KeyPair.decode_encode]
    rfl
  | session peer =>
    obtain ⟨record, stored, rfl⟩ := Option.map_eq_some_iff.mp held
    simp [load, SessionRecord.decode_encode record short, insert_stored stored, bind, Except.bind, pure, Except.pure]
  | preKey id =>
    obtain ⟨record, stored, rfl⟩ := Option.map_eq_some_iff.mp held
    simp [load, PreKeyRecord.decode_encode record, insert_stored stored, bind, Except.bind, pure, Except.pure]
  | signedPreKey id =>
    obtain ⟨record, stored, rfl⟩ := Option.map_eq_some_iff.mp held
    simp [load, SignedPreKeyRecord.decode_encode record short, insert_stored stored, bind, Except.bind, pure, Except.pure]
  | senderKey name =>
    obtain ⟨record, stored, rfl⟩ := Option.map_eq_some_iff.mp held
    simp [load, Group.SenderKeyRecord.decode_encode record short, insert_stored stored, bind, Except.bind, pure, Except.pure]

/-- Reloading puts a record back where it was, as it was. -/
theorem reload_eq (storable : stores.Storable place) : stores.reload place = .ok stores := by
  unfold reload
  cases held : stores.bytesAt place with
  | none => rfl
  | some bytes => exact load_bytesAt held (storable bytes held)

end Stores

/-- What happens to a device: something is done with it, or a record is reloaded. -/
inductive Happening (A : Type) where
  | does (computation : OnDevice A)
  | reloads (place : Place)

/-- Whether a happening is more than a reload. -/
def Happening.isDeed {A : Type} : Happening A → Bool
  | does _ => true
  | reloads _ => false

/-- The answers to what is done with a device, and the device after all that happens to it. A record that cannot be read
again puts an end to it. -/
def Device.run {A : Type} : Device → List (Happening A) → List (Except Fault A) × Device
  | device, [] => ([], device)
  | device, .does computation :: rest =>
    let (answer, device) := computation device
    let (answers, device) := device.run rest
    (answer :: answers, device)
  | device, .reloads place :: rest =>
    match device.stores.reload place with
    | .ok stores => { device with stores }.run rest
    | .error fault => ([.error fault], device)

/-- Each record that is to be reloaded can be stored when it is. -/
def Device.Reloadable {A : Type} : Device → List (Happening A) → Prop
  | _, [] => True
  | device, .does computation :: rest => (computation device).2.Reloadable rest
  | device, .reloads place :: rest => device.stores.Storable place ∧ device.Reloadable rest

theorem Device.run_does {A : Type} (device : Device) (computation : OnDevice A) (rest : List (Happening A)) :
    let done := computation device
    device.run (.does computation :: rest) = (done.1 :: (done.2.run rest).1, (done.2.run rest).2) := rfl

theorem Device.run_reloads {A : Type} {device : Device} {happenings : List (Happening A)}
    (reloadable : device.Reloadable happenings) :
    device.run happenings = device.run (happenings.filter Happening.isDeed) := by
  induction happenings generalizing device with
  | nil => rfl
  | cons happening rest ih =>
    cases happening with
    | does computation =>
      have later : (computation device).2.run rest = (computation device).2.run (rest.filter Happening.isDeed) :=
        ih reloadable
      rw [List.filter_cons_of_pos rfl, run_does, run_does, later]
    | reloads place =>
      obtain ⟨storable, reloadable⟩ := reloadable
      -- The device is the same after the reload, so that the rest runs on it.
      rw [List.filter_cons_of_neg Bool.false_ne_true, run, Stores.reload_eq storable]
      exact ih reloadable

/-- Whatever is in a record, what is read from the bytes that it is stored as is the record. So it makes no difference to a
device when, which and how often records are reloaded: all that is done with it is answered in the same way, and in the
end it keeps the same. No device has room for more bytes than can be counted. -/
theorem records_survive_reloading :
    (∀ record : SessionRecord, record.encode.length < UInt64.size → SessionRecord.decode record.encode = .ok record) ∧
    (∀ state : SessionState, state.encode.length < UInt64.size → SessionState.decode state.encode = .ok state) ∧
    (∀ record : Group.SenderKeyRecord, record.encode.length < UInt64.size →
      Group.SenderKeyRecord.decode record.encode = .ok record) ∧
    (∀ record : PreKeyRecord, PreKeyRecord.decode record.encode = .ok record) ∧
    (∀ record : SignedPreKeyRecord, record.encode.length < UInt64.size →
      SignedPreKeyRecord.decode record.encode = .ok record) ∧
    (∀ pair : KeyPair, KeyPair.decode pair.encode = .ok pair) ∧
    ∀ (A : Type) (device : Device) (happenings : List (Happening A)), device.Reloadable happenings →
      device.run happenings = device.run (happenings.filter Happening.isDeed) := by
  refine ⟨?_, ?_, ?_, ?_, ?_, ?_, ?_⟩
  · exact SessionRecord.decode_encode
  · exact SessionState.decode_encode
  · exact Group.SenderKeyRecord.decode_encode
  · exact PreKeyRecord.decode_encode
  · exact SignedPreKeyRecord.decode_encode
  · exact KeyPair.decode_encode
  · exact fun A device happenings => Device.run_reloads

/-- A record of states in which nothing is set, but the parts of one are there, with the greatest number of all, which is
stored as a negative one. It is reloaded before the version of the session is asked for and again afterwards. -/
theorem records_survive_reloading_of_defaults :
    let peer : Address := ⟨"peer", 1⟩
    let state : SessionState := {
      sender := some { chainKey := some {}, cache := [{}] }
      pendingKeyExchange := some {}
      pendingPreKey := some { signedPreKeyId := 0xffffffff } }
    let record : SessionRecord := { current := some state, archived := [{}] }
    let device : Device := {
      stores := { identity := (Entropy.ofSeed 1).pair 0, registrationId := 1, sessions := .insert ∅ peer record }
      ambient := { entropy := (Entropy.ofSeed 1).skip 1 } }
    SessionRecord.decode record.encode = .ok record ∧
      (device.run [.reloads (.session peer), .does (Session.version peer), .reloads (.session peer)]).1 = [.ok 2] := by
  intro peer state record device
  have short : record.encode.length < UInt64.size := by decide +kernel
  have stored : device.stores.sessions[peer]? = some record := Std.ExtTreeMap.getElem?_insert_self
  have storable : device.stores.Storable (.session peer) := by
    intro bytes held
    rw [Stores.bytesAt, stored] at held
    cases held
    exact short
  have loaded : (Host.call (.loadSession peer) : OnDevice (Option SessionRecord)) device = (.ok (some record), device) := by
    rw [← stored]
    rfl
  have version : (Session.version peer : OnDevice UInt32) device = (.ok 2, device) := by
    rw [Session.version, Session.existing, bind_apply, bind_apply, loaded]
    rfl
  have reloadable : device.Reloadable
      [.reloads (.session peer), .does (Session.version peer), .reloads (.session peer)] := by
    refine ⟨storable, ?_, True.intro⟩
    rw [version]
    exact storable
  refine ⟨records_survive_reloading.1 record short, ?_⟩
  rw [records_survive_reloading.2.2.2.2.2.2 UInt32 device _ reloadable]
  exact congrArg (fun done => [done.1]) version

end DoubleRatchet
