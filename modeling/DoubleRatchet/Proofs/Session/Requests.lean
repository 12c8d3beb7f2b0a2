import DoubleRatchet.Proofs.Session.Outcomes

/-! The life of a device: what is asked of it, one request after another, and what it answers to each. -/
namespace DoubleRatchet

open Session

/-- What an application asks of the library for a session. -/
inductive Request where
  | acceptBundle (peer : Address) (bundle : PreKeyBundle)
  | encrypt (peer : Address) (plaintext : Bytes)
  | decryptRatchet (peer : Address) (message : RatchetMessage)
  | decryptPreKey (peer : Address) (message : PreKeyMessage)

/-- What the library answers when all goes well. -/
inductive Reply where
  | accepted
  | sent (message : Message)
  | read (plaintext : Bytes) (keys : MessageKeys)

namespace Request

def ask : Request → OnDevice Reply
  | acceptBundle peer bundle => do
    Session.acceptBundle peer bundle
    return .accepted
  | encrypt peer plaintext => return .sent (← Session.encrypt peer plaintext)
  | decryptRatchet peer message => do
    let (plaintext, keys) ← Session.decryptRatchet peer message
    return .read plaintext keys
  | decryptPreKey peer message => do
    let (plaintext, keys) ← Session.decryptPreKey peer message
    return .read plaintext keys

def peer : Request → Address
  | acceptBundle peer _ | encrypt peer _ | decryptRatchet peer _ | decryptPreKey peer _ => peer

/-- The number of the message that is to be read, if one is. -/
def counter? : Request → Option UInt32
  | decryptRatchet _ message => some message.counter
  | decryptPreKey _ message => some message.message.counter
  | _ => none

end Request

/-- The answer to a request, the stores after it and the randomness that is left. -/
def Stores.serve (stores : Stores) (e : Entropy) : Request → Except Fault Reply × Stores × Entropy
  | .acceptBundle peer bundle =>
    match stores.acceptBundle peer bundle (e.pair 0) (e.pair 1) with
    | .ok stores => (.ok .accepted, stores, e.skip 2)
    | .error fault => (.error fault, stores, e)
  | .encrypt peer plaintext =>
    match stores.encrypt peer plaintext with
    | .ok (message, stores) => (.ok (.sent message), stores, e)
    | .error fault => (.error fault, stores, e)
  | .decryptRatchet peer message =>
    let (result, stores, e) := stores.decryptRatchet peer message e
    (result.map fun (plaintext, keys) => .read plaintext keys, stores, e)
  | .decryptPreKey peer message =>
    let (result, stores, e) := stores.decryptPreKey peer message e
    (result.map fun (plaintext, keys) => .read plaintext keys, stores, e)

theorem Stores.serve_skips (stores : Stores) (e : Entropy) (request : Request) :
    ∃ n, (stores.serve e request).2.2 = e.skip n := by
  cases request with
  | acceptBundle peer bundle =>
    simp only [serve]
    split
    · exact ⟨2, rfl⟩
    · exact ⟨0, rfl⟩
  | encrypt peer plaintext =>
    simp only [serve]
    split <;> exact ⟨0, rfl⟩
  | decryptRatchet peer message => exact stores.decryptRatchet_skips peer message e
  | decryptPreKey peer message => exact stores.decryptPreKey_skips peer message e

theorem Request.ask_yields (request : Request) (stores : Stores) (e : Entropy) :
    OnDevice.Yields request.ask (stores, e) (stores.serve e request).1 (stores.serve e request).2 := by
  cases request with
  | acceptBundle peer bundle =>
    have commits := acceptBundle_commits stores peer e bundle
    unfold Commits at commits
    unfold Stores.serve
    dsimp only
    cases made : stores.acceptBundle peer bundle (e.pair 0) (e.pair 1) with
    | error fault =>
      rw [made] at commits
      exact .bind_error commits
    | ok stores' =>
      rw [made] at commits
      exact .bind commits (.pure _ _)
  | encrypt peer plaintext =>
    have commits := encrypt_commits stores peer e plaintext
    unfold Commits at commits
    unfold Stores.serve
    dsimp only
    cases made : stores.encrypt peer plaintext with
    | error fault =>
      rw [made] at commits
      exact .bind_error commits
    | ok sent =>
      rw [made] at commits
      exact .bind commits (.pure _ _)
  | decryptRatchet peer message =>
    have yields := decryptRatchet_yields stores peer e message
    simp only [Stores.serve]
    rcases run : stores.decryptRatchet peer message e with ⟨_ | _, after⟩
    · rw [run] at yields
      exact .bind_error yields
    · rw [run] at yields
      exact .bind yields (.pure _ _)
  | decryptPreKey peer message =>
    have yields := decryptPreKey_yields stores peer e message
    simp only [Stores.serve]
    rcases run : stores.decryptPreKey peer message e with ⟨_ | _, after⟩
    · rw [run] at yields
      exact .bind_error yields
    · rw [run] at yields
      exact .bind yields (.pure _ _)

namespace Device

def serve (device : Device) (request : Request) : Except Fault Reply × Device := request.ask device

theorem serve_eq (device : Device) (request : Request) :
    (device.serve request).1 = (device.stores.serve device.ambient.entropy request).1 ∧
      (device.serve request).2.contents = (device.stores.serve device.ambient.entropy request).2 :=
  (request.ask_yields device.stores device.ambient.entropy).of_run rfl

theorem serve_of_decryptPreKey {device device' : Device} {peer : Address} {message : PreKeyMessage} {plaintext : Bytes}
    {keys : MessageKeys} (run : (Session.decryptPreKey peer message : OnDevice (Bytes × MessageKeys)) device =
      (.ok (plaintext, keys), device')) :
    device.serve (.decryptPreKey peer message) = (.ok (.read plaintext keys), device') := by
  rw [serve, Request.ask, bind_apply, run]
  rfl

/-- Serves requests one after another: each with its answer, and the device after them. -/
def serveAll : Device → List Request → List (Request × Except Fault Reply) × Device
  | device, [] => ([], device)
  | device, request :: rest =>
    let (answer, device) := device.serve request
    let (answers, device) := device.serveAll rest
    ((request, answer) :: answers, device)

theorem serve_skips (device : Device) (request : Request) :
    ∃ n, (device.serve request).2.ambient.entropy = device.ambient.entropy.skip n := by
  obtain ⟨n, left⟩ := device.stores.serve_skips device.ambient.entropy request
  exact ⟨n, (congrArg Prod.snd (device.serve_eq request).2).trans left⟩

theorem serveAll_skips (device : Device) (requests : List Request) :
    ∃ n, (device.serveAll requests).2.ambient.entropy = device.ambient.entropy.skip n := by
  induction requests generalizing device with
  | nil => exact ⟨0, rfl⟩
  | cons request rest ih =>
    obtain ⟨m, now⟩ := device.serve_skips request
    obtain ⟨n, later⟩ := ih (device.serve request).2
    exact ⟨m + n, later.trans (by rw [now, Entropy.skip_skip])⟩

theorem serveAll_requests (device : Device) (requests : List Request) :
    (device.serveAll requests).1.map (·.1) = requests := by
  induction requests generalizing device with
  | nil => rfl
  | cons request rest ih => exact congrArg (request :: ·) (ih (device.serve request).2)

end Device

/-- The message of a session that was returned for a peer, if one was. -/
def sent? (peer : Address) : Request × Except Fault Reply → Option RatchetMessage
  | (.encrypt receiver _, .ok (.sent message)) => if receiver = peer then message.inner? else none
  | _ => none

/-- The messages of sessions that were returned for a peer, in order. -/
def sentTo (peer : Address) (history : List (Request × Except Fault Reply)) : List RatchetMessage :=
  history.filterMap (sent? peer)

theorem sentTo_cons (peer : Address) (served : Request × Except Fault Reply)
    (later : List (Request × Except Fault Reply)) :
    sentTo peer (served :: later) = (sent? peer served).toList ++ sentTo peer later := by
  unfold sentTo
  cases is_sent : sent? peer served with
  | none => rw [List.filterMap_cons_none is_sent]; rfl
  | some message => rw [List.filterMap_cons_some is_sent]; rfl

/-! ## Two devices

A device that begins and one that has published a bundle, with keys from seeds. -/

namespace Sample

def publicKey (coordinate : Nat) : PublicKey := ⟨⟨Bytes.ofNatLE 32 coordinate, Bytes.length_ofNatLE _ _⟩⟩

def initiator : Address := ⟨"initiator", 1⟩

def responder : Address := ⟨"responder", 1⟩

def identity : KeyPair where
  publicKey := publicKey 7807708226100421709621107481464644540993002333249075922997452044357762631562
  privateKey := ((Entropy.ofSeed 2).pair 0).privateKey

def signedPreKey : KeyPair where
  publicKey := publicKey 18133377727470243509685929440134314363229634493822278765733758273592661233916
  privateKey := ((Entropy.ofSeed 2).pair 1).privateKey

def signature : Bytes :=
  .ofNatLE 64 6768671568527402403761947869106687204785980386716149945092559158118134761739576412272740697199458114733556701708928154128093561402172750879306372530870582

def bundle : PreKeyBundle where
  registrationId := 2
  deviceId := 1
  preKey := none
  signedPreKeyId := 1
  signedPreKey := some signedPreKey.publicKey
  signature
  identityKey := identity.publicKey

/-- A message of a version that no session has. -/
def outdated : RatchetMessage :=
  .create 2 ⟨List.replicate 32 0, rfl⟩ identity.publicKey 0 0 [] identity.publicKey identity.publicKey

def initiating : Device where
  stores := { identity := (Entropy.ofSeed 1).pair 0, registrationId := 1 }
  ambient := { entropy := (Entropy.ofSeed 1).skip 1 }

def responding : Device where
  stores := { identity, registrationId := 2, signedPreKeys := .insert ∅ 1 ⟨1, 0, signedPreKey, signature⟩ }
  ambient := { entropy := (Entropy.ofSeed 2).skip 2 }

end Sample

end DoubleRatchet
