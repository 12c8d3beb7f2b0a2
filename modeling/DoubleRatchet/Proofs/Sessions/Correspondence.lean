import DoubleRatchet.Proofs.Session.Outcomes
import Mathlib.Logic.Function.Basic

/-! A correspondence: two devices that begin sessions with each other as often as they like, each from what the other
offers, and send messages on whichever session is current. A message that has been sent may be delivered, once, at any
time after. -/
namespace DoubleRatchet

inductive Party where
  | one
  | two
  deriving DecidableEq

namespace Party

def other : Party → Party
  | one => two
  | two => one

@[simp] theorem other_other (party : Party) : party.other.other = party := by cases party <;> rfl

theorem other_ne (party : Party) : party.other ≠ party := by cases party <;> decide

theorem eq_or_eq_other (a b : Party) : a = b ∨ a = b.other := by
  cases a <;> cases b <;> decide

end Party

/-- What the owner of a device offers to whoever wants to begin a session with it, and holds the private keys of. -/
structure Offer where
  registrationId : UInt32
  deviceId : UInt32
  signedPreKeyId : UInt32
  signedPreKey : KeyPair
  signature : Bytes
  oneTimePreKey : Option (UInt32 × KeyPair)
  deriving DecidableEq

namespace Offer

/-- The offer as it is published. -/
def bundle (offer : Offer) (identity : PublicKey) : PreKeyBundle where
  registrationId := offer.registrationId
  deviceId := offer.deviceId
  preKey := offer.oneTimePreKey.map fun (id, pair) => (id, pair.publicKey)
  signedPreKeyId := offer.signedPreKeyId
  signedPreKey := some offer.signedPreKey.publicKey
  signature := offer.signature
  identityKey := identity

def pairs (offer : Offer) : List KeyPair := offer.signedPreKey :: (offer.oneTimePreKey.map (·.2)).toList

/-- The keys of the offer are still in the stores. -/
structure Held (offer : Offer) (stores : Stores) : Prop where
  signedPreKey : ∃ record, stores.signedPreKeys[offer.signedPreKeyId]? = some record ∧
    record.keyPair = offer.signedPreKey
  oneTimePreKey : ∀ key ∈ offer.oneTimePreKey, ∃ record, stores.preKeys[key.1]? = some record ∧ record.keyPair = key.2

end Offer

/-- A session that a party has begun with a base key, from an offer of the other. -/
structure Thread where
  starter : Party
  base : KeyPair
  offer : Offer
  deriving DecidableEq

/-- By what both sides know the session: the base key as the states keep it. -/
def Thread.session (thread : Thread) : Bytes := thread.base.publicKey.serialize

/-- A device, the address under which it knows the other, and for each session the headings of the messages that it has
read there, the latest first. -/
structure Correspondent where
  device : Device
  peer : Address
  reads : Bytes → List (PublicKey × UInt32) := fun _ => []

namespace Correspondent

def stores (e : Correspondent) : Stores := e.device.stores

def entropy (e : Correspondent) : Entropy := e.device.ambient.entropy

def record (e : Correspondent) : SessionRecord := e.stores.recordOrFresh e.peer

/-- The session that the next message is sent on. -/
def session (e : Correspondent) : Bytes := (e.record.current.map SessionState.baseKey).getD []

/-- The correspondent with other keys for handshakes. -/
def stocked (e : Correspondent) (preKeys : Std.ExtTreeMap UInt32 PreKeyRecord)
    (signedPreKeys : Std.ExtTreeMap UInt32 SignedPreKeyRecord) : Correspondent :=
  { e with device := { e.device with stores := { e.stores with preKeys, signedPreKeys } } }

/-- The correspondent once its device has changed, and has read a message of a session if `read` is its heading. -/
def after (e : Correspondent) (device : Device) (session : Bytes) (read : Option (PublicKey × UInt32)) : Correspondent where
  device
  peer := e.peer
  reads := Function.update e.reads session (read.toList ++ e.reads session)

end Correspondent

/-- A message that has been sent on a session, with what it was made from. -/
structure Letter where
  sender : Party
  session : Bytes
  message : Message
  plaintext : Bytes

def Letter.heading? (letter : Letter) : Option (PublicKey × UInt32) := letter.message.inner?.map RatchetMessage.heading

structure Correspondence where
  ends : Party → Correspondent
  /-- The sessions that have been begun, the latest first. -/
  threads : List Thread := []
  /-- All messages that have been sent, in order. -/
  sent : List Letter := []
  /-- The places in that list of the messages that have been delivered. -/
  delivered : List Nat := []

/-- A new current state would push out the oldest archived one. -/
def SessionRecord.Full (record : SessionRecord) : Prop :=
  record.current.isSome ∧ maxArchivedStates ≤ record.archived.length

namespace Correspondence

/-- What may happen next. -/
inductive Event where
  | begin (party : Party) (offer : Offer)
  | send (party : Party) (plaintext : Bytes)
  | deliver (place : Nat)
  /-- The owner of a device adds to the keys that it holds for handshakes, or removes some. -/
  | stock (party : Party) (preKeys : Std.ExtTreeMap UInt32 PreKeyRecord)
    (signedPreKeys : Std.ExtTreeMap UInt32 SignedPreKeyRecord)

/-- The end that a message is for. -/
abbrev receiver (c : Correspondence) (letter : Letter) : Correspondent := c.ends letter.sender.other

/-- What comes of the attempt to begin a session from an offer of the other party. -/
def accept (c : Correspondence) (party : Party) (offer : Offer) : Except Fault Unit × Device :=
  let bundle := offer.bundle (c.ends party.other).stores.identity.publicKey
  (Session.acceptBundle (c.ends party).peer bundle : OnDevice Unit) (c.ends party).device

def encrypt (c : Correspondence) (party : Party) (plaintext : Bytes) : Except Fault Message × Device :=
  (Session.encrypt (c.ends party).peer plaintext : OnDevice Message) (c.ends party).device

def decrypt (c : Correspondence) (letter : Letter) : Except Fault Bytes × Device :=
  (Session.decrypt (c.receiver letter).peer letter.message : OnDevice Bytes) (c.receiver letter).device

def begin (c : Correspondence) (party : Party) (offer : Offer) : Correspondence :=
  let answer := c.accept party offer
  { c with
    ends := Function.update c.ends party { c.ends party with device := answer.2 }
    threads := if answer.1.isOk then ⟨party, (c.ends party).entropy.pair 0, offer⟩ :: c.threads else c.threads }

/-- The message that comes of a text is in flight. -/
def send (c : Correspondence) (party : Party) (plaintext : Bytes) : Correspondence :=
  let answer := c.encrypt party plaintext
  { c with
    ends := Function.update c.ends party { c.ends party with device := answer.2 }
    sent := c.sent ++ (answer.1.toOption.map fun message => ⟨party, (c.ends party).session, message, plaintext⟩).toList }

def received (c : Correspondence) (letter : Letter) : Correspondent :=
  let answer := c.decrypt letter
  (c.receiver letter).after answer.2 letter.session (if answer.1.isOk then letter.heading? else none)

/-- Delivers a message; nothing happens if it has been delivered before. -/
def deliver (c : Correspondence) (place : Nat) : Correspondence :=
  if place ∈ c.delivered then c
  else
    match c.sent[place]? with
    | none => c
    | some letter => { c with
        ends := Function.update c.ends letter.sender.other (c.received letter)
        delivered := place :: c.delivered }

def stock (c : Correspondence) (party : Party) (preKeys : Std.ExtTreeMap UInt32 PreKeyRecord)
    (signedPreKeys : Std.ExtTreeMap UInt32 SignedPreKeyRecord) : Correspondence :=
  { c with ends := Function.update c.ends party ((c.ends party).stocked preKeys signedPreKeys) }

def step (c : Correspondence) : Event → Correspondence
  | .begin party offer => c.begin party offer
  | .send party plaintext => c.send party plaintext
  | .deliver place => c.deliver place
  | .stock party preKeys signedPreKeys => c.stock party preKeys signedPreKeys

def run (c : Correspondence) (events : List Event) : Correspondence := events.foldl step c

/-- The event makes a record give up its oldest archived state: it brings a new state into a full record. -/
def Evicts (c : Correspondence) : Event → Prop
  | .begin party offer => (c.accept party offer).1 = .ok () ∧ (c.ends party).record.Full
  | .deliver place => ∃ letter message, c.sent[place]? = some letter ∧ letter.message = .preKey message ∧
      (c.decrypt letter).1.isOk ∧ (c.receiver letter).record.Full ∧
      (c.receiver letter).record.hasStateFor message.version.toUInt32 message.baseKey = false
  | _ => False

theorem begin_of_error {c : Correspondence} {party : Party} {offer : Offer} {fault : Fault} {device : Device}
    (run : c.accept party offer = (.error fault, device)) : c.begin party offer = { c with
      ends := Function.update c.ends party { c.ends party with device } } := by
  rw [begin, run]
  rfl

theorem begin_of_ok {c : Correspondence} {party : Party} {offer : Offer} {u : Unit} {device : Device}
    (run : c.accept party offer = (.ok u, device)) : c.begin party offer = { c with
      ends := Function.update c.ends party { c.ends party with device }
      threads := ⟨party, (c.ends party).entropy.pair 0, offer⟩ :: c.threads } := by
  rw [begin, run]
  rfl

theorem send_of_error {c : Correspondence} {party : Party} {plaintext : Bytes} {fault : Fault} {device : Device}
    (run : c.encrypt party plaintext = (.error fault, device)) : c.send party plaintext = { c with
      ends := Function.update c.ends party { c.ends party with device } } := by
  rw [send, run]
  simp [Except.toOption]

theorem send_of_ok {c : Correspondence} {party : Party} {plaintext : Bytes} {message : Message} {device : Device}
    (run : c.encrypt party plaintext = (.ok message, device)) : c.send party plaintext = { c with
      ends := Function.update c.ends party { c.ends party with device }
      sent := c.sent ++ [⟨party, (c.ends party).session, message, plaintext⟩] } := by
  rw [send, run]
  rfl

theorem deliver_eq {c : Correspondence} {place : Nat} {letter : Letter} {party : Party} (undelivered : place ∉ c.delivered)
    (found : c.sent[place]? = some letter) (receiver : letter.sender.other = party) : c.deliver place = { c with
      ends := Function.update c.ends party (c.received letter)
      delivered := place :: c.delivered } := by
  rw [deliver, if_neg undelivered, found, ← receiver]

theorem received_eq {c : Correspondence} {letter : Letter} {party : Party} (receiver : letter.sender.other = party)
    {result : Except Fault Bytes} {stores : Stores} {e : Entropy}
    (run : (c.ends party).stores.decrypt (c.ends party).peer (c.ends party).entropy letter.message = (result, stores, e)) :
    (c.decrypt letter).1 = result ∧ ∃ device, c.received letter = (c.ends party).after device letter.session
      (if result.isOk then letter.heading? else none) ∧ device.stores = stores ∧ device.ambient.entropy = e := by
  subst receiver
  have ran := run.symm.trans (Session.decrypt_run (Prod.eta (c.decrypt letter)).symm)
  obtain ⟨same, rest⟩ := Prod.ext_iff.mp ran
  obtain ⟨stores_eq, entropy_eq⟩ := Prod.ext_iff.mp rest
  dsimp only at same
  subst same
  exact ⟨rfl, (c.decrypt letter).2, rfl, stores_eq.symm, entropy_eq.symm⟩

/-! ## What only grows -/

theorem accept_skips (c : Correspondence) (party : Party) (offer : Offer) :
    ∃ n, (c.accept party offer).2.ambient.entropy = (c.ends party).entropy.skip n := by
  rcases run : c.accept party offer with ⟨_ | _, device⟩
  · exact ⟨0, congrArg Prod.snd (Session.acceptBundle_run_error run)⟩
  · exact ⟨2, (Session.acceptBundle_run run).2⟩

theorem encrypt_entropy (c : Correspondence) (party : Party) (plaintext : Bytes) :
    (c.encrypt party plaintext).2.ambient.entropy = (c.ends party).entropy := by
  rcases run : c.encrypt party plaintext with ⟨_ | _, device⟩
  · exact congrArg Prod.snd (Session.encrypt_run_error run).2
  · exact (Session.encrypt_run run).2

theorem received_skips (c : Correspondence) (letter : Letter) :
    ∃ n, (c.received letter).entropy = (c.receiver letter).entropy.skip n := by
  obtain ⟨n, left⟩ := Stores.decrypt_skips (c.receiver letter).stores (c.receiver letter).peer
    (c.receiver letter).entropy letter.message
  have run := Session.decrypt_run (Prod.eta (c.decrypt letter)).symm
  exact ⟨n, (congrArg (·.2.2) run).symm.trans left⟩

theorem update_skips (c : Correspondence) (party : Party) (e : Correspondent)
    (skips : ∃ n, e.entropy = (c.ends party).entropy.skip n) (other : Party) :
    ∃ n, (Function.update c.ends party e other).entropy = (c.ends other).entropy.skip n := by
  by_cases same : other = party
  · subst same
    rw [Function.update_self]
    exact skips
  · rw [Function.update_of_ne same]
    exact ⟨0, rfl⟩

theorem step_skips (c : Correspondence) (event : Event) (party : Party) :
    ∃ n, ((c.step event).ends party).entropy = (c.ends party).entropy.skip n := by
  cases event with
  | begin starter offer => exact c.update_skips starter { c.ends starter with device := _ } (c.accept_skips starter offer) party
  | send sender plaintext => exact c.update_skips sender { c.ends sender with device := _ } ⟨0, c.encrypt_entropy sender plaintext⟩ party
  | deliver place =>
    rw [step, deliver]
    split
    · exact ⟨0, rfl⟩
    split
    · exact ⟨0, rfl⟩
    · exact c.update_skips _ _ (c.received_skips _) party
  | stock owner preKeys signedPreKeys => exact c.update_skips owner ((c.ends owner).stocked preKeys signedPreKeys) ⟨0, rfl⟩ party

theorem run_skips (c : Correspondence) (events : List Event) (party : Party) :
    ∃ n, ((c.run events).ends party).entropy = (c.ends party).entropy.skip n := by
  induction events generalizing c with
  | nil => exact ⟨0, rfl⟩
  | cons event rest ih =>
    obtain ⟨m, now⟩ := c.step_skips event party
    obtain ⟨n, later⟩ := ih (c.step event)
    exact ⟨m + n, later.trans (by rw [now, Entropy.skip_skip])⟩

theorem step_sent (c : Correspondence) (event : Event) : c.sent <+: (c.step event).sent := by
  cases event with
  | send party plaintext => exact List.prefix_append _ _
  | deliver place =>
    rw [step, deliver]
    split
    · exact List.prefix_rfl
    · split <;> exact List.prefix_rfl
  | _ => exact List.prefix_rfl

theorem run_sent (c : Correspondence) (events : List Event) : c.sent <+: (c.run events).sent := by
  induction events generalizing c with
  | nil => exact List.prefix_rfl
  | cons event rest ih => exact (c.step_sent event).trans (ih (c.step event))

end Correspondence

end DoubleRatchet
