import DoubleRatchet.Proofs.Session.Outcomes
import Mathlib.Logic.Function.Basic

/-! A conversation between two devices. Messages may be sent at any time by either; each that has been sent may be
delivered, once, at any time after, so that messages are delayed, reordered and dropped. -/
namespace DoubleRatchet

/-- The sides of a session: the one that begins, and the owner of the bundle that it begins from. -/
inductive Side where
  | initiator
  | responder
  deriving DecidableEq

namespace Side

def other : Side → Side
  | initiator => responder
  | responder => initiator

@[simp] theorem other_other (side : Side) : side.other.other = side := by cases side <;> rfl

theorem other_ne (side : Side) : side.other ≠ side := by cases side <;> exact nofun

theorem eq_or_eq_other (a b : Side) : a = b ∨ a = b.other := by
  cases a <;> cases b <;> decide

end Side

/-- One end of a conversation: a device, the address under which it knows the other end, and the headings of the messages
that it has read, the latest first. -/
structure End where
  device : Device
  peer : Address
  reads : List (PublicKey × UInt32) := []

namespace End

def stores (e : End) : Stores := e.device.stores

def entropy (e : End) : Entropy := e.device.ambient.entropy

/-- The end once its device has changed, and has read a message if `read` is its heading. -/
def after (e : End) (device : Device) (read : Option (PublicKey × UInt32)) : End where
  device
  peer := e.peer
  reads := read.toList ++ e.reads

end End

/-- A message that has been sent, with what it was made from. -/
structure Sent where
  sender : Side
  message : Message
  plaintext : Bytes

def Sent.heading? (sent : Sent) : Option (PublicKey × UInt32) := sent.message.inner?.map RatchetMessage.heading

structure Conversation where
  ends : Side → End
  /-- All messages that have been sent, in order. -/
  sent : List Sent := []
  /-- The places in that list of the messages that have been delivered. -/
  delivered : List Nat := []

namespace Conversation

/-- What may happen next. -/
inductive Event where
  | send (side : Side) (plaintext : Bytes)
  | deliver (place : Nat)

def encrypt (c : Conversation) (side : Side) (plaintext : Bytes) : Except Fault Message × Device :=
  (Session.encrypt (c.ends side).peer plaintext : OnDevice Message) (c.ends side).device

/-- What the side that a message was not sent by makes of it. -/
def decrypt (c : Conversation) (sent : Sent) : Except Fault Bytes × Device :=
  let side := sent.sender.other
  (Session.decrypt (c.ends side).peer sent.message : OnDevice Bytes) (c.ends side).device

/-- The message that comes of a text is in flight. -/
def send (c : Conversation) (side : Side) (plaintext : Bytes) : Conversation :=
  let (result, device) := c.encrypt side plaintext
  { c with
    ends := Function.update c.ends side ((c.ends side).after device none)
    sent := c.sent ++ (result.toOption.map fun message => ⟨side, message, plaintext⟩).toList }

def accept (c : Conversation) (sent : Sent) : End :=
  let (result, device) := c.decrypt sent
  (c.ends sent.sender.other).after device (if result.isOk then sent.heading? else none)

/-- Delivers a message; nothing happens if it has been delivered before. -/
def deliver (c : Conversation) (place : Nat) : Conversation :=
  if place ∈ c.delivered then c
  else
    match c.sent[place]? with
    | none => c
    | some sent => { c with
        ends := Function.update c.ends sent.sender.other (c.accept sent)
        delivered := place :: c.delivered }

def step (c : Conversation) : Event → Conversation
  | .send side plaintext => c.send side plaintext
  | .deliver place => c.deliver place

def run (c : Conversation) (events : List Event) : Conversation := events.foldl step c

theorem deliver_eq {c : Conversation} {place : Nat} {sent : Sent} {side : Side} (undelivered : place ∉ c.delivered)
    (found : c.sent[place]? = some sent) (receiver : sent.sender.other = side) : c.deliver place = { c with
      ends := Function.update c.ends side (c.accept sent)
      delivered := place :: c.delivered } := by
  rw [deliver, if_neg undelivered, found, ← receiver]

theorem accept_eq {c : Conversation} {sent : Sent} {side : Side} (receiver : sent.sender.other = side)
    {result : Except Fault Bytes} {stores : Stores} {e : Entropy}
    (run : (c.ends side).stores.decrypt (c.ends side).peer (c.ends side).entropy sent.message = (result, stores, e)) :
    (c.decrypt sent).1 = result ∧ ∃ device, c.accept sent = (c.ends side).after device
      (if result.isOk then sent.heading? else none) ∧ device.stores = stores ∧ device.ambient.entropy = e := by
  subst receiver
  have ran := run.symm.trans (Session.decrypt_run (Prod.eta (c.decrypt sent)).symm)
  obtain ⟨same, rest⟩ := Prod.ext_iff.mp ran
  obtain ⟨stores_eq, entropy_eq⟩ := Prod.ext_iff.mp rest
  dsimp only at same
  subst same
  exact ⟨rfl, (c.decrypt sent).2, rfl, stores_eq.symm, entropy_eq.symm⟩

/-! ## What only grows -/

theorem send_entropy (c : Conversation) (side other : Side) (plaintext : Bytes) :
    ((c.send side plaintext).ends other).entropy = (c.ends other).entropy := by
  by_cases same : other = side
  · subst same
    simp only [send, Function.update_self]
    rcases run : c.encrypt other plaintext with ⟨_ | _, device⟩
    · exact congrArg Prod.snd (Session.encrypt_run_error run).2
    · exact (Session.encrypt_run run).2
  · simp only [send, Function.update_of_ne same]

theorem send_reads (c : Conversation) (side other : Side) (plaintext : Bytes) :
    ((c.send side plaintext).ends other).reads = (c.ends other).reads := by
  by_cases same : other = side
  · subst same
    simp only [send, Function.update_self]
    rfl
  · simp only [send, Function.update_of_ne same]

theorem send_delivered (c : Conversation) (side : Side) (plaintext : Bytes) :
    (c.send side plaintext).delivered = c.delivered := rfl

theorem accept_skips (c : Conversation) (sent : Sent) :
    ∃ n, (c.accept sent).entropy = (c.ends sent.sender.other).entropy.skip n := by
  obtain ⟨n, left⟩ := Stores.decrypt_skips (c.ends sent.sender.other).stores (c.ends sent.sender.other).peer
    (c.ends sent.sender.other).entropy sent.message
  have run := Session.decrypt_run (Prod.eta (c.decrypt sent)).symm
  exact ⟨n, (congrArg (·.2.2) run).symm.trans left⟩

theorem deliver_skips (c : Conversation) (place : Nat) (side : Side) :
    ∃ n, ((c.deliver place).ends side).entropy = (c.ends side).entropy.skip n := by
  unfold deliver
  split
  · exact ⟨0, rfl⟩
  split
  · exact ⟨0, rfl⟩
  · rename_i sent _
    by_cases same : side = sent.sender.other
    · subst same
      simp only [Function.update_self]
      exact c.accept_skips sent
    · simp only [Function.update_of_ne same]
      exact ⟨0, rfl⟩

theorem step_skips (c : Conversation) (event : Event) (side : Side) :
    ∃ n, ((c.step event).ends side).entropy = (c.ends side).entropy.skip n := by
  cases event with
  | send sender plaintext => exact ⟨0, c.send_entropy sender side plaintext⟩
  | deliver place => exact c.deliver_skips place side

theorem run_skips (c : Conversation) (events : List Event) (side : Side) :
    ∃ n, ((c.run events).ends side).entropy = (c.ends side).entropy.skip n := by
  induction events generalizing c with
  | nil => exact ⟨0, rfl⟩
  | cons event rest ih =>
    obtain ⟨m, now⟩ := c.step_skips event side
    obtain ⟨n, later⟩ := ih (c.step event)
    exact ⟨m + n, later.trans (by rw [now, Entropy.skip_skip])⟩

theorem deliver_sent (c : Conversation) (place : Nat) : (c.deliver place).sent = c.sent := by
  unfold deliver
  split
  · rfl
  · split <;> rfl

theorem step_sent (c : Conversation) (event : Event) : c.sent <+: (c.step event).sent := by
  cases event with
  | send side plaintext => exact List.prefix_append _ _
  | deliver place =>
    have same : (c.step (.deliver place)).sent = c.sent := c.deliver_sent place
    exact same ▸ List.prefix_rfl

theorem run_sent (c : Conversation) (events : List Event) : c.sent <+: (c.run events).sent := by
  induction events generalizing c with
  | nil => exact List.prefix_rfl
  | cons event rest ih => exact (c.step_sent event).trans (ih (c.step event))

end Conversation

end DoubleRatchet
