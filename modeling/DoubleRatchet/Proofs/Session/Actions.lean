import DoubleRatchet.Proofs.Handshakes
import DoubleRatchet.Proofs.Session.Turns

/-! All that the library does for sessions: to serve a request, or to answer a handshake on a record that the application
holds. An action works on any host; on a device its outcome depends on the stores and the randomness alone. -/
namespace DoubleRatchet

open Session

/-- What the library does for a session: it serves a request, or answers the handshake of a message on a record. -/
inductive Action where
  | ask (request : Request)
  | accept (peer : Address) (record : SessionRecord) (message : PreKeyMessage)

/-- What comes of an action when all goes well. -/
inductive Outcome where
  | replied (reply : Reply)
  | accepted (record : SessionRecord) (used : Except Fault (Option UInt32))

section

variable {m : Type → Type} [Monad m] [Host m] [MonadExceptOf Fault m]

def Request.perform : Request → m Reply
  | acceptBundle peer bundle => do
    Session.acceptBundle peer bundle
    return .accepted
  | encrypt peer plaintext => return .sent (← Session.encrypt peer plaintext)
  | decryptRatchet peer message => do
    let (plaintext, keys) ← Session.decryptRatchet peer message
    return .read plaintext keys
  | decryptPreKey peer message => do
    let (plaintext, keys) ← Session.decryptPreKey peer message
    return .read plaintext keys

def Action.perform : Action → m Outcome
  | ask request => return .replied (← request.perform)
  | accept peer record message => do
    let (record, used) ← acceptMessage peer record message
    return .accepted record used

end

theorem Request.perform_eq_ask (request : Request) : (request.perform : OnDevice Reply) = request.ask := by
  cases request <;> rfl

namespace Action

/-- The peer whose session an action is for. -/
def peer : Action → Address
  | ask request => request.peer
  | accept peer _ _ => peer

/-- The number of the one-time key that the message of an action names, if there is one. -/
def names? : Action → Option UInt32
  | ask (.decryptPreKey _ message) => message.preKeyId
  | accept _ _ message => message.preKeyId
  | _ => none

end Action

/-- What comes of an action, the stores after it and the randomness that is left. -/
def Stores.perform (stores : Stores) (e : Entropy) : Action → Except Fault Outcome × Stores × Entropy
  | .ask request => ((stores.serve e request).1.map .replied, (stores.serve e request).2)
  | .accept peer record message =>
    let ((record, used), stores) := stores.accept peer record message
    (.ok (.accepted record used), stores, e)

theorem Action.perform_yields (action : Action) (stores : Stores) (e : Entropy) :
    OnDevice.Yields action.perform (stores, e) (stores.perform e action).1 (stores.perform e action).2 := by
  cases action with
  | ask request =>
    have yields := request.ask_yields stores e
    simp only [Action.perform, Request.perform_eq_ask, Stores.perform]
    cases served : (stores.serve e request).1 with
    | error fault =>
      rw [served] at yields
      exact .bind_error yields
    | ok reply =>
      rw [served] at yields
      exact .bind yields (.pure _ _)
  | accept peer record message => exact .bind (accept_yields stores e peer record message) (.pure _ _)

namespace Action

theorem perform_run (action : Action) (device : Device) :
    ((action.perform : OnDevice Outcome) device).1 = (device.stores.perform device.ambient.entropy action).1 ∧
      ((action.perform : OnDevice Outcome) device).2.contents = (device.stores.perform device.ambient.entropy action).2 :=
  (action.perform_yields device.stores device.ambient.entropy).of_run rfl

theorem perform_decryptPreKey {device device' : Device} {peer : Address} {message : PreKeyMessage} {plaintext : Bytes}
    {keys : MessageKeys}
    (run : (decryptPreKey peer message : OnDevice (Bytes × MessageKeys)) device = (.ok (plaintext, keys), device')) :
    ((ask (.decryptPreKey peer message)).perform : OnDevice Outcome) device =
      (.ok (.replied (.read plaintext keys)), device') := by
  simp only [perform, Request.perform, bind_apply, run]
  rfl

variable (action : Action) (stores : Stores) (ambient : Ambient)

theorem perform_outcome :
    ((action.perform : OnDevice Outcome) ⟨stores, ambient⟩).1 = (stores.perform ambient.entropy action).1 :=
  (action.perform_run ⟨stores, ambient⟩).1

theorem perform_stores :
    ((action.perform : OnDevice Outcome) ⟨stores, ambient⟩).2.stores = (stores.perform ambient.entropy action).2.1 :=
  congrArg Prod.fst (action.perform_run ⟨stores, ambient⟩).2

end Action

end DoubleRatchet
