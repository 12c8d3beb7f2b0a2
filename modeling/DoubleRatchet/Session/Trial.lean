import DoubleRatchet.Cipher.Cbc
import DoubleRatchet.Message.Ratchet
import DoubleRatchet.Session.Record

/-!
Decryption by trial: a message is tried on the current state of a record, then on the archived ones. A state that
fails is left as it was; the one that succeeds becomes current.
-/
namespace DoubleRatchet

/-- What comes of a message that a state can read. -/
structure Opened where
  state : SessionState
  plaintext : Bytes
  keys : MessageKeys

/-- Verifies a message from `sender` to `receiver` and deciphers it. -/
def RatchetMessage.open (message : RatchetMessage) (keys : MessageKeys) (sender receiver : PublicKey) : Act Bytes := do
  if message.verifyMac keys.macKey sender receiver then
    match Cipher.decrypt? keys.cipherKey keys.iv message.body with
    | some plaintext => return plaintext
    | none =>
      note .warn s!"authenticated message did not decrypt: {Fault.badCiphertext.message}"
      throw .badCiphertext
  else
    let computed := message.expectedMac keys.macKey sender receiver
    note .warn s!"MAC mismatch: received {message.mac.bytes.hex}, computed {computed.bytes.hex}"
    throw .badMac

/-- The keys of a message of a chain that stands at `key`, and a note if there are none. -/
def Chain.keysNoting (chain : Chain) (key : ChainKey) (peer : Address) (counter : UInt32) : Act MessageKeys :=
  match chain.keysFor key counter with
  | .ok keys => return keys
  | .error fault => do
    match fault with
    | .duplicate index counter => note .info s!"{peer.display} repeated message {counter}, chain is at {index}"
    | .tooFarAhead steps =>
      note .error s!"{peer.display} jumped {steps} messages ahead, more than {maxSkip}"
    | _ => pure ()
    throw fault

namespace SessionState

/-- The state with a chain for the message's ratchet key, which takes a step of the ratchet if it has none. -/
def reach (state : SessionState) (peer : Address) (message : RatchetMessage) : Act SessionState := do
  if state.sender.isNone then throw (.corruptSession "state has no sending chain")
  let version := message.version.toUInt32
  if version ≠ state.version then throw (.versionMismatch version)
  match ← state.receivingChainKey? message.ratchetKey with
  | some _ => return state
  | none =>
    note .info s!"{peer.display} moved to ratchet key {message.ratchetKey.hex}"
    let stepped ← state.stepRatchet message.ratchetKey
    if Window.isFull maxReceivingChains state.receivers then
      note .warn s!"dropped oldest receiving chain of session with ratchet key {state.ratchetKeyText}"
    return stepped

/-- Reads a message for whose ratchet key the state has a chain. -/
def openOnChain (state : SessionState) (peer : Address) (message : RatchetMessage) : Act Opened := do
  match state.receivingChain? message.ratchetKey with
  | none => throw (.corruptSession "no receiving chain for ratchet key")
  | some chain =>
    let key ← chain.key
    let keys ← chain.keysNoting key peer message.counter
    let sender ← state.remoteIdentityKey
    let plaintext ← message.open keys sender (← state.localIdentityKey)
    let served := state.updateReceivingChain message.ratchetKey (·.served key message.counter)
    return { state := served.acknowledge, plaintext, keys }

/-- Tries a message on a state: how far the state came, and what came of it. -/
def attempt (state : SessionState) (peer : Address) (message : RatchetMessage) :
    Act (SessionState × Except Fault Opened) := do
  match ← observe (state.reach peer message) with
  | .error fault => return (state, .error fault)
  | .ok reached => return (reached, ← observe (reached.openOnChain peer message))

/-- Notes that a state, as far as it came, could not read a message. -/
def noteFailure (reached : SessionState) (peer : Address) (message : RatchetMessage) (fault : Fault) : Act Unit :=
  let ratchetKey := reached.ratchetKeyText
  note .warn <|
    s!"state with ratchet key {ratchetKey} could not decrypt message {message.counter} on ratchet key " ++
    s!"{message.ratchetKey.hex} from {peer.display}: {fault.message}"

/-- Tries a message on a list of states, the first of which has number `index`: the number of the first that can
read it, or else the fault of the first of all. -/
def tryAll (peer : Address) (message : RatchetMessage) :
    (index : Nat) → List SessionState → Act (Except (Option Fault) (Nat × Opened))
  | _, [] => return .error none
  | index, state :: rest => do
    match ← state.attempt peer message with
    | (_, .ok opened) => return .ok (index, opened)
    | (reached, .error fault) =>
      noteFailure reached peer message fault
      match ← tryAll peer message (index + 1) rest with
      | .ok found => return .ok found
      | .error _ => return .error (some fault)

end SessionState

namespace SessionRecord

/-- Tries a message on the archived states and restores the one that can read it. If none can, the fault is that of
the current state, or else of the newest archived one. -/
def decryptArchived (record : SessionRecord) (peer : Address) (message : RatchetMessage)
    (currentFault : Option Fault) : Act (SessionRecord × Opened) := do
  match ← SessionState.tryAll peer message 0 record.archived with
  | .ok (index, opened) =>
    note .info s!"archived state {index} decrypted message from {peer.display}, restoring it"
    SessionRecord.noteArchiving { record with archived := record.archived.eraseIdx index }
    return (record.restore index opened.state, opened)
  | .error archivedFault =>
    let count := record.archived.length
    note .error <|
      s!"no state could decrypt message from {peer.display} ({count} archived)\n" ++ record.describe
    throw ((currentFault <|> archivedFault).getD (.noSession peer))

/-- Decrypts a message with the first state that can read it. A message that the current state knows it has read is
not tried on others. -/
def decrypt (record : SessionRecord) (peer : Address) (message : RatchetMessage) :
    Act (SessionRecord × Opened) := do
  match record.current with
  | none => record.decryptArchived peer message none
  | some state =>
    match ← state.attempt peer message with
    | (_, .ok opened) => return ({ record with current := some opened.state }, opened)
    | (_, .error (.duplicate index counter)) => throw (.duplicate index counter)
    | (reached, .error fault) =>
      SessionState.noteFailure reached peer message fault
      record.decryptArchived peer message (some fault)

end SessionRecord

end DoubleRatchet
