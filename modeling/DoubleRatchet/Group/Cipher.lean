import DoubleRatchet.Cipher.Cbc
import DoubleRatchet.Message.Group
import DoubleRatchet.Store.Call

/-!
Messages to groups over the stores: a sender distributes its chain and sends on it, and the members read on the
chains they were given.
-/
namespace DoubleRatchet.Group

variable {m : Type → Type} [Monad m] [Host m]

/-- The record of a name, or an empty one. -/
def existingOrEmpty (name : SenderKeyName) : m SenderKeyRecord := do
  return (← Host.call (.loadSenderKey name)).getD .empty

/-- Takes over the chain that a sender distributes. -/
def process (name : SenderKeyName) (message : KeyDistribution) : m Unit := do
  match FixedBytes.ofBytes? 32 message.chainKey with
  | none => throw (m := Act) (.badArgument s!"chain key must be 32 bytes, got {message.chainKey.length}")
  | some seed =>
    note .info s!"{name.display} distributed key {message.keyId} at iteration {message.iteration}"
    let record ← existingOrEmpty name
    let state := SenderKeyState.start message.keyId ⟨message.iteration, seed⟩ message.signingKey none
    Host.call (.storeSenderKey name (record.push state))

/-- A seed each of whose bytes is the lowest of a number of four. -/
def drawSeed : StateM Entropy (FixedBytes 32) := do
  let drawn ← Entropy.draw 128
  return ⟨(List.range 32).map fun i => drawn.bytes.getD (4 * i) 0, by simp⟩

def newState (name : SenderKeyName) : Act SenderKeyState := do
  let keyId := (← Entropy.drawWord) >>> 1
  note .info s!"new sender key {keyId} for {name.display}"
  let seed ← drawSeed
  let signing ← KeyPair.generate
  return .start keyId ⟨0, seed⟩ signing.publicKey (some signing.privateKey)

/-- The message that gives one's own chain to the members, from where it stands. -/
def distribution (record : SenderKeyRecord) : Except Fault KeyDistribution := do
  let state ← record.current
  let chain ← state.chainKey
  return .create Frame.currentVersion state.keyId chain.iteration chain.seed.bytes (← state.signingKey)

/-- The message that gives one's own chain to the members; the chain is begun if there is none. -/
def create (name : SenderKeyName) : m KeyDistribution := do
  let record ← existingOrEmpty name
  if record.isEmpty then
    let state ← newState name
    let record := SenderKeyRecord.empty.push state
    Host.call (.storeSenderKey name record)
    (distribution record : Act KeyDistribution)
  else
    (distribution record : Act KeyDistribution)

/-- The next message of a chain, and the chain after it. -/
def nextMessage (state : SenderKeyState) (plaintext : Bytes) : Act (GroupMessage × SenderKeyState) := do
  let chain ← state.chainKey
  let key := chain.messageKey
  match ← state.signingPrivateKey? with
  | none => throw .noSigningKey
  | some signingKey =>
    let ciphertext := Cipher.encrypt key.cipherKey key.iv plaintext
    let message ← GroupMessage.create Frame.currentVersion state.keyId key.iteration ciphertext signingKey
    return (message, state.withChainKey (← chain.next?))

def encrypt (name : SenderKeyName) (plaintext : Bytes) : m GroupMessage := do
  match ← Host.call (.loadSenderKey name) with
  | none => throw (m := Act) .noSenderKey
  | some record =>
    let state ← (record.current : Act SenderKeyState)
    let (message, state) ← nextMessage state plaintext
    Host.call (.storeSenderKey name (record.updateCurrent state))
    return message

/-- Reads a message with the chains of a record: the text, and the record after it. -/
def read (name : SenderKeyName) (record : SenderKeyRecord) (message : GroupMessage) :
    Act (Bytes × SenderKeyRecord) := do
  let (place, state) ← record.findNoting message.keyId
  if message.verify (← state.signingKey) then
    let (key, state) ← state.requestNoting name message.iteration
    match Cipher.decrypt? key.cipherKey key.iv message.ciphertext with
    | none => throw .badCiphertext
    | some plaintext => return (plaintext, record.update place state)
  else
    note .warn s!"{name.display}: signature check failed for key {message.keyId}"
    throw .badGroupSignature

def decrypt (name : SenderKeyName) (bytes : Bytes) : m Bytes := do
  let message ← (GroupMessage.parse bytes : Act GroupMessage)
  match ← Host.call (.loadSenderKey name) with
  | none => throw (m := Act) .noSenderKey
  | some record =>
    if record.isEmpty then throw (m := Act) .noSenderKey
    let (plaintext, record) ← read name record message
    Host.call (.storeSenderKey name record)
    return plaintext

end DoubleRatchet.Group
