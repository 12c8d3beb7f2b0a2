import DoubleRatchet.Group.Cipher
import DoubleRatchet.Proofs.Computation
import DoubleRatchet.Proofs.StoredKeys

/-! The operations on groups as functions of a device's stores and randomness. Each yields what its function says. -/
namespace DoubleRatchet

open DoubleRatchet.Group

/-! ## Chains and records -/

namespace Group

/-- A chain that is begun with what is drawn from `e`: its number, its first seed and its signing key. -/
def SenderKeyState.fresh (e : Entropy) : SenderKeyState × Entropy :=
  let (word, e) := Entropy.drawWord e
  let (seed, e) := drawSeed e
  let (signing, e) := KeyPair.generate e
  (.start (word >>> 1) ⟨0, seed⟩ signing.publicKey (some signing.privateKey), e)

/-- The chain is the device's own: what its messages are verified with belongs to the private key that it keeps. -/
structure SenderKeyState.OwnedBy (state : SenderKeyState) (key : PrivateKey) : Prop where
  privateKey : state.signingPrivateKey? = .ok (some key)
  publicKey : state.signingKey = .ok key.publicKey

/-- What a chain sends with: the seed it stands at and the private half of its signing key. -/
def SenderKeyState.sendingKeys (state : SenderKeyState) : Except Fault (ChainKey × PrivateKey) := do
  let chain ← state.chainKey
  match ← state.signingPrivateKey? with
  | none => .error .noSigningKey
  | some signingKey => return (chain, signingKey)

/-- The next message of a chain and the chain after it, and the randomness that is left: a message is signed before it
is known whether the chain can pass it. -/
def SenderKeyState.send (state : SenderKeyState) (plaintext : Bytes) (e : Entropy) :
    Except Fault (GroupMessage × SenderKeyState) × Entropy :=
  match state.sendingKeys with
  | .error fault => (.error fault, e)
  | .ok (chain, signingKey) =>
    let key := chain.messageKey
    let (message, e) := GroupMessage.create Frame.currentVersion state.keyId key.iteration
      (Cipher.encrypt key.cipherKey key.iv plaintext) signingKey e
    (chain.next?.map fun next => (message, state.withChainKey next), e)

theorem SenderKeyState.request_eq_ok {state left : SenderKeyState} {n : UInt32} {key : MessageKey} :
    state.request n = .ok (key, left) ↔
      ∃ chain, state.chainKey = .ok chain ∧ state.keyFor chain n = .ok key ∧ left = state.asked chain n := by
  unfold request ask
  cases state.chainKey with
  | error fault => simp [Except.map]
  | ok chain => cases served : state.keyFor chain n <;> simp [Except.map, served, eq_comm]

/-- What a message says, and the chain after it. -/
def SenderKeyState.read (state : SenderKeyState) (message : GroupMessage) : Except Fault (Bytes × SenderKeyState) := do
  if message.verify (← state.signingKey) then
    let (key, served) ← state.request message.iteration
    match Cipher.decrypt? key.cipherKey key.iv message.ciphertext with
    | none => .error .badCiphertext
    | some plaintext => return (plaintext, served)
  else .error .badGroupSignature

/-- What a message says by the first chain with its number, and the record after it. -/
def SenderKeyRecord.read (record : SenderKeyRecord) (message : GroupMessage) :
    Except Fault (Bytes × SenderKeyRecord) := do
  let (place, state) ← (record.find? message.keyId).elim (.error .noSenderKey) .ok
  let (plaintext, state) ← state.read message
  return (plaintext, record.update place state)

theorem SenderKeyRecord.read_of_isEmpty (record : SenderKeyRecord) (isEmpty : record.isEmpty) (message : GroupMessage) :
    record.read message = .error .noSenderKey := by
  obtain ⟨states⟩ := record
  cases states with
  | nil => rfl
  | cons state rest => cases isEmpty

/-- The chain that a sender distributes, as a member begins it. -/
def distributed (message : KeyDistribution) : Except Fault SenderKeyState :=
  match FixedBytes.ofBytes? 32 message.chainKey with
  | none => .error (.badArgument s!"chain key must be 32 bytes, got {message.chainKey.length}")
  | some seed => .ok (.start message.keyId ⟨message.iteration, seed⟩ message.signingKey none)

/-- A chain that has just been begun can be distributed. -/
theorem distribution_start (keyId : UInt32) (chain : ChainKey) (signingKey : PublicKey) (signingPrivateKey : Option PrivateKey) :
    distribution (SenderKeyRecord.empty.push (.start keyId chain signingKey signingPrivateKey)) =
      .ok (.create Frame.currentVersion keyId chain.iteration chain.seed.bytes signingKey) := by
  simp [distribution, SenderKeyRecord.current, SenderKeyRecord.push, SenderKeyRecord.empty, maxStates, SenderKeyState.start,
    SenderKeyState.chainKey, SenderKeyState.signingKey, StoredSeed.ofChainKey, StoredSeed.seed32,
    PublicKey.deserialize_serialize, bind, Except.bind, pure, Except.pure]

/-- A chain that a device has begun is its own. -/
theorem SenderKeyState.ownedBy_start (keyId : UInt32) (chain : ChainKey) (key : PrivateKey) :
    (start keyId chain key.publicKey (some key)).OwnedBy key where
  privateKey := by
    simp [signingPrivateKey?, start, PrivateKey.deserialize_serialize, bind, Except.bind, pure, Except.pure]
  publicKey := by
    simp [signingKey, start]

theorem distributed_keyId {message : KeyDistribution} {state : SenderKeyState} (begun : distributed message = .ok state) :
    state.keyId = message.keyId := by
  unfold distributed at begun
  split at begun
  · cases begun
  · cases begun
    rfl

end Group

/-! ## Stores -/

namespace Stores

/-- The record of a name, or an empty one. -/
def senderKey (stores : Stores) (name : SenderKeyName) : SenderKeyRecord := stores.senderKeys[name]?.getD .empty

def withSenderKey (stores : Stores) (name : SenderKeyName) (record : SenderKeyRecord) : Stores :=
  { stores with senderKeys := stores.senderKeys.insert name record }

@[simp] theorem senderKey_withSenderKey (stores : Stores) (name : SenderKeyName) (record : SenderKeyRecord) :
    (stores.withSenderKey name record).senderKey name = record := by
  simp [senderKey, withSenderKey]

def process (stores : Stores) (name : SenderKeyName) (message : KeyDistribution) : Except Fault Stores := do
  return stores.withSenderKey name ((stores.senderKey name).push (← distributed message))

/-- The message that gives one's own chain to the members, the stores after it and the randomness that is left. -/
def create (stores : Stores) (name : SenderKeyName) (e : Entropy) : Except Fault KeyDistribution × Stores × Entropy :=
  if (stores.senderKey name).isEmpty then
    let (state, e) := SenderKeyState.fresh e
    (distribution (.push .empty state), stores.withSenderKey name (.push .empty state), e)
  else (distribution (stores.senderKey name), stores, e)

/-- What a sender has given to its members is the chain that it sends on. -/
theorem distribution_of_create {stores stores' : Stores} {name : SenderKeyName} {result : Except Fault KeyDistribution}
    {e e' : Entropy} (created : stores.create name e = (result, stores', e')) :
    distribution (stores'.senderKey name) = result := by
  unfold Stores.create at created
  split at created
  · obtain ⟨made, left⟩ := Prod.mk.inj created
    have stores_eq : stores.withSenderKey name _ = stores' := congrArg Prod.fst left
    rw [← stores_eq, senderKey_withSenderKey]
    exact made
  · obtain ⟨made, left⟩ := Prod.mk.inj created
    have stores_eq : stores = stores' := congrArg Prod.fst left
    exact stores_eq ▸ made

/-- A sender without a chain begins one, and gives it from its first message on. -/
theorem create_of_empty {stores : Stores} {name : SenderKeyName} (empty : (stores.senderKey name).isEmpty) (e : Entropy) :
    ∃ d state key e', stores.create name e = (.ok d, stores.withSenderKey name (.push .empty state), e') ∧
      d.iteration = 0 ∧ state.OwnedBy key := by
  obtain ⟨keyId, seed, key, e', begun⟩ : ∃ keyId seed, ∃ key : PrivateKey, ∃ e',
      SenderKeyState.fresh e = (.start keyId ⟨0, seed⟩ key.publicKey (some key), e') :=
    ⟨_, _, _, _, rfl⟩
  have own := SenderKeyState.ownedBy_start keyId ⟨0, seed⟩ key
  refine ⟨.create Frame.currentVersion keyId 0 seed.bytes key.publicKey, _, _, e', ?_, rfl, own⟩
  rw [Stores.create, if_pos empty, begun]
  exact Prod.ext (distribution_start keyId ⟨0, seed⟩ key.publicKey (some key)) rfl

/-- The next message to a group, the stores after it and the randomness that is left. -/
def broadcast (stores : Stores) (name : SenderKeyName) (plaintext : Bytes) (e : Entropy) :
    Except Fault GroupMessage × Stores × Entropy :=
  match (stores.senderKey name).current with
  | .error fault => (.error fault, stores, e)
  | .ok state =>
    match state.send plaintext e with
    | (.error fault, e) => (.error fault, stores, e)
    | (.ok (message, state), e) =>
      (.ok message, stores.withSenderKey name ((stores.senderKey name).updateCurrent state), e)

/-- What a message to a group says, and the stores after it. -/
def receive (stores : Stores) (name : SenderKeyName) (bytes : Bytes) : Except Fault (Bytes × Stores) := do
  let message ← GroupMessage.parse bytes
  let (plaintext, record) ← (stores.senderKey name).read message
  return (plaintext, stores.withSenderKey name record)

end Stores

namespace Act

theorem draw_yields {A : Type} (draw : StateM Entropy A) (e : Entropy) :
    Act.Yields (liftM draw : Act A) e (.ok (draw e).1) (draw e).2 := by
  rintro ambient rfl
  exact ⟨_, rfl, rfl⟩

end Act

namespace Group

variable (stores : Stores) (name : SenderKeyName) (e : Entropy)

theorem lift_yields {A : Type} (result : Except Fault A) :
    OnDevice.Yields (liftM (liftM result : Act A) : OnDevice A) (stores, e) result (stores, e) :=
  OnDevice.act_yields _ (.lift _ _)

theorem existingOrEmpty_yields :
    OnDevice.Yields (existingOrEmpty name) (stores, e) (.ok (stores.senderKey name)) (stores, e) :=
  .bind (OnDevice.call_yields _ _ _) (.pure _ _)

theorem storeSenderKey_yields (record : SenderKeyRecord) :
    OnDevice.Yields (Host.call (.storeSenderKey name record)) (stores, e) (.ok ())
      (stores.withSenderKey name record, e) :=
  OnDevice.call_yields _ _ _

theorem process_commits (message : KeyDistribution) :
    Commits Device.contents (process name message) (stores, e) (stores, e) (stores.process name message) (fun _ => ())
      fun stores => (stores, e) := by
  unfold process Stores.process distributed
  cases FixedBytes.ofBytes? 32 message.chainKey with
  | none => exact OnDevice.act_yields _ (.throw _ _)
  | some seed =>
    refine Yields.bind (OnDevice.act_yields _ (Act.note_yields _ _ _)) ?_
    exact Yields.bind (existingOrEmpty_yields stores name e) (storeSenderKey_yields stores name e _)

theorem newState_yields :
    Act.Yields (newState name) e (.ok (SenderKeyState.fresh e).1) (SenderKeyState.fresh e).2 := by
  refine .bind (Act.draw_yields _ _) ?_
  refine .bind (Act.note_yields _ _ _) ?_
  exact .bind (Act.draw_yields _ _) (.bind (Act.draw_yields _ _) (.pure _ _))

theorem create_yields :
    OnDevice.Yields (create name) (stores, e) (stores.create name e).1 (stores.create name e).2 := by
  unfold create Stores.create
  refine .bind (existingOrEmpty_yields stores name e) ?_
  split
  · refine .bind (OnDevice.act_yields _ (newState_yields name e)) ?_
    exact .bind (storeSenderKey_yields _ _ _ _) (lift_yields _ _ _)
  · exact lift_yields _ _ _

theorem nextMessage_yields (state : SenderKeyState) (plaintext : Bytes) :
    Act.Yields (nextMessage state plaintext) e (state.send plaintext e).1 (state.send plaintext e).2 := by
  unfold nextMessage SenderKeyState.send SenderKeyState.sendingKeys
  cases state.chainKey with
  | error fault => exact .bind_error (.lift _ _)
  | ok chain =>
    refine .bind (.lift _ _) ?_
    cases state.signingPrivateKey? with
    | error fault => exact .bind_error (.lift _ _)
    | ok key =>
      refine .bind (.lift _ _) ?_
      cases key with
      | none => exact .throw _ _
      | some key =>
        refine .bind (Act.draw_yields _ _) ?_
        dsimp only [bind, Except.bind, pure, Except.pure]
        cases chain.next? with
        | error fault => exact .bind_error (.lift _ _)
        | ok next => exact .bind (.lift _ _) (.pure _ _)

theorem encrypt_yields (plaintext : Bytes) :
    OnDevice.Yields (encrypt name plaintext) (stores, e) (stores.broadcast name plaintext e).1
      (stores.broadcast name plaintext e).2 := by
  unfold encrypt Stores.broadcast Stores.senderKey
  refine .bind (OnDevice.call_yields _ _ _) ?_
  dsimp only [Stores.answer]
  cases stores.senderKeys[name]? with
  | none => exact OnDevice.act_yields _ (.throw _ _)
  | some record =>
    dsimp only [Option.getD]
    cases record.current with
    | error fault => exact .bind_error (lift_yields _ _ _)
    | ok state =>
      refine .bind (lift_yields _ _ _) ?_
      have made := OnDevice.act_yields stores (nextMessage_yields e state plaintext)
      dsimp only
      rcases sent : state.send plaintext e with ⟨fault | ⟨message, state'⟩, e'⟩
      · rw [sent] at made
        exact .bind_error made
      · rw [sent] at made
        exact .bind made (.bind (storeSenderKey_yields _ _ _ _) (.pure _ _))

theorem findNoting_yields (record : SenderKeyRecord) (keyId : UInt32) :
    Act.Yields (record.findNoting keyId) e ((record.find? keyId).elim (.error .noSenderKey) .ok) e := by
  unfold SenderKeyRecord.findNoting
  cases record.find? keyId with
  | none => exact .bind (Act.note_yields _ _ _) (.throw _ _)
  | some found => exact .pure _ _

theorem requestNoting_yields (state : SenderKeyState) (iteration : UInt32) :
    Act.Yields (state.requestNoting name iteration) e (state.request iteration) e := by
  unfold SenderKeyState.requestNoting
  cases state.request iteration with
  | ok served => exact .pure _ _
  | error fault =>
    cases fault with
    | duplicate _ _ => exact .bind (Act.note_yields _ _ _) (.throw _ _)
    | tooFarAhead _ => exact .bind (Act.note_yields _ _ _) (.throw _ _)
    | _ => exact .bind (.pure _ _) (.throw _ _)

theorem read_yields (record : SenderKeyRecord) (message : GroupMessage) :
    Act.Yields (read name record message) e (record.read message) e := by
  unfold read SenderKeyRecord.read SenderKeyState.read
  refine .bind_same (findNoting_yields e record message.keyId) fun found => ?_
  obtain ⟨place, state⟩ := found
  simp only [bind_assoc]
  refine .bind_same (.lift _ _) fun signingKey => ?_
  split
  · simp only [bind_assoc]
    refine .bind_same (requestNoting_yields name e state message.iteration) fun served => ?_
    cases Cipher.decrypt? served.1.cipherKey served.1.iv message.ciphertext with
    | none => exact .throw _ _
    | some plaintext => exact .pure _ _
  · exact .bind (Act.note_yields _ _ _) (.throw _ _)

theorem decrypt_commits (bytes : Bytes) :
    Commits Device.contents (decrypt name bytes) (stores, e) (stores, e) (stores.receive name bytes) (·.1)
      fun done => (done.2, e) := by
  unfold decrypt Stores.receive
  refine .bind (lift_yields stores e _) fun message => ?_
  have loaded := OnDevice.call_yields stores e (.loadSenderKey name)
  unfold Stores.senderKey
  dsimp only [Stores.answer] at loaded
  cases found : stores.senderKeys[name]? with
  | none =>
    rw [found] at loaded
    exact Yields.bind loaded (OnDevice.act_yields _ (.throw _ _))
  | some record =>
    rw [found] at loaded
    have done := OnDevice.act_yields stores (read_yields name e record message)
    refine .bind_ok loaded ?_
    dsimp only [Option.getD]
    split
    · rename_i isEmpty
      rw [record.read_of_isEmpty isEmpty message]
      exact .bind_error (OnDevice.act_yields _ (.throw _ _))
    · exact .bind done fun _ => Yields.bind (storeSenderKey_yields _ _ _ _) (Yields.pure _ _)

/-! ## Runs on a device -/

variable {name} {device device' : Device}

theorem create_run {result : Except Fault KeyDistribution}
    (run : (create name : OnDevice KeyDistribution) device = (result, device')) :
    device.stores.create name device.ambient.entropy = (result, device'.stores, device'.ambient.entropy) := by
  obtain ⟨result_eq, left⟩ := (create_yields device.stores name device.ambient.entropy).of_run run
  exact Prod.ext result_eq.symm left.symm

theorem encrypt_run {plaintext : Bytes} {result : Except Fault GroupMessage}
    (run : (encrypt name plaintext : OnDevice GroupMessage) device = (result, device')) :
    device.stores.broadcast name plaintext device.ambient.entropy = (result, device'.stores, device'.ambient.entropy) := by
  obtain ⟨result_eq, left⟩ := (encrypt_yields device.stores name device.ambient.entropy plaintext).of_run run
  exact Prod.ext result_eq.symm left.symm

theorem process_run {message : KeyDistribution} {result : Except Fault Unit}
    (run : (process name message : OnDevice Unit) device = (result, device')) :
    (∃ stores, device.stores.process name message = .ok stores ∧ result = .ok () ∧ device'.stores = stores) ∨
    ∃ fault, device.stores.process name message = .error fault ∧ result = .error fault ∧ device'.stores = device.stores := by
  have commits := process_commits device.stores name device.ambient.entropy message
  cases processed : device.stores.process name message with
  | ok stores =>
    rw [processed] at commits
    obtain ⟨result_eq, left⟩ := Yields.of_run commits run
    exact .inl ⟨stores, rfl, result_eq, congrArg Prod.fst left⟩
  | error fault =>
    rw [processed] at commits
    obtain ⟨result_eq, left⟩ := Yields.of_run commits run
    exact .inr ⟨fault, rfl, result_eq, congrArg Prod.fst left⟩

theorem decrypt_run {bytes : Bytes} {result : Except Fault Bytes}
    (run : (decrypt name bytes : OnDevice Bytes) device = (result, device')) :
    (∃ plaintext stores, device.stores.receive name bytes = .ok (plaintext, stores) ∧ result = .ok plaintext ∧
      device'.stores = stores) ∨
    ∃ fault, device.stores.receive name bytes = .error fault ∧ result = .error fault ∧ device'.stores = device.stores := by
  have commits := decrypt_commits device.stores name device.ambient.entropy bytes
  cases received : device.stores.receive name bytes with
  | ok done =>
    rw [received] at commits
    obtain ⟨result_eq, left⟩ := Yields.of_run commits run
    exact .inl ⟨done.1, done.2, rfl, result_eq, congrArg Prod.fst left⟩
  | error fault =>
    rw [received] at commits
    obtain ⟨result_eq, left⟩ := Yields.of_run commits run
    exact .inr ⟨fault, rfl, result_eq, congrArg Prod.fst left⟩

end Group

end DoubleRatchet
