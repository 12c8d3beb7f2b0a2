import DoubleRatchet.Proofs.Computation
import DoubleRatchet.Session.Trial

/-! Decryption as a function. Whether a state can read a message depends on the state and the message alone; the
key pair that is drawn on the way decides only what the state sends under afterwards. The trial over a record draws
at most one key pair for each state it tries. -/
namespace DoubleRatchet

def RatchetMessage.decipher (message : RatchetMessage) (keys : MessageKeys) (sender receiver : PublicKey) :
    Except Fault Bytes :=
  if message.verifyMac keys.macKey sender receiver then
    match Cipher.decrypt? keys.cipherKey keys.iv message.body with
    | some plaintext => .ok plaintext
    | none => .error .badCiphertext
  else .error .badMac

theorem RatchetMessage.open_yields (message : RatchetMessage) (keys : MessageKeys) (sender receiver : PublicKey)
    (e : Entropy) : Act.Yields (message.open keys sender receiver) e (message.decipher keys sender receiver) e := by
  unfold RatchetMessage.open RatchetMessage.decipher
  split
  · cases Cipher.decrypt? keys.cipherKey keys.iv message.body with
    | some plaintext => exact .pure _ _
    | none => exact .bind (Act.note_yields _ _ _) (.throw _ _)
  · exact .bind (Act.note_yields _ _ _) (.throw _ _)

theorem Chain.keysNoting_yields (chain : Chain) (key : ChainKey) (peer : Address) (counter : UInt32) (e : Entropy) :
    Act.Yields (chain.keysNoting key peer counter) e (chain.keysFor key counter) e := by
  unfold Chain.keysNoting
  cases chain.keysFor key counter with
  | ok keys => exact .pure _ _
  | error fault =>
    dsimp only
    split
    · exact .bind (Act.note_yields _ _ _) (.throw _ _)
    · exact .bind (Act.note_yields _ _ _) (.throw _ _)
    · exact .throw _ _

namespace SessionState

/-- What a step of the ratchet for a message starts from; nothing if the state has a chain for the message. -/
def stepBase (state : SessionState) (message : RatchetMessage) : Except Fault (Option (PrivateKey × RootKey)) :=
  if state.sender.isNone then .error (.corruptSession "state has no sending chain")
  else if message.version.toUInt32 ≠ state.version then .error (.versionMismatch message.version.toUInt32)
  else
    match state.receivingChainKey? message.ratchetKey with
    | .error fault => .error fault
    | .ok (some _) => .ok none
    | .ok none => state.ratchetBase.map some

/-- The state with a chain for the message, if need be by a step of the ratchet to `fresh`. -/
def reached (state : SessionState) (message : RatchetMessage) (fresh : KeyPair) : Except Fault SessionState := do
  match ← state.stepBase message with
  | none => return state
  | some (ours, root) => state.ratchet ours root message.ratchetKey fresh

def draws (state : SessionState) (message : RatchetMessage) : Nat :=
  match state.stepBase message with
  | .ok (some _) => 1
  | _ => 0

theorem stepRatchet_yields (state : SessionState) (peer : PublicKey) (e : Entropy) {ours : PrivateKey} {root : RootKey}
    (base : state.ratchetBase = .ok (ours, root)) :
    Act.Yields (state.stepRatchet peer) e (state.ratchet ours root peer (e.pair 0)) (e.skip 1) := by
  unfold stepRatchet
  rw [base]
  exact .bind (.lift _ _) (.bind (Act.generate_yields _) (.lift _ _))

theorem stepRatchet_yields_error (state : SessionState) (peer : PublicKey) (e : Entropy) {fault : Fault}
    (base : state.ratchetBase = .error fault) :
    Act.Yields (state.stepRatchet peer) e (.error fault) e := by
  unfold stepRatchet
  rw [base]
  exact .bind_error (.lift _ _)

theorem reach_yields (state : SessionState) (peer : Address) (message : RatchetMessage) (e : Entropy) :
    Act.Yields (state.reach peer message) e (state.reached message (e.pair 0)) (e.skip (state.draws message)) := by
  unfold reach reached draws stepBase
  by_cases missing : state.sender.isNone
  · simp only [missing, if_true]
    exact .bind_error (.throw _ _)
  by_cases mismatch : message.version.toUInt32 ≠ state.version
  · simp only [missing, mismatch, Bool.false_eq_true, ne_eq, not_false_eq_true, if_true, if_false]
    exact .bind_error (.throw _ _)
  simp only [missing, mismatch, Bool.false_eq_true, if_false]
  cases state.receivingChainKey? message.ratchetKey with
  | error fault => exact .bind_error (.lift _ _)
  | ok chain =>
    refine .bind (.lift _ _) ?_
    cases chain with
    | some _ => exact .pure _ _
    | none =>
      refine .bind (Act.note_yields _ _ _) ?_
      cases base : state.ratchetBase with
      | error fault => exact .bind_error (state.stepRatchet_yields_error _ _ base)
      | ok found =>
        obtain ⟨ours, root⟩ := found
        have step := state.stepRatchet_yields message.ratchetKey e base
        dsimp only [Except.map, bind, Except.bind]
        cases result : state.ratchet ours root message.ratchetKey (e.pair 0) with
        | error fault => exact .bind_error (result ▸ step)
        | ok stepped =>
          refine .bind (result ▸ step) ?_
          split
          · exact .bind (Act.note_yields _ _ _) (.pure _ _)
          · exact .pure _ _
/-- Reads a message for whose ratchet key the state has a chain. -/
def readOnChain (state : SessionState) (message : RatchetMessage) : Except Fault Opened :=
  match state.receivingChain? message.ratchetKey with
  | none => .error (.corruptSession "no receiving chain for ratchet key")
  | some chain => do
    let key ← chain.key
    let keys ← chain.keysFor key message.counter
    let sender ← state.remoteIdentityKey
    let plaintext ← message.decipher keys sender (← state.localIdentityKey)
    let served := state.updateReceivingChain message.ratchetKey (·.served key message.counter)
    return { state := served.acknowledge, plaintext, keys }

/-- Reads a message, if need be after a step of the ratchet to `fresh`. -/
def read (state : SessionState) (message : RatchetMessage) (fresh : KeyPair) : Except Fault Opened := do
  (← state.reached message fresh).readOnChain message

theorem openOnChain_yields (state : SessionState) (peer : Address) (message : RatchetMessage) (e : Entropy) :
    Act.Yields (state.openOnChain peer message) e (state.readOnChain message) e := by
  unfold openOnChain readOnChain
  cases state.receivingChain? message.ratchetKey with
  | none => exact .throw _ _
  | some chain =>
    exact .bind_same (.lift _ _) fun key => .bind_same (chain.keysNoting_yields key peer _ e) fun keys =>
      .bind_same (.lift _ _) fun sender => .bind_same (.lift _ _) fun receiver =>
      .bind_same (message.open_yields keys sender receiver e) fun plaintext => .pure _ _

theorem attempt_yields (state : SessionState) (peer : Address) (message : RatchetMessage) (e : Entropy) :
    ∃ reached, Act.Yields (state.attempt peer message) e (.ok (reached, state.read message (e.pair 0)))
      (e.skip (state.draws message)) := by
  have reach := state.reach_yields peer message e
  unfold attempt read
  cases result : state.reached message (e.pair 0) with
  | error fault => exact ⟨state, .bind (.observe (result ▸ reach)) (.pure _ _)⟩
  | ok reached =>
    refine ⟨reached, .bind (.observe (result ▸ reach)) ?_⟩
    exact .bind (.observe (reached.openOnChain_yields peer message _)) (.pure _ _)

theorem noteFailure_yields (reached : SessionState) (peer : Address) (message : RatchetMessage) (fault : Fault)
    (e : Entropy) : Act.Yields (reached.noteFailure peer message fault) e (.ok ()) e :=
  Act.note_yields _ _ _

/-- The first of a list of states that can read a message, counted from `index`, or else the fault of the first of
all; and the randomness that is left. -/
def readFirst (message : RatchetMessage) :
    (index : Nat) → List SessionState → Entropy → Except (Option Fault) (Nat × Opened) × Entropy
  | _, [], e => (.error none, e)
  | index, state :: rest, e =>
    match state.read message (e.pair 0) with
    | .ok opened => (.ok (index, opened), e.skip (state.draws message))
    | .error fault =>
      match readFirst message (index + 1) rest (e.skip (state.draws message)) with
      | (.ok found, e) => (.ok found, e)
      | (.error _, e) => (.error (some fault), e)

theorem tryAll_yields (peer : Address) (message : RatchetMessage) (index : Nat) (states : List SessionState)
    (e : Entropy) : Act.Yields (tryAll peer message index states) e (.ok (readFirst message index states e).1)
      (readFirst message index states e).2 := by
  induction states generalizing index e with
  | nil => exact .pure _ _
  | cons state rest ih =>
    obtain ⟨reached, attempt⟩ := state.attempt_yields peer message e
    unfold tryAll readFirst
    cases result : state.read message (e.pair 0) with
    | ok opened => exact .bind (result ▸ attempt) (.pure _ _)
    | error fault =>
      refine .bind (result ▸ attempt) (.bind (noteFailure_yields _ _ _ _ _) (.bind (ih _ _) ?_))
      rcases readFirst message (index + 1) rest (e.skip (state.draws message)) with ⟨_ | found, e'⟩
      · exact .pure _ _
      · exact .pure _ _

end SessionState

namespace SessionRecord

theorem noteArchiving_yields (record : SessionRecord) (e : Entropy) :
    Act.Yields record.noteArchiving e (.ok ()) e := by
  unfold noteArchiving
  split
  · exact Act.note_yields _ _ _
  split
  · exact Act.note_yields _ _ _
  · exact .pure _ _

/-- Reads a message with the first archived state that can, which becomes current. -/
def readArchived (record : SessionRecord) (peer : Address) (message : RatchetMessage) (currentFault : Option Fault)
    (e : Entropy) : Except Fault (SessionRecord × Opened) × Entropy :=
  match SessionState.readFirst message 0 record.archived e with
  | (.ok (index, opened), e) => (.ok (record.restore index opened.state, opened), e)
  | (.error archivedFault, e) => (.error ((currentFault <|> archivedFault).getD (.noSession peer)), e)

/-- Reads a message with the first state that can, unless the current one knows it has read it. -/
def read (record : SessionRecord) (peer : Address) (message : RatchetMessage) (e : Entropy) :
    Except Fault (SessionRecord × Opened) × Entropy :=
  match record.current with
  | none => record.readArchived peer message none e
  | some state =>
    match state.read message (e.pair 0) with
    | .ok opened => (.ok ({ record with current := some opened.state }, opened), e.skip (state.draws message))
    | .error (.duplicate index counter) => (.error (.duplicate index counter), e.skip (state.draws message))
    | .error fault => record.readArchived peer message (some fault) (e.skip (state.draws message))

theorem decryptArchived_yields (record : SessionRecord) (peer : Address) (message : RatchetMessage)
    (currentFault : Option Fault) (e : Entropy) :
    Act.Yields (record.decryptArchived peer message currentFault) e (record.readArchived peer message currentFault e).1
      (record.readArchived peer message currentFault e).2 := by
  have tried := SessionState.tryAll_yields peer message 0 record.archived e
  unfold decryptArchived readArchived
  rcases found : SessionState.readFirst message 0 record.archived e with ⟨_ | ⟨index, opened⟩, e'⟩
  · rw [found] at tried
    exact .bind tried (.bind (Act.note_yields _ _ _) (.throw _ _))
  · rw [found] at tried
    exact .bind tried (.bind (Act.note_yields _ _ _) (.bind (noteArchiving_yields _ _) (.pure _ _)))

theorem decrypt_yields (record : SessionRecord) (peer : Address) (message : RatchetMessage) (e : Entropy) :
    Act.Yields (record.decrypt peer message) e (record.read peer message e).1 (record.read peer message e).2 := by
  unfold decrypt read
  cases record.current with
  | none => exact record.decryptArchived_yields peer message none e
  | some state =>
    obtain ⟨reached, attempt⟩ := state.attempt_yields peer message e
    dsimp only
    cases result : state.read message (e.pair 0) with
    | ok opened => exact .bind (result ▸ attempt) (.pure _ _)
    | error fault =>
      rw [result] at attempt
      cases fault with
      | duplicate index counter => exact .bind attempt (.throw _ _)
      | _ =>
        exact .bind attempt (.bind (SessionState.noteFailure_yields _ _ _ _ _)
          (record.decryptArchived_yields peer message _ _))

end SessionRecord

end DoubleRatchet
