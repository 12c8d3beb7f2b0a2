import DoubleRatchet.Proofs.Authentication
import DoubleRatchet.Proofs.Session.Trying

/-! A message decrypted twice from the same stores, with different randomness. Both runs try the same states with the same
result, and the same state reads the message if any does; the key pair that it draws for a step of the ratchet shows only
in what it sends with from then on. -/
namespace DoubleRatchet

/-- The same fault twice, or two related values. -/
inductive Both {E A : Type} (related : A → A → Prop) : Except E A → Except E A → Prop
  | error (fault : E) : Both related (.error fault) (.error fault)
  | ok {a a' : A} (values : related a a') : Both related (.ok a) (.ok a')

/-! ## One state -/

namespace SessionState

/-- The state that goes on from a root key by answering the peer's ratchet key with a new one. -/
def answering (state : SessionState) (root : RootKey) (peer : PublicKey) (fresh : KeyPair) : SessionState :=
  let (root, sending) := root.derive peer fresh.privateKey
  { state with rootKey := root.key.bytes, sender := some (.sending fresh sending) }

/-- Two states that differ at most in their root key and the chain they send on, which each has derived with a ratchet key
pair of its own. -/
inductive Twins : SessionState → SessionState → Prop
  | intro (common : SessionState) (root : RootKey) (peer : PublicKey) (fresh fresh' : KeyPair) :
    Twins (common.answering root peer fresh) (common.answering root peer fresh')

/-- A step of the ratchet first comes by a root key and a chain to receive on, and then answers. -/
theorem stepped_eq_answering (state : SessionState) (ours : PrivateKey) (root : RootKey) (peer : PublicKey) (fresh : KeyPair)
    (place : ChainKey) : state.stepped ours root peer fresh place =
      ({ state with previousCounter := if place.index = 0 then 0 else place.index - 1 }.withReceivingChain peer
        (root.derive peer ours).2).answering (root.derive peer ours).1 peer fresh := by
  unfold stepped answering
  rcases root.derive peer ours with ⟨root', receiving⟩
  rfl

theorem answering_afterRead (state : SessionState) (root : RootKey) (peer : PublicKey) (fresh : KeyPair)
    (message : RatchetMessage) (key : ChainKey) :
    (state.answering root peer fresh).afterRead message key = (state.afterRead message key).answering root peer fresh := rfl

/-- A state has read a message twice, each time with some key pair at hand. -/
def ReadsTwice (state : SessionState) (message : RatchetMessage) (opened opened' : Opened) : Prop :=
  ∃ fresh fresh', state.read message fresh = .ok opened ∧ state.read message fresh' = .ok opened'

variable {state : SessionState} {message : RatchetMessage} {opened opened' : Opened}

theorem read_both (state : SessionState) (message : RatchetMessage) (fresh fresh' : KeyPair) :
    Both (state.ReadsTwice message) (state.read message fresh) (state.read message fresh') := by
  cases run : state.read message fresh with
  | error fault =>
    rw [read_fault_with_any run fresh']
    exact .error fault
  | ok opened =>
    obtain ⟨opened', run', -⟩ := read_with_any run fresh'
    rw [run']
    exact .ok ⟨fresh, fresh', run, run'⟩

theorem ReadsTwice.alike (twice : state.ReadsTwice message opened opened') :
    opened'.plaintext = opened.plaintext ∧ opened'.keys = opened.keys ∧
      (opened'.state = opened.state ∨
        ∃ ours root, state.NeedsStep message ours root ∧ opened.state.Twins opened'.state) := by
  obtain ⟨fresh, fresh', run, run'⟩ := twice
  rcases read_otherwise run fresh' with same | ⟨ours, root, place, key, needs, after, again⟩
  · rw [same] at run'
    cases run'
    exact ⟨rfl, rfl, .inl rfl⟩
  · rw [again] at run'
    cases run'
    refine ⟨rfl, rfl, .inr ⟨ours, root, needs, ?_⟩⟩
    rw [after, stepped_eq_answering, stepped_eq_answering, answering_afterRead, answering_afterRead]
    exact .intro _ _ _ _ _

theorem ReadsTwice.remoteIdentityKey (twice : state.ReadsTwice message opened opened') :
    opened'.state.remoteIdentityKey = opened.state.remoteIdentityKey := by
  obtain ⟨fresh, fresh', run, run'⟩ := twice
  rw [read_remoteIdentityKey run, read_remoteIdentityKey run']

/-! ## The states of a record -/

theorem readFirst_both (message : RatchetMessage) (index : Nat) (states : List SessionState) (e e' : Entropy) :
    Both (fun found found' => found'.1 = found.1 ∧ ∃ reader ∈ states, reader.ReadsTwice message found.2 found'.2)
      (readFirst message index states e).1 (readFirst message index states e').1 := by
  induction states generalizing index e e' with
  | nil => exact .error none
  | cons state rest ih =>
    have first := state.read_both message (e.pair 0) (e'.pair 0)
    have later := ih (index + 1) (e.skip (state.draws message)) (e'.skip (state.draws message))
    unfold readFirst
    generalize state.read message (e.pair 0) = result, state.read message (e'.pair 0) = result' at first ⊢
    generalize readFirst message (index + 1) rest (e.skip (state.draws message)) = found,
      readFirst message (index + 1) rest (e'.skip (state.draws message)) = found' at later ⊢
    obtain ⟨found, left⟩ := found
    obtain ⟨found', left'⟩ := found'
    cases first with
    | ok twice => exact .ok ⟨rfl, state, List.mem_cons_self, twice⟩
    | error fault =>
      cases later with
      | error _ => exact .error (some fault)
      | ok values =>
        obtain ⟨place, reader, member, twice⟩ := values
        exact .ok ⟨place, reader, List.mem_cons_of_mem _ member, twice⟩

end SessionState

namespace SessionRecord

/-- A state of a record has read a message twice, and is current afterwards, before the same others. -/
inductive ReadsTwice (record : SessionRecord) (message : RatchetMessage) :
    SessionRecord × Opened → SessionRecord × Opened → Prop
  | intro {reader : SessionState} {opened opened' : Opened} (member : reader ∈ record.states)
      (twice : reader.ReadsTwice message opened opened') (archived : List SessionState) :
    ReadsTwice record message (⟨some opened.state, archived⟩, opened) (⟨some opened'.state, archived⟩, opened')

theorem readArchived_both (record : SessionRecord) (peer : Address) (message : RatchetMessage) (currentFault : Option Fault)
    (e e' : Entropy) : Both (record.ReadsTwice message) (record.readArchived peer message currentFault e).1
      (record.readArchived peer message currentFault e').1 := by
  have tried := SessionState.readFirst_both message 0 record.archived e e'
  unfold readArchived
  generalize SessionState.readFirst message 0 record.archived e = found,
    SessionState.readFirst message 0 record.archived e' = found' at tried ⊢
  obtain ⟨found, left⟩ := found
  obtain ⟨found', left'⟩ := found'
  cases tried with
  | error fault => exact .error _
  | ok values =>
    obtain ⟨place, reader, member, twice⟩ := values
    dsimp only
    rw [place]
    exact .ok (.intro (List.mem_append_right _ member) twice _)

theorem read_both (record : SessionRecord) (peer : Address) (message : RatchetMessage) (e e' : Entropy) :
    Both (record.ReadsTwice message) (record.read peer message e).1 (record.read peer message e').1 := by
  unfold read
  cases present : record.current with
  | none => exact record.readArchived_both peer message none e e'
  | some state =>
    have first := state.read_both message (e.pair 0) (e'.pair 0)
    dsimp only
    generalize state.read message (e.pair 0) = result, state.read message (e'.pair 0) = result' at first ⊢
    cases first with
    | ok twice =>
      refine .ok (.intro ?_ twice record.archived)
      rw [states_of_current present]
      exact List.mem_cons_self
    | error fault =>
      cases fault with
      | duplicate index counter => exact .error _
      | _ => exact record.readArchived_both peer message _ _ _

end SessionRecord

/-! ## A device -/

/-- What an operation gives, and the stores after it. -/
def OnDevice.outcome {A : Type} (operation : OnDevice A) (stores : Stores) (ambient : Ambient) : Except Fault A × Stores :=
  ((operation ⟨stores, ambient⟩).1, (operation ⟨stores, ambient⟩).2.stores)

theorem OnDevice.outcome_eq {A : Type} {operation : OnDevice A} {stores : Stores} {ambient : Ambient}
    {result : Except Fault A} {after : Stores × Entropy}
    (yields : OnDevice.Yields operation (stores, ambient.entropy) result after) :
    operation.outcome stores ambient = (result, after.1) := by
  obtain ⟨device, run, shown⟩ := yields ⟨stores, ambient⟩ rfl
  rw [outcome, run, ← shown]
  rfl

namespace Stores

/-- Two outcomes of a request to read a message that are the same, unless the message was read by a step of the ratchet:
then the states that have read it are twins. -/
inductive Alike {A : Type} (stores : Stores) (request : Request) (message : RatchetMessage) :
    Except Fault A × Stores → Except Fault A × Stores → Prop
  | same (outcome : Except Fault A × Stores) : Alike stores request message outcome outcome
  | stepped (result : A) (after : Stores) {reader : SessionState} {opened opened' : Opened} (archived : List SessionState)
      {ours : PrivateKey} {root : RootKey} (offers : stores.Offers request reader)
      (reads : reader.ReadsTwice message opened opened') (needs : reader.NeedsStep message ours root)
      (twins : opened.state.Twins opened'.state) :
    Alike stores request message
      (.ok result, { after with sessions := after.sessions.insert request.peer ⟨some opened.state, archived⟩ })
      (.ok result, { after with sessions := after.sessions.insert request.peer ⟨some opened'.state, archived⟩ })

variable {stores : Stores} {message : RatchetMessage}

theorem Alike.map {A B : Type} {request : Request} {outcome outcome' : Except Fault A × Stores}
    (alike : stores.Alike request message outcome outcome') (f : A → B) :
    stores.Alike request message (outcome.1.map f, outcome.2) (outcome'.1.map f, outcome'.2) := by
  cases alike with
  | same outcome => exact .same _
  | stepped result after archived offers reads needs twins => exact .stepped (f result) after archived offers reads needs twins

/-- An operation has outcomes that are alike if what it yields is. -/
theorem Alike.of_yields {A : Type} {operation : OnDevice A} {request : Request}
    {yielded : Entropy → Except Fault A × Stores × Entropy}
    (yields : ∀ e, OnDevice.Yields operation (stores, e) (yielded e).1 (yielded e).2)
    (alike : ∀ e e', stores.Alike request message ((yielded e).1, (yielded e).2.1) ((yielded e').1, (yielded e').2.1))
    (ambient ambient' : Ambient) :
    stores.Alike request message (operation.outcome stores ambient) (operation.outcome stores ambient') := by
  rw [OnDevice.outcome_eq (yields ambient.entropy), OnDevice.outcome_eq (yields ambient'.entropy)]
  exact alike _ _

theorem acceptRead_opened (stores : Stores) (peer : Address) (state : SessionState) (archived : List SessionState)
    (opened : Opened) : stores.acceptRead peer (.ok (⟨some state, archived⟩, opened)) = (do
      let identity ← state.remoteIdentityKey
      stores.trusts peer identity .receiving
      return ((opened.plaintext, opened.keys), stores.withSession peer identity ⟨some state, archived⟩)) := rfl

/-- Two readings by one state lead to outcomes that are alike, when the rest of the stores is the same. -/
theorem alike_of_twice {request : Request} {reader : SessionState} {opened opened' : Opened}
    (offers : stores.Offers request reader) (twice : reader.ReadsTwice message opened opened') (after : Stores)
    (archived : List SessionState) : stores.Alike request message
      (.ok (opened.plaintext, opened.keys),
        { after with sessions := after.sessions.insert request.peer ⟨some opened.state, archived⟩ })
      (.ok (opened'.plaintext, opened'.keys),
        { after with sessions := after.sessions.insert request.peer ⟨some opened'.state, archived⟩ }) := by
  obtain ⟨plaintext, keys, same | ⟨ours, root, needs, twins⟩⟩ := twice.alike
  · rw [plaintext, keys, same]
    exact .same _
  · rw [plaintext, keys]
    exact .stepped _ after archived offers twice needs twins

theorem decryptRatchet_alike (stores : Stores) (peer : Address) (message : RatchetMessage) (e e' : Entropy) :
    stores.Alike (.decryptRatchet peer message) message
      ((stores.decryptRatchet peer message e).1, (stores.decryptRatchet peer message e).2.1)
      ((stores.decryptRatchet peer message e').1, (stores.decryptRatchet peer message e').2.1) := by
  unfold decryptRatchet
  cases loaded : stores.record peer with
  | error fault => exact .same _
  | ok record =>
    have both := record.read_both peer message e e'
    dsimp only
    generalize record.read peer message e = found, record.read peer message e' = found' at both ⊢
    obtain ⟨found, left⟩ := found
    obtain ⟨found', left'⟩ := found'
    cases both with
    | error fault => exact .same _
    | ok values =>
      obtain @⟨reader, opened, opened', member, twice, archived⟩ := values
      simp only [acceptRead_opened, twice.remoteIdentityKey]
      cases opened.state.remoteIdentityKey with
      | error fault => exact .same _
      | ok identity =>
        cases trusted : stores.trusts peer identity .receiving with
        | error fault =>
          simp only [bind, Except.bind, trusted]
          exact .same _
        | ok _ =>
          simp only [bind, Except.bind, trusted]
          have offers : stores.Offers (.decryptRatchet peer message) reader := by
            refine .kept ?_
            rw [Request.peer, recordOrFresh_eq (record_eq_ok.mp loaded)]
            exact member
          exact alike_of_twice offers twice { stores with identities := stores.identities.insert peer identity } archived

theorem decryptPreKey_alike (stores : Stores) (peer : Address) (message : PreKeyMessage) (e e' : Entropy) :
    stores.Alike (.decryptPreKey peer message) message.message
      ((stores.decryptPreKey peer message e).1, (stores.decryptPreKey peer message e).2.1)
      ((stores.decryptPreKey peer message e').1, (stores.decryptPreKey peer message e').2.1) := by
  unfold decryptPreKey
  cases accept : stores.acceptMessage peer message with
  | error fault => exact .same _
  | ok accepted =>
    obtain ⟨accepted, used⟩ := accepted
    have both := accepted.read_both peer message.message e e'
    dsimp only
    generalize accepted.read peer message.message e = found, accepted.read peer message.message e' = found' at both ⊢
    obtain ⟨found, left⟩ := found
    obtain ⟨found', left'⟩ := found'
    cases both with
    | error fault => exact .same _
    | ok values =>
      obtain @⟨reader, opened, opened', member, twice, archived⟩ := values
      have offers := (acceptMessage_eq_ok.mp accept).2.offers member
      exact alike_of_twice offers twice { stores.afterHandshake peer message with
        preKeys := used.elim stores.preKeys stores.preKeys.erase } archived

end Stores

/-- Randomness never decides a decryption: from the same stores, the same message gives the same plaintext and keys, or the
same fault, and the same changes, but for what the state that has read it sends with after a step of the ratchet. -/
theorem randomness_never_decides (stores : Stores) (peer : Address) (ambient ambient' : Ambient) :
    (∀ message, stores.Alike (.decryptRatchet peer message) message
      (OnDevice.outcome (Session.decryptRatchet peer message) stores ambient)
      (OnDevice.outcome (Session.decryptRatchet peer message) stores ambient')) ∧
    (∀ message, stores.Alike (.decryptPreKey peer message) message.message
      (OnDevice.outcome (Session.decryptPreKey peer message) stores ambient)
      (OnDevice.outcome (Session.decryptPreKey peer message) stores ambient')) ∧
    (∀ message, stores.Alike (.decryptRatchet peer message) message
      (OnDevice.outcome (Session.decrypt peer (.ratchet message)) stores ambient)
      (OnDevice.outcome (Session.decrypt peer (.ratchet message)) stores ambient')) ∧
    ∀ message, stores.Alike (.decryptPreKey peer message) message.message
      (OnDevice.outcome (Session.decrypt peer (.preKey message)) stores ambient)
      (OnDevice.outcome (Session.decrypt peer (.preKey message)) stores ambient') := by
  refine ⟨fun message => ?_, fun message => ?_, fun message => ?_, fun message => ?_⟩
  · exact .of_yields (Session.decryptRatchet_yields stores peer · message) (stores.decryptRatchet_alike peer message) _ _
  · exact .of_yields (Session.decryptPreKey_yields stores peer · message) (stores.decryptPreKey_alike peer message) _ _
  · exact .of_yields (Session.decrypt_yields stores peer · (.ratchet message))
      (fun e e' => (stores.decryptRatchet_alike peer message e e').map (·.1)) _ _
  · exact .of_yields (Session.decrypt_yields stores peer · (.preKey message))
      (fun e e' => (stores.decryptPreKey_alike peer message e e').map (·.1)) _ _

end DoubleRatchet
