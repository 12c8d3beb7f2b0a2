import DoubleRatchet.Proofs.Group.Broadcast
import DoubleRatchet.Proofs.Group.Member

/-! Whose chain a device distributes. Under one name a device may begin a chain of its own and be given chains of others. It
distributes the first that it keeps, whosever that is, but it can only send on its own; so what it has distributed is what it
sends on if and only if the first chain is its own, and that depends on all that has happened to its record. -/
namespace DoubleRatchet

open DoubleRatchet.Group

/-- What a device can do under one name. -/
inductive Operation where
  | create
  | encrypt (plaintext : Bytes)
  | receive (receipt : Receipt)

/-- The device after one operation, whether or not it has succeeded. -/
def Device.perform (name : SenderKeyName) (device : Device) : Operation → Device
  | .create => ((Group.create name : OnDevice KeyDistribution) device).2
  | .encrypt plaintext => ((Group.encrypt name plaintext : OnDevice GroupMessage) device).2
  | .receive receipt => device.take name receipt

def Device.performAll (name : SenderKeyName) (device : Device) (operations : List Operation) : Device :=
  operations.foldl (perform name) device

/-- Whose the first chain of a record is: there is none, or it is the device's own and has a number of others after it, or
it was given to the device. -/
inductive Ownership where
  | none
  | own (others : Nat)
  | given
  deriving DecidableEq

namespace Ownership

/-- A chain that is given comes last, and pushes the first one out if the record is full. -/
def push : Ownership → Ownership
  | none => given
  | own others => if others + 1 < maxStates then own (others + 1) else given
  | given => given

def step (ownership : Ownership) : Operation → Ownership
  | .create => if ownership = none then own 0 else ownership
  | .encrypt _ => ownership
  | .receive receipt => if receipt.begins then ownership.push else ownership

/-- Whose the first chain is after some operations on an empty record. -/
def after (operations : List Operation) : Ownership := operations.foldl step none

end Ownership

/-- The message is the next of the chain that was distributed so: what it is made with is what the members were given, and
a member that was given just that reads it. -/
structure KeyDistribution.Describes (d : KeyDistribution) (plaintext : Bytes) (message : GroupMessage) : Prop where
  keyId : message.keyId = d.keyId
  iteration : message.iteration = d.iteration
  ciphertext : ∃ seed, FixedBytes.ofBytes? 32 d.chainKey = some seed ∧
    let key := (⟨d.iteration, seed⟩ : Group.ChainKey).messageKey
    message.ciphertext = Cipher.encrypt key.cipherKey key.iv plaintext
  signature : ∃ (key : PrivateKey) (e : Entropy), key.publicKey = d.signingKey ∧
    message.signature = (key.sign message.content e).1
  readable : plaintext.Sendable → ∀ (member : Device) (source : SenderKeyName), (member.stores.senderKey source).isEmpty →
    ((Group.decrypt source message.serialized : OnDevice Bytes) (member.take source (.chain d))).1 = .ok plaintext

namespace Group

/-! ## Signing keys

Neither reading nor sending touches the signing keys of a record, so they tell what has become of its chains. -/

namespace StoredSigningKey

def own (key : PrivateKey) : StoredSigningKey := ⟨key.publicKey.serialize, key.serialize⟩

def given (key : PublicKey) : StoredSigningKey := ⟨key.serialize, []⟩

end StoredSigningKey

namespace SenderKeyState

variable {state : SenderKeyState}

theorem ownedBy_of_own {key : PrivateKey} (own : state.signing = some (.own key)) : state.OwnedBy key where
  privateKey := by
    simp [signingPrivateKey?, own, StoredSigningKey.own, PrivateKey.deserialize_serialize, bind, Except.bind, pure, Except.pure]
  publicKey := by
    simp [signingKey, own, StoredSigningKey.own]

theorem signingKey_of_given {key : PublicKey} (given : state.signing = some (.given key)) :
    state.signingKey = .ok key ∧ state.signingPrivateKey? = .ok none := by
  simp [signingKey, signingPrivateKey?, given, StoredSigningKey.given]

theorem fresh_own (e : Entropy) : ∃ key, (fresh e).1.signing = some (.own key) := ⟨_, rfl⟩

theorem start_chainKey (keyId : UInt32) (chain : ChainKey) (signingKey : PublicKey) (signingPrivateKey : Option PrivateKey) :
    (start keyId chain signingKey signingPrivateKey).chainKey = .ok chain := by
  simp [start, chainKey, StoredSeed.ofChainKey, StoredSeed.seed32, bind, Except.bind, pure, Except.pure]

theorem fresh_chainKey (e : Entropy) : ∃ chain, (fresh e).1.chainKey = .ok chain := ⟨_, start_chainKey _ _ _ _⟩

/-- A chain that has sent is the same one, further on. -/
theorem send_eq_ok {state' : SenderKeyState} {plaintext : Bytes} {message : GroupMessage} {e e' : Entropy}
    (sent : state.send plaintext e = (.ok (message, state'), e')) :
    ∃ next, state' = state.withChainKey next := by
  unfold send at sent
  cases keys : state.sendingKeys with
  | error fault => simp [keys] at sent
  | ok chainAndKey =>
    obtain ⟨chain, key⟩ := chainAndKey
    rw [keys] at sent
    obtain ⟨passed, -⟩ := Prod.mk.inj sent
    cases next : chain.next? with
    | error fault => simp [next, Except.map] at passed
    | ok next' =>
      simp only [next, Except.map] at passed
      cases passed
      exact ⟨next', rfl⟩

end SenderKeyState

end Group

namespace Stores

variable {stores stores' : Stores} {name : SenderKeyName} {e e' : Entropy}

/-- What is kept under the name once a chain has been distributed. -/
theorem create_record {result : Except Fault KeyDistribution} (created : stores.create name e = (result, stores', e')) :
    (if (stores.senderKey name).isEmpty then .push .empty (SenderKeyState.fresh e).1 else stores.senderKey name) =
      stores'.senderKey name := by
  unfold create at created
  split at created
  · rename_i empty
    have same : stores.withSenderKey name _ = stores' := congrArg (·.2.1) created
    rw [if_pos empty, ← same, senderKey_withSenderKey]
  · rename_i kept
    have same : stores = stores' := congrArg (·.2.1) created
    rw [if_neg kept, same]

/-- What is kept under the name once something has been sent, or not. -/
theorem broadcast_record {plaintext : Bytes} {result : Except Fault GroupMessage}
    (sent : stores.broadcast name plaintext e = (result, stores', e')) :
    stores'.senderKey name = stores.senderKey name ∨
    ∃ state state' message e', (stores.senderKey name).current = .ok state ∧ state.send plaintext e = (.ok (message, state'), e') ∧
      stores'.senderKey name = (stores.senderKey name).updateCurrent state' := by
  unfold broadcast at sent
  split at sent
  · have same : stores = stores' := congrArg (·.2.1) sent
    exact .inl (same ▸ rfl)
  · rename_i state current
    split at sent
    · have same : stores = stores' := congrArg (·.2.1) sent
      exact .inl (same ▸ rfl)
    · rename_i message state' e'' made
      have same : stores.withSenderKey name _ = stores' := congrArg (·.2.1) sent
      refine .inr ⟨state, state', message, e'', current, made, ?_⟩
      rw [← same, senderKey_withSenderKey]

end Stores

namespace Ownership

/-- The signing keys of a record whose first chain is owned so. -/
def Tells : Ownership → List (Option StoredSigningKey) → Prop
  | none, signings => signings = []
  | own others, signings => ∃ key rest, signings = some (.own key) :: rest ∧ rest.length = others ∧ others < maxStates ∧
      ∀ signing ∈ rest, ∃ key, signing = some (.given key)
  | given, signings => signings ≠ [] ∧ ∀ signing ∈ signings, ∃ key, signing = some (.given key)

theorem Tells.push {ownership : Ownership} {signings : List (Option StoredSigningKey)} (tells : ownership.Tells signings)
    (key : PublicKey) :
    ownership.push.Tells ((signings ++ [some (StoredSigningKey.given key)]).drop (signings.length + 1 - maxStates)) := by
  cases ownership with
  | none =>
    obtain rfl : signings = [] := tells
    refine ⟨by simp [maxStates], fun signing member => ⟨key, ?_⟩⟩
    simpa [maxStates] using member
  | own others =>
    obtain ⟨own, rest, rfl, length, few, all⟩ := tells
    have longer : ∀ signing ∈ rest ++ [some (StoredSigningKey.given key)],
        ∃ key, signing = some (StoredSigningKey.given key) := by
      intro signing member
      rcases List.mem_append.mp member with old | new
      · exact all signing old
      · exact ⟨key, List.mem_singleton.mp new⟩
    by_cases room : others + 1 < maxStates
    · rw [Ownership.push, if_pos room, List.length_cons, length, Nat.sub_eq_zero_of_le room]
      exact ⟨own, rest ++ [some (.given key)], rfl, by simp [length], room, longer⟩
    · have one : others + 1 + 1 - maxStates = 1 := by omega
      rw [Ownership.push, if_neg room, List.length_cons, length, one]
      exact ⟨by simp, longer⟩
  | given =>
    obtain ⟨some, all⟩ := tells
    have room : signings.length + 1 - maxStates ≤ signings.length := by
      unfold maxStates
      omega
    rw [List.drop_append_of_le_length room]
    refine ⟨by simp, fun signing member => ?_⟩
    rcases List.mem_append.mp member with old | new
    · exact all signing (List.mem_of_mem_drop old)
    · exact ⟨key, List.mem_singleton.mp new⟩

/-- A record whose first chain is owned so, and on whose chains one can send. -/
structure Of (ownership : Ownership) (record : SenderKeyRecord) : Prop where
  tells : ownership.Tells (record.states.map SenderKeyState.signing)
  readable : ∀ state ∈ record.states, ∃ chain, state.chainKey = .ok chain

namespace Of

variable {ownership : Ownership} {record : SenderKeyRecord}

theorem isEmpty_iff (owned : ownership.Of record) : record.isEmpty ↔ ownership = none := by
  have tells := owned.tells
  rw [SenderKeyRecord.isEmpty, List.isEmpty_iff]
  cases ownership with
  | none => simpa [Tells] using tells
  | own others =>
    obtain ⟨key, rest, same, -⟩ := tells
    constructor
    · intro empty
      simp [empty] at same
    · intro other
      cases other
  | given =>
    constructor
    · intro empty
      exact absurd (congrArg (List.map _) empty) tells.1
    · intro other
      cases other

/-- A chain in a new state with the same signing keys takes the place of one. -/
theorem replace {before after : List SenderKeyState} {state state' : SenderKeyState} (owned : ownership.Of record)
    (states : record.states = before ++ state :: after) (signing : state'.signing = state.signing)
    (readable : ∃ chain, state'.chainKey = .ok chain) : ownership.Of ⟨before ++ state' :: after⟩ where
  tells := by
    have tells := owned.tells
    rw [states] at tells
    simpa [signing] using tells
  readable := by
    intro other member
    rcases SenderKeyRecord.mem_of_replaced member with rfl | old
    · exact readable
    · exact owned.readable other (states ▸ old)

theorem receive (owned : ownership.Of record) (receipt : Receipt) :
    (ownership.step (.receive receipt)).Of (record.take receipt) := by
  cases receipt with
  | chain distribution =>
    rcases distributed_cases distribution with ⟨begins, c, begun⟩ | ⟨refused, fault, failed⟩
    · rw [step, if_pos begins, record.take_begun begun]
      constructor
      · have tells := owned.tells.push c.signingKey
        have signing : (c.state { index := c.first }).signing = some (.given c.signingKey) := rfl
        rw [SenderKeyRecord.push, List.map_drop, List.map_append, List.length_append, List.length_singleton]
        simpa [signing] using tells
      · intro state member
        rcases SenderKeyRecord.mem_push member with old | rfl
        · exact owned.readable state old
        · exact ⟨_, c.state_chainKey⟩
    · rw [step, if_neg refused, record.take_refused failed]
      exact owned
  | message bytes =>
    show ownership.Of (record.take (.message bytes))
    cases parsed : GroupMessage.parse bytes with
    | error fault =>
      rw [record.take_garbled parsed]
      exact owned
    | ok message =>
      rw [record.take_parsed parsed]
      cases read : record.read message with
      | error fault => exact owned
      | ok done =>
        obtain ⟨before, state, after, state', states, -, -, served, record'⟩ := SenderKeyRecord.read_eq_ok read
        show ownership.Of done.2
        rw [record']
        exact owned.replace states (SenderKeyState.read_signing served) (SenderKeyState.read_chainKey served)

theorem create (owned : ownership.Of record) (e : Entropy) :
    (ownership.step .create).Of (if record.isEmpty then .push .empty (SenderKeyState.fresh e).1 else record) := by
  by_cases empty : record.isEmpty
  · rw [if_pos empty, step, if_pos (owned.isEmpty_iff.mp empty)]
    obtain ⟨key, own⟩ := SenderKeyState.fresh_own e
    have states : (SenderKeyRecord.push .empty (SenderKeyState.fresh e).1).states = [(SenderKeyState.fresh e).1] := rfl
    constructor
    · rw [states]
      exact ⟨key, [], congrArg (fun signing => [signing]) own, rfl, by decide, by simp⟩
    · rw [states]
      intro state member
      exact List.mem_singleton.mp member ▸ SenderKeyState.fresh_chainKey e
  · rw [if_neg empty, step, if_neg (mt owned.isEmpty_iff.mpr empty)]
    exact owned

end Of

namespace Of

variable {name : SenderKeyName} {device : Device}

/-- Each operation leaves the first chain of the record owned as the operation says. -/
theorem perform {ownership : Ownership} (owned : ownership.Of (device.stores.senderKey name)) (operation : Operation) :
    (ownership.step operation).Of ((device.perform name operation).stores.senderKey name) := by
  cases operation with
  | create =>
    rcases run : (Group.create name : OnDevice KeyDistribution) device with ⟨result, device'⟩
    rw [Device.perform, run, ← Stores.create_record (create_run run)]
    exact owned.create device.ambient.entropy
  | encrypt plaintext =>
    rcases run : (Group.encrypt name plaintext : OnDevice GroupMessage) device with ⟨result, device'⟩
    rw [Device.perform, run]
    show ownership.Of (device'.stores.senderKey name)
    rcases Stores.broadcast_record (encrypt_run run) with record | ⟨state, state', message, e', current, sent, record⟩
    · rw [record]
      exact owned
    · obtain ⟨next, rfl⟩ := SenderKeyState.send_eq_ok sent
      obtain ⟨rest, states⟩ := SenderKeyRecord.current_eq_ok current
      have replaced : ownership.Of ⟨[] ++ state.withChainKey next :: rest⟩ :=
        owned.replace states rfl ⟨_, state.withChainKey_chainKey next⟩
      rw [record, SenderKeyRecord.updateCurrent, states]
      exact replaced
  | receive receipt =>
    rw [Device.perform, Device.take_record]
    exact owned.receive receipt

theorem performAll {ownership : Ownership} (owned : ownership.Of (device.stores.senderKey name)) (operations : List Operation) :
    (operations.foldl Ownership.step ownership).Of ((device.performAll name operations).stores.senderKey name) := by
  induction operations generalizing ownership device with
  | nil => exact owned
  | cons operation rest ih => exact ih (owned.perform operation)

end Of

theorem Of.none {record : SenderKeyRecord} (isEmpty : record.isEmpty) : Ownership.none.Of record := by
  have nothing : record.states = [] := List.isEmpty_iff.mp isEmpty
  constructor <;> simp [nothing, Tells]

theorem step_create_ne_none (ownership : Ownership) : ownership.step .create ≠ none := by
  cases ownership <;> simp [step]

theorem Of.own_first {others : Nat} {record : SenderKeyRecord} (owned : (own others).Of record) :
    ∃ state chain key, record.current = .ok state ∧ state.chainKey = .ok chain ∧ state.OwnedBy key := by
  obtain ⟨key, signings, same, -⟩ := owned.tells
  obtain ⟨state, rest, states, signing, -⟩ := List.map_eq_cons_iff.mp same
  obtain ⟨chain, found⟩ := owned.readable state (states ▸ List.mem_cons_self)
  exact ⟨state, chain, key, SenderKeyRecord.current_of_cons states, found, SenderKeyState.ownedBy_of_own signing⟩

theorem Of.given_first {record : SenderKeyRecord} (owned : given.Of record) :
    ∃ state chain key, record.current = .ok state ∧ state.chainKey = .ok chain ∧ state.signingKey = .ok key ∧
      state.signingPrivateKey? = .ok Option.none := by
  obtain ⟨some, all⟩ := owned.tells
  cases states : record.states with
  | nil => simp [states] at some
  | cons state rest =>
    obtain ⟨key, signing⟩ := all state.signing (List.mem_map_of_mem (states ▸ List.mem_cons_self))
    obtain ⟨chain, found⟩ := owned.readable state (states ▸ List.mem_cons_self)
    obtain ⟨signingKey, privateKey⟩ := SenderKeyState.signingKey_of_given signing
    exact ⟨state, chain, key, SenderKeyRecord.current_of_cons states, found, signingKey, privateKey⟩

end Ownership

namespace Group

theorem distribution_eq_ok {record : SenderKeyRecord} {state : SenderKeyState} {chain : Group.ChainKey} {key : PublicKey}
    (current : record.current = .ok state) (chainKey : state.chainKey = .ok chain) (signingKey : state.signingKey = .ok key) :
    ∃ d, distribution record = .ok d := by
  simp [distribution, current, chainKey, signingKey, bind, Except.bind, pure, Except.pure]

/-- A member that was given nothing but a chain reads the message with which the chain begins. -/
theorem SenderChain.Wrote.describes {c : SenderChain} {plaintext : Bytes} {message : GroupMessage}
    (wrote : c.Wrote c.first plaintext message) (bound : c.first + 1 < UInt32.size) :
    (c.distribution c.first).Describes plaintext message where
  keyId := wrote.keyId
  iteration := wrote.iteration
  ciphertext := ⟨(c.link c.first).seed, FixedBytes.ofBytes?_bytes _, wrote.ciphertext⟩
  signature := wrote.signed
  readable := by
    intro sendable member source isEmpty
    have nothing : member.stores.senderKey source = .empty :=
      congrArg SenderKeyRecord.mk (List.isEmpty_iff.mp isEmpty)
    rw [Device.decrypt_result, Device.take_record, nothing,
      SenderKeyRecord.take_begun _ (c.distributed_distribution c.first)]
    exact wrote.receive_first sendable bound []

end Group

/-- Under a name a device has done anything, in any order, and then it distributes a chain. This never fails. If it has begun
its own chain before it was given any, and has been given fewer than five since, then what it sends next is what it has
distributed, unless the chain is at its end. Otherwise it has distributed a chain that it was given, and it sends nothing. -/
theorem sends_what_it_distributes (name : SenderKeyName) (device : Device) (empty : (device.stores.senderKey name).isEmpty)
    (operations : List Operation) :
    ∃ d device', (Group.create name : OnDevice KeyDistribution) (device.performAll name operations) = (.ok d, device') ∧
      ∀ plaintext : Bytes,
        match Ownership.after (operations ++ [.create]) with
        | .own _ => d.iteration ≠ 0xffffffff → ∃ message device'',
            (Group.encrypt name plaintext : OnDevice GroupMessage) device' = (.ok message, device'') ∧
              d.Describes plaintext message
        | _ => ((Group.encrypt name plaintext : OnDevice GroupMessage) device').1 = .error .noSigningKey := by
  have owned := ((Ownership.Of.none empty).performAll operations).perform .create
  rcases run : (Group.create name : OnDevice KeyDistribution) (device.performAll name operations) with ⟨result, device'⟩
  have made := Stores.distribution_of_create (create_run run)
  have reached : Ownership.after (operations ++ [.create]) = (operations.foldl Ownership.step .none).step .create :=
    List.foldl_append
  rw [Device.perform, run] at owned
  have begun := Ownership.step_create_ne_none (operations.foldl Ownership.step .none)
  rw [← reached] at owned begun
  generalize Ownership.after (operations ++ [.create]) = ownership at owned begun ⊢
  cases ownership with
  | none => exact absurd rfl begun
  | own others =>
    obtain ⟨state, chain, key, current, chainKey, own⟩ := owned.own_first
    obtain ⟨d, distributed⟩ := distribution_eq_ok current chainKey own.publicKey
    cases distributed.symm.trans made
    obtain ⟨c, rfl, heads⟩ := SenderChain.of_distribution current own distributed
    refine ⟨_, device', rfl, fun plaintext last => ?_⟩
    have bound : c.first + 1 < UInt32.size := by
      refine Nat.lt_of_le_of_ne c.origin.iteration.toNat_lt_size fun full => last ?_
      exact congrArg UInt32.ofNat (Nat.succ.inj full)
    obtain ⟨message, state', e', sent⟩ := heads.sends (Nat.le_refl _) bound plaintext device'.ambient.entropy
    obtain ⟨-, wrote, -⟩ := heads.of_send (Nat.le_refl _) (Nat.lt_of_succ_lt bound) sent
    rcases sending : (Group.encrypt name plaintext : OnDevice GroupMessage) device' with ⟨result, device''⟩
    have broadcast := congrArg Prod.fst (encrypt_run sending)
    simp only [Stores.broadcast, current, sent] at broadcast
    exact ⟨message, device'', Prod.ext broadcast.symm rfl, wrote.describes bound⟩
  | given =>
    obtain ⟨state, chain, key, current, chainKey, signingKey, none⟩ := owned.given_first
    obtain ⟨d, distributed⟩ := distribution_eq_ok current chainKey signingKey
    cases distributed.symm.trans made
    refine ⟨d, device', rfl, fun plaintext => ?_⟩
    rcases sending : (Group.encrypt name plaintext : OnDevice GroupMessage) device' with ⟨result, device''⟩
    have broadcast := congrArg Prod.fst (encrypt_run sending)
    have unsigned : state.sendingKeys = .error .noSigningKey := by
      simp [SenderKeyState.sendingKeys, chainKey, none, bind, Except.bind]
    simp only [Stores.broadcast, current, SenderKeyState.send, unsigned] at broadcast
    exact broadcast.symm

/-- A device that has begun its chain sends what it has distributed; a device that was given one first distributes that one,
and sends nothing. -/
theorem sends_what_it_distributes_unless_given :
    (∃ d device, (Group.create Sample.group : OnDevice KeyDistribution) Sample.speaker = (.ok d, device) ∧
      ∀ plaintext : Bytes, ∃ message device',
        (Group.encrypt Sample.group plaintext : OnDevice GroupMessage) device = (.ok message, device') ∧
          d.Describes plaintext message) ∧
    ∃ given d device, Sample.broadcast.Opens given ∧
      (Group.create Sample.group : OnDevice KeyDistribution) (Sample.listener.take Sample.group (.chain given)) = (.ok d, device) ∧
      ∀ plaintext : Bytes, ((Group.encrypt Sample.group plaintext : OnDevice GroupMessage) device).1 = .error .noSigningKey := by
  have silent (device : Device) (nothing : device.stores.senderKeys = ∅) : (device.stores.senderKey Sample.group).isEmpty := by
    simp [Stores.senderKey, nothing, SenderKeyRecord.isEmpty, SenderKeyRecord.empty]
  constructor
  · obtain ⟨d, device, created, sends⟩ := sends_what_it_distributes Sample.group Sample.speaker (silent _ rfl) []
    refine ⟨d, device, created, fun plaintext => sends plaintext ?_⟩
    obtain ⟨d', state, key, e', made, first, -⟩ := Stores.create_of_empty (silent Sample.speaker rfl) Sample.speaker.ambient.entropy
    have same := congrArg Prod.fst ((create_run created).symm.trans made)
    cases same
    rw [first]
    decide
  · obtain ⟨given, -, opens⟩ := Sample.broadcast_opens
    obtain ⟨c, rfl, -⟩ := opens.speaks
    obtain ⟨d, device, created, refused⟩ := sends_what_it_distributes Sample.group Sample.listener (silent _ rfl)
      [.receive (.chain (c.distribution c.first))]
    have begins : (Receipt.chain (c.distribution c.first)).begins := by
      simp [Receipt.begins, SenderChain.distribution, KeyDistribution.create, FixedBytes.length_bytes]
    have reached : Ownership.after ([.receive (.chain (c.distribution c.first))] ++ [.create]) = .given := by
      simp [Ownership.after, Ownership.step, begins, Ownership.push]
    rw [reached] at refused
    exact ⟨_, d, device, opens, created, refused⟩

end DoubleRatchet
