import DoubleRatchet.Proofs.OneTimeKeys
import DoubleRatchet.Proofs.Session.Turns

/-! A one-time key serves one handshake. All peers share the store of the keys, while each record knows only the
handshakes that it has answered itself. So the store decides: over a whole run the key is in it exactly until a state
built with the key has been stored, and a new handshake that names it later is refused, whoever it comes from. -/
namespace DoubleRatchet

/-- One request of a run: the stores that it found, its answer and the stores that it left. -/
structure Served where
  before : Stores
  request : Request
  answer : Except Fault Reply
  after : Stores

/-- The requests of a run, each with what it found and what it left. -/
def Device.trace : Device → List Request → List Served
  | _, [] => []
  | device, request :: rest =>
    ⟨device.stores, request, (device.serve request).1, (device.serve request).2.stores⟩ ::
      (device.serve request).2.trace rest

/-- The forms in which a state is kept that was built for a message: the built one, or what it has become by reading
what is inside. -/
inductive SessionState.KeptAs (built : SessionState) (message : RatchetMessage) : SessionState → Prop
  | unread : KeptAs built message built
  | read {fresh : KeyPair} {opened : Opened} (opens : built.read message fresh = .ok opened) :
    KeptAs built message opened.state

namespace Served

/-- A message is to be read that names a one-time key, in a handshake that the record of its sender does not know. -/
structure Names (served : Served) (id : UInt32) (peer : Address) (message : PreKeyMessage) : Prop where
  asked : served.request = .decryptPreKey peer message
  named : message.preKeyId = some id
  unknown : (served.before.recordOrFresh peer).hasStateFor message.version.toUInt32 message.baseKey = false

/-- The request fails, and no session is changed. -/
structure Refused (served : Served) : Prop where
  fails : ∃ fault, served.answer = .error fault
  sessions : served.after.sessions = served.before.sessions

/-- A message has been read, and in the record that is stored there is the state that was built for it with a one-time
key. -/
structure Stored (served : Served) (id : UInt32) (preKey : PreKeyRecord) (peer : Address) (message : PreKeyMessage) :
    Prop where
  names : served.Names id peer message
  answered : ∃ reply, served.answer = .ok reply
  kept : ∃ signedPreKey record state, served.before.signedPreKeys[message.signedPreKeyId]? = some signedPreKey ∧
    served.after.sessions[peer]? = some record ∧ state ∈ record.states ∧
    (served.before.responderState message signedPreKey.keyPair (some preKey.keyPair)).KeptAs message.message state

/-- A state is stored that was newly built with the one-time key of a number. -/
def Builds (served : Served) (id : UInt32) (preKey : PreKeyRecord) : Prop :=
  ∃ peer message, served.Stored id preKey peer message

end Served

namespace SessionRecord

/-- What is current before a message is read is not given up by it: the oldest archived state goes first. -/
theorem Replaces.keeps_current {record record' : SessionRecord} {current reader state' : SessionState}
    (present : record.current = some current) (replaces : record.Replaces reader state' record') :
    reader = current ∨ current ∈ record'.states := by
  cases replaces with
  | current reads =>
    rw [present] at reads
    cases reads
    exact .inl rfl
  | archived index found =>
    refine .inr (List.mem_append_right _ ?_)
    simp only [restore, install, archive, present]
    split
    · -- there is more than one archived state, and the last is not the one archived just now
      rename_i full
      rw [List.dropLast_cons_of_ne_nil]
      · exact List.mem_cons_self
      · intro none_kept
        rw [none_kept] at full
        cases full with
        | step more => cases more
    · exact List.mem_cons_self

end SessionRecord

namespace Stores

variable {stores : Stores} {e : Entropy} {request : Request} {id : UInt32} {preKey : PreKeyRecord}

/-- A request as the stores see it. -/
def serving (stores : Stores) (e : Entropy) (request : Request) : Served :=
  ⟨stores, request, (stores.serve e request).1, (stores.serve e request).2.1⟩

theorem serving_decryptPreKey (stores : Stores) (e : Entropy) (peer : Address) (message : PreKeyMessage) :
    stores.serving e (.decryptPreKey peer message) = ⟨stores, .decryptPreKey peer message,
      (stores.decryptPreKey peer message e).1.map fun (plaintext, keys) => .read plaintext keys,
      (stores.decryptPreKey peer message e).2.1⟩ := rfl

theorem Answers.kept {record accepted after : SessionRecord} {message : PreKeyMessage} {used : Option UInt32}
    {reader : SessionState} {fresh : KeyPair} {opened : Opened} (answers : stores.Answers record message accepted used)
    (unknown : record.hasStateFor message.version.toUInt32 message.baseKey = false)
    (opens : reader.read message.message fresh = .ok opened) (replaces : accepted.Replaces reader opened.state after) :
    ∃ signedPreKey oneTimePreKey state, stores.signedPreKeys[message.signedPreKeyId]? = some signedPreKey ∧
      stores.oneTimeKey message.preKeyId = .ok oneTimePreKey ∧ used = message.preKeyId.filter (· != noPreKey) ∧
      state ∈ after.states ∧
      (stores.responderState message signedPreKey.keyPair oneTimePreKey).KeptAs message.message state := by
  cases answers with
  | known has =>
    rw [unknown] at has
    cases has
  | built _ signedPreKey oneTimePreKey signed oneTime =>
    rcases replaces.keeps_current rfl with rfl | member
    · refine ⟨signedPreKey, oneTimePreKey, opened.state, signed, oneTime, rfl, ?_, .read opens⟩
      obtain ⟨_, kept, _, _, states⟩ := replaces.states
      rw [states]
      exact List.mem_cons_self
    · exact ⟨signedPreKey, oneTimePreKey, _, signed, oneTime, rfl, member, .unread⟩

/-- A message that names a one-time key in a new handshake is read with the key that is stored, which is removed, or
it is refused. -/
theorem serving_names {peer : Address} {message : PreKeyMessage} (number : id ≠ noPreKey)
    (names : (stores.serving e request).Names id peer message) :
    (stores.serving e request).Refused ∧ (stores.serving e request).after.preKeys = stores.preKeys ∨
      ∃ preKey, stores.preKeys[id]? = some preKey ∧ (stores.serving e request).Stored id preKey peer message ∧
        (stores.serving e request).after.preKeys[id]? = none := by
  obtain ⟨asked, named, unknown⟩ := names
  cases asked
  rcases run : stores.decryptPreKey peer message e with ⟨fault | ⟨plaintext, keys⟩, after, e'⟩
  · left
    rw [serving_decryptPreKey, run]
    rcases decryptPreKey_error run with ⟨_, rfl⟩ | ⟨_, rfl⟩
    · exact ⟨⟨⟨fault, rfl⟩, rfl⟩, rfl⟩
    · exact ⟨⟨⟨fault, rfl⟩, rfl⟩, rfl⟩
  · right
    rw [serving_decryptPreKey, run]
    obtain ⟨accepted, used, record, opened, _, answers, read, _, _, rfl⟩ := decryptPreKey_eq_ok.mp run
    obtain ⟨_, reader, opens, _, replaces⟩ := SessionRecord.read_eq_ok read
    obtain ⟨signedPreKey, oneTimePreKey, state, signed, oneTime, rfl, member, kept⟩ :=
      answers.kept unknown opens replaces
    have used : message.preKeyId.filter (· != noPreKey) = some id := by
      rw [named]
      simpa using number
    rw [used]
    rw [named, oneTimeKey] at oneTime
    cases held : stores.preKeys[id]? with
    | none =>
      rw [held] at oneTime
      cases oneTime
    | some preKey =>
      rw [held] at oneTime
      cases oneTime
      refine ⟨preKey, rfl, ⟨⟨rfl, named, unknown⟩, ⟨_, rfl⟩, ?_⟩, Std.ExtTreeMap.getElem?_erase_self⟩
      exact ⟨signedPreKey, record, state, signed, afterPreKey_sessions .., member, kept⟩

theorem serving_names_of_fresh {peer : Address} {message : PreKeyMessage} (named : message.preKeyId = some id)
    (fresh : stores.recordOrFresh peer = .fresh) : (stores.serving e (.decryptPreKey peer message)).Names id peer message :=
  ⟨rfl, named, by rw [serving, fresh]; rfl⟩

/-- Only a message that names a one-time key in a new handshake can remove it. -/
theorem serving_unnamed (number : id ≠ noPreKey)
    (unnamed : ∀ peer message, ¬ (stores.serving e request).Names id peer message) :
    (stores.serving e request).after.preKeys[id]? = stores.preKeys[id]? := by
  change (stores.serve e request).2.1.preKeys[id]? = _
  have leaves := stores.serve_leaves e request
  generalize (stores.serve e request).2.1 = after at leaves
  cases leaves with
  | all request => rfl
  | session record trusted => rfl
  | handshake trusted => rfl
  | @opening peer message _ used record trusted answers =>
    cases answers with
    | known _ => rfl
    | built unknown _ _ _ _ =>
      cases used : message.preKeyId.filter (· != noPreKey) with
      | none => rfl
      | some other =>
        have different : other ≠ id := by
          rintro rfl
          exact unnamed peer message ⟨rfl, (Option.filter_eq_some_iff.mp used).1, unknown⟩
        refine Std.ExtTreeMap.getElem?_erase.trans (if_neg fun same => different ?_)
        exact Std.LawfulEqCmp.compare_eq_iff_eq.mp same

/-- A request leaves the records of other peers as they are. -/
theorem serving_others {peer : Address} (other : request.peer ≠ peer) :
    (stores.serving e request).after.recordOrFresh peer = stores.recordOrFresh peer := by
  change (stores.serve e request).2.1.recordOrFresh peer = _
  rw [recordOrFresh, recordOrFresh, stores.serve_sessions_other e other]

/-- A request uses a one-time key, which is then gone, or leaves it as it is and refuses what names it in a new
handshake. -/
theorem serving_cases (stores : Stores) (e : Entropy) (request : Request) (number : id ≠ noPreKey) :
    (∃ preKey, stores.preKeys[id]? = some preKey ∧ (stores.serving e request).Builds id preKey ∧
        (stores.serving e request).after.preKeys[id]? = none) ∨
      (∀ peer message, (stores.serving e request).Names id peer message → (stores.serving e request).Refused) ∧
        (stores.serving e request).after.preKeys[id]? = stores.preKeys[id]? := by
  by_cases named : ∃ peer message, (stores.serving e request).Names id peer message
  · obtain ⟨peer, message, names⟩ := named
    rcases serving_names number names with ⟨refused, after⟩ | ⟨preKey, held, stored, gone⟩
    · exact .inr ⟨fun _ _ _ => refused, by rw [after]⟩
    · exact .inl ⟨preKey, held, ⟨peer, message, stored⟩, gone⟩
  · have unnamed : ∀ peer message, ¬ (stores.serving e request).Names id peer message :=
      fun peer message names => named ⟨peer, message, names⟩
    exact .inr ⟨fun peer message names => absurd names (unnamed peer message), serving_unnamed number unnamed⟩

theorem serving_held (e : Entropy) (request : Request) (number : id ≠ noPreKey) (held : stores.preKeys[id]? = some preKey) :
    (stores.serving e request).Builds id preKey ∧ (stores.serving e request).after.preKeys[id]? = none ∨
      (∀ peer message, (stores.serving e request).Names id peer message → (stores.serving e request).Refused) ∧
        (stores.serving e request).after.preKeys[id]? = some preKey := by
  rcases stores.serving_cases e request number with ⟨other, stored, builds, gone⟩ | ⟨refused, same⟩
  · rw [held] at stored
    cases stored
    exact .inl ⟨builds, gone⟩
  · exact .inr ⟨refused, same.trans held⟩

theorem serving_gone (e : Entropy) (request : Request) (number : id ≠ noPreKey) (gone : stores.preKeys[id]? = none) :
    (∀ peer message, (stores.serving e request).Names id peer message → (stores.serving e request).Refused) ∧
      (stores.serving e request).after.preKeys[id]? = none := by
  rcases stores.serving_cases e request number with ⟨preKey, stored, _⟩ | ⟨refused, same⟩
  · rw [gone] at stored
    cases stored
  · exact ⟨refused, same.trans gone⟩

end Stores

namespace Served

/-- A request that finds a one-time key gone and leaves it gone: no state is built with it, and what names it in a new
handshake is refused. -/
structure Lacks (served : Served) (id : UInt32) (preKey : PreKeyRecord) : Prop where
  before : served.before.preKeys[id]? = none
  after : served.after.preKeys[id]? = none
  unbuilt : ¬ served.Builds id preKey
  refused : ∀ peer message, served.Names id peer message → served.Refused

variable {served : Served} {id : UInt32} {preKey : PreKeyRecord}

/-- What is refused stores no state. -/
theorem not_builds (preKey : PreKeyRecord) (refused : ∀ peer message, served.Names id peer message → served.Refused) :
    ¬ served.Builds id preKey := by
  rintro ⟨peer, message, stored⟩
  obtain ⟨fault, fails⟩ := (refused peer message stored.names).fails
  obtain ⟨reply, answered⟩ := stored.answered
  rw [fails] at answered
  cases answered

end Served

/-- A run uses a one-time key at most once: the request that stores a state built with it removes it, and all later
ones lack it. -/
structure UsesOnce (id : UInt32) (preKey : PreKeyRecord) (run : List Served) : Prop where
  removed : ∀ served ∈ run, served.Builds id preKey → served.after.preKeys[id]? = none
  answered : ∀ served ∈ run, ∀ peer message, served.Names id peer message → served.Builds id preKey ∨ served.Refused
  lacking : run.Pairwise fun first later => first.Builds id preKey → later.Lacks id preKey

namespace UsesOnce

variable {served : Served} {run : List Served} {id : UInt32} {preKey : PreKeyRecord}

theorem nil : UsesOnce id preKey [] :=
  ⟨fun _ member => (nomatch member), fun _ member => (nomatch member), .nil⟩

theorem cons_builds (builds : served.Builds id preKey) (gone : served.after.preKeys[id]? = none)
    (lacks : ∀ later ∈ run, later.Lacks id preKey) : UsesOnce id preKey (served :: run) := by
  constructor
  · intro other member _
    rcases List.mem_cons.mp member with rfl | member
    · exact gone
    · exact (lacks other member).after
  · intro other member peer message names
    rcases List.mem_cons.mp member with rfl | member
    · exact .inl builds
    · exact .inr ((lacks other member).refused peer message names)
  · refine List.pairwise_cons.mpr ⟨fun later member _ => lacks later member, ?_⟩
    exact List.pairwise_of_forall_mem_list fun _ _ later member _ => lacks later member

theorem cons_refused (refused : ∀ peer message, served.Names id peer message → served.Refused)
    (uses : UsesOnce id preKey run) : UsesOnce id preKey (served :: run) := by
  have unbuilt := Served.not_builds preKey refused
  constructor
  · intro other member builds
    rcases List.mem_cons.mp member with rfl | member
    · exact absurd builds unbuilt
    · exact uses.removed other member builds
  · intro other member peer message names
    rcases List.mem_cons.mp member with rfl | member
    · exact .inr (refused peer message names)
    · exact uses.answered other member peer message names
  · exact List.pairwise_cons.mpr ⟨fun _ _ builds => absurd builds unbuilt, uses.lacking⟩

end UsesOnce

namespace Device

variable {id : UInt32}

theorem serve_stores (device : Device) (request : Request) :
    (device.serve request).2.stores = (device.stores.serving device.ambient.entropy request).after :=
  congrArg Prod.fst (device.serve_eq request).2

theorem trace_cons (device : Device) (request : Request) (rest : List Request) :
    device.trace (request :: rest) =
      device.stores.serving device.ambient.entropy request :: (device.serve request).2.trace rest := by
  rw [trace, device.serve_stores, (device.serve_eq request).1]
  rfl

theorem trace_pair (device : Device) (first second : Request) : device.trace [first, second] =
    [device.stores.serving device.ambient.entropy first,
      (device.serve first).2.stores.serving (device.serve first).2.ambient.entropy second] := by
  rw [trace_cons, trace_cons]
  rfl

theorem trace_lacks (device : Device) (preKey : PreKeyRecord) (number : id ≠ noPreKey)
    (gone : device.stores.preKeys[id]? = none) (requests : List Request) :
    (∀ served ∈ device.trace requests, served.Lacks id preKey) ∧
      (device.serveAll requests).2.stores.preKeys[id]? = none := by
  induction requests generalizing device with
  | nil => exact ⟨fun _ member => (nomatch member), gone⟩
  | cons request rest ih =>
    obtain ⟨refused, after⟩ := Stores.serving_gone device.ambient.entropy request number gone
    obtain ⟨later, last⟩ := ih (device.serve request).2 (by rw [serve_stores]; exact after)
    refine ⟨?_, last⟩
    intro served member
    rw [trace_cons] at member
    rcases List.mem_cons.mp member with rfl | member
    · exact ⟨gone, after, Served.not_builds preKey refused, refused⟩
    · exact later served member

end Device

/-- A one-time key that a device holds is used at most once in any run, and it is gone after the run if and only if it
has been used. -/
theorem oneTimeKey_used_once (device : Device) (requests : List Request) (id : UInt32) (preKey : PreKeyRecord)
    (number : id ≠ noPreKey) (held : device.stores.preKeys[id]? = some preKey) :
    UsesOnce id preKey (device.trace requests) ∧
      ((∃ served ∈ device.trace requests, served.Builds id preKey) ∧
          (device.serveAll requests).2.stores.preKeys[id]? = none ∨
        (∀ served ∈ device.trace requests, ¬ served.Builds id preKey) ∧
          (device.serveAll requests).2.stores.preKeys[id]? = some preKey) := by
  induction requests generalizing device with
  | nil => exact ⟨.nil, .inr ⟨fun _ member => (nomatch member), held⟩⟩
  | cons request rest ih =>
    rw [device.trace_cons]
    have after := device.serve_stores request
    rcases Stores.serving_held device.ambient.entropy request number held with
      ⟨builds, gone⟩ | ⟨refused, still⟩
    · rw [← after] at gone
      obtain ⟨lacks, last⟩ := Device.trace_lacks (device.serve request).2 preKey number gone rest
      exact ⟨.cons_builds builds (after ▸ gone) lacks, .inl ⟨⟨_, List.mem_cons_self, builds⟩, last⟩⟩
    · rw [← after] at still
      obtain ⟨uses, last⟩ := ih (device.serve request).2 still
      refine ⟨uses.cons_refused refused, ?_⟩
      rcases last with ⟨⟨served, member, builds⟩, gone⟩ | ⟨unbuilt, kept⟩
      · exact .inl ⟨⟨served, List.mem_cons_of_mem _ member, builds⟩, gone⟩
      · exact .inr ⟨List.forall_mem_cons.mpr ⟨Served.not_builds preKey refused, unbuilt⟩, kept⟩

namespace Sample

/-- The request that uses the key. -/
def opening : Request := .decryptPreKey initiator rewrapped

/-- The same message, from another peer. -/
def elsewhere : Request := .decryptPreKey responder rewrapped

theorem holding_builds : (holding.stores.serving holding.ambient.entropy opening).Builds 5 oneTimePreKey := by
  obtain ⟨result, device', run, gone⟩ := holding_spends
  have run := Session.decryptPreKey_run run
  rcases Stores.serving_held holding.ambient.entropy opening (by decide) holding_preKey with
    ⟨builds, _⟩ | ⟨_, kept⟩
  · exact builds
  · rw [opening, Stores.serving_decryptPreKey, run, gone] at kept
    cases kept

theorem opening_unknown : (holding.serve opening).2.stores.recordOrFresh responder = .fresh := by
  have other : opening.peer ≠ responder := by decide
  rw [Device.serve_stores, Stores.serving_others other]
  rfl

end Sample

/-- Two peers name one key, each in a handshake that is new. A state is stored for the first, and the second is refused. -/
theorem oneTimeKey_used_once_second_peer :
    (5 : UInt32) ≠ noPreKey ∧ Sample.holding.stores.preKeys[(5 : UInt32)]? = some Sample.oneTimePreKey ∧
      ∃ first later, Sample.holding.trace [Sample.opening, Sample.elsewhere] = [first, later] ∧
        first.Builds 5 Sample.oneTimePreKey ∧ later.Names 5 Sample.responder Sample.rewrapped ∧ later.Refused := by
  have number : (5 : UInt32) ≠ noPreKey := by decide
  obtain ⟨uses, _⟩ := oneTimeKey_used_once Sample.holding [Sample.opening, Sample.elsewhere] 5 Sample.oneTimePreKey number
    Sample.holding_preKey
  have lacking := uses.lacking
  rw [Device.trace_pair] at lacking ⊢
  have lacks := (List.pairwise_cons.mp lacking).1 _ (List.mem_singleton_self _) Sample.holding_builds
  have names : ((Sample.holding.serve Sample.opening).2.stores.serving (Sample.holding.serve Sample.opening).2.ambient.entropy
      Sample.elsewhere).Names 5 Sample.responder Sample.rewrapped :=
    Stores.serving_names_of_fresh rfl Sample.opening_unknown
  exact ⟨number, Sample.holding_preKey, _, _, rfl, Sample.holding_builds, names, lacks.refused _ _ names⟩

end DoubleRatchet
