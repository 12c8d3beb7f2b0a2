import DoubleRatchet.Proofs.Session.RecordReading

/-! The trial of a message on the states of a record. Whether a state reads a message, and else for what reason it does not,
depends on the state and the message alone; so of the states of a record, tried in turn, either all fail or there is a first
that reads, and it alone is changed. -/
namespace DoubleRatchet

namespace SessionState

variable {state : SessionState} {message : RatchetMessage}

/-- On its chains a state reads by its chains and identities alone. -/
theorem readOnChain_fault_congr {other : SessionState} {fault : Fault} (receivers : other.receivers = state.receivers)
    (remote : other.remoteIdentity = state.remoteIdentity) (own : other.localIdentity = state.localIdentity)
    (run : state.readOnChain message = .error fault) : other.readOnChain message = .error fault := by
  have chain : other.receivingChain? message.ratchetKey = state.receivingChain? message.ratchetKey := by
    rw [receivingChain?, receivingChain?, receivers]
  have remote_key : other.remoteIdentityKey = state.remoteIdentityKey := by
    rw [remoteIdentityKey, remoteIdentityKey, remoteIdentityKey?, remoteIdentityKey?, remote]
  have own_key : other.localIdentityKey = state.localIdentityKey := by rw [localIdentityKey, localIdentityKey, own]
  unfold readOnChain at run ⊢
  rw [chain, remote_key, own_key]
  cases found : state.receivingChain? message.ratchetKey with
  | none =>
    rw [found] at run
    exact run
  | some chain =>
    rw [found] at run
    simp only [bind_eq_error] at run ⊢
    -- Only the last step makes the new state, and it cannot fail.
    rcases run with key | ⟨key, placed, keys | ⟨keys, served, sender | ⟨sender, remote, receiver | ⟨receiver, own, text | ⟨_, _, made⟩⟩⟩⟩⟩
    · exact .inl key
    · exact .inr ⟨key, placed, .inl keys⟩
    · exact .inr ⟨key, placed, .inr ⟨keys, served, .inl sender⟩⟩
    · exact .inr ⟨key, placed, .inr ⟨keys, served, .inr ⟨sender, remote, .inl receiver⟩⟩⟩
    · exact .inr ⟨key, placed, .inr ⟨keys, served, .inr ⟨sender, remote, .inr ⟨receiver, own, .inl text⟩⟩⟩⟩
    · cases made

/-- The reason for which a state cannot read a message does not depend on the key pair that is drawn. -/
theorem read_fault_with_any {fresh : KeyPair} {fault : Fault} (run : state.read message fresh = .error fault)
    (other : KeyPair) : state.read message other = .error fault := by
  unfold read reached at run ⊢
  cases based : state.stepBase message with
  | error stepFault =>
    simp only [based, bind, Except.bind] at run ⊢
    exact run
  | ok base =>
    cases base with
    | none =>
      simp only [based, bind, Except.bind, pure, Except.pure] at run ⊢
      exact run
    | some base =>
      obtain ⟨ours, root⟩ := base
      cases placed : state.sendingChainKey with
      | error placeFault =>
        simp only [based, ratchet, placed, bind, Except.bind] at run ⊢
        exact run
      | ok place =>
        have step : ∀ pair, state.ratchet ours root message.ratchetKey pair =
            .ok (state.stepped ours root message.ratchetKey pair place) := fun pair => ratchet_eq_ok.mpr ⟨place, placed, rfl⟩
        simp only [based, step, bind, Except.bind] at run ⊢
        refine readOnChain_fault_congr ?_ ?_ ?_ run <;> simp only [stepped_receivers, stepped_remoteIdentity, stepped_localIdentity]


/-! ## Trying one state -/

/-- A state reads a message with the randomness at hand. -/
def Opens (state : SessionState) (peer : Address) (message : RatchetMessage) (e : Entropy) (opened : Opened) : Prop :=
  ∃ reached e', Act.Yields (state.attempt peer message) e (.ok (reached, .ok opened)) e'

/-- A state fails on a message for a reason that no randomness changes. -/
def Fails (state : SessionState) (peer : Address) (message : RatchetMessage) (fault : Fault) : Prop :=
  ∀ e, ∃ reached e', Act.Yields (state.attempt peer message) e (.ok (reached, .error fault)) e'

section

variable {peer : Address} {e e' : Entropy} {opened : Opened} {fault : Fault}

theorem attempt_unique {reached : SessionState} {result : Except Fault Opened}
    (yields : Act.Yields (state.attempt peer message) e (.ok (reached, result)) e') :
    result = state.read message (e.pair 0) := by
  obtain ⟨reached', yields'⟩ := state.attempt_yields peer message e
  obtain ⟨ambient, run, -⟩ := yields ⟨e, []⟩ rfl
  obtain ⟨same, -⟩ := yields'.of_run run
  cases same
  rfl

theorem opens_iff : state.Opens peer message e opened ↔ state.read message (e.pair 0) = .ok opened := by
  constructor
  · rintro ⟨reached, e', yields⟩
    exact (attempt_unique yields).symm
  · intro read
    obtain ⟨reached, yields⟩ := state.attempt_yields peer message e
    exact ⟨reached, _, read ▸ yields⟩

theorem fails_iff (fresh : KeyPair) : state.Fails peer message fault ↔ state.read message fresh = .error fault := by
  constructor
  · intro fails
    obtain ⟨reached, e', yields⟩ := fails { stream := fun _ => 0 }
    exact read_fault_with_any (attempt_unique yields).symm fresh
  · intro run e
    obtain ⟨reached, yields⟩ := state.attempt_yields peer message e
    exact ⟨reached, _, read_fault_with_any run (e.pair 0) ▸ yields⟩

theorem Fails.read (fails : state.Fails peer message fault) (fresh : KeyPair) : state.read message fresh = .error fault :=
  (fails_iff fresh).mp fails

theorem opens_or_fails (state : SessionState) (peer : Address) (message : RatchetMessage) (e : Entropy) :
    (∃ opened, state.Opens peer message e opened) ∨ ∃ fault, state.Fails peer message fault := by
  cases run : state.read message (e.pair 0) with
  | ok opened => exact .inl ⟨opened, opens_iff.mpr run⟩
  | error fault => exact .inr ⟨fault, (fails_iff _).mpr run⟩

end

/-! ## Trying states in turn -/

/-- The randomness that is left when some states have been tried. -/
def spend (message : RatchetMessage) (tried : List SessionState) (e : Entropy) : Entropy :=
  tried.foldl (fun e state => e.skip (state.draws message)) e

section

variable {peer : Address} {e e' : Entropy} {opened : Opened} {states before behind : List SessionState} {reader : SessionState}

theorem spend_cons (state : SessionState) (rest : List SessionState) (e : Entropy) :
    spend message (state :: rest) e = spend message rest (e.skip (state.draws message)) := rfl

/-- Of some states either all fail, or there is a first that reads. -/
theorem first_reader (states : List SessionState) (peer : Address) (message : RatchetMessage) (e : Entropy) :
    (∀ state ∈ states, ∃ fault, state.Fails peer message fault) ∨
      ∃ before reader behind opened, states = before ++ reader :: behind ∧
        (∀ earlier ∈ before, ∃ fault, earlier.Fails peer message fault) ∧
        reader.Opens peer message (spend message before e) opened := by
  induction states generalizing e with
  | nil => exact .inl (by simp)
  | cons state rest ih =>
    rcases state.opens_or_fails peer message e with ⟨opened, opens⟩ | fails
    · exact .inr ⟨[], state, rest, opened, rfl, by simp, opens⟩
    · rcases ih (e.skip (state.draws message)) with all | ⟨before, reader, behind, opened, rfl, tried, opens⟩
      · exact .inl (List.forall_mem_cons.mpr ⟨fails, all⟩)
      · refine .inr ⟨state :: before, reader, behind, opened, rfl, List.forall_mem_cons.mpr ⟨fails, tried⟩, ?_⟩
        rw [spend_cons]
        exact opens

theorem readFirst_of_reader (tried : ∀ earlier ∈ before, ∃ fault, earlier.Fails peer message fault)
    (opens : reader.Opens peer message (spend message before e) opened) (index : Nat) (behind : List SessionState) :
    (readFirst message index (before ++ reader :: behind) e).1 = .ok (index + before.length, opened) := by
  induction before generalizing index e with
  | nil =>
    have read : reader.read message (e.pair 0) = .ok opened := opens_iff.mp opens
    rw [List.nil_append, readFirst, read]
    rfl
  | cons state rest ih =>
    obtain ⟨⟨fault, fails⟩, tried⟩ := List.forall_mem_cons.mp tried
    rw [spend_cons] at opens
    have found := ih tried opens (index + 1)
    rw [List.cons_append, readFirst, fails.read]
    rcases run : readFirst message (index + 1) (rest ++ reader :: behind) (e.skip (state.draws message)) with ⟨_ | found', left⟩
    · rw [run] at found
      cases found
    · rw [run] at found
      cases found
      rw [List.length_cons, Nat.add_assoc, Nat.add_comm 1]

theorem readFirst_of_none (tried : ∀ state ∈ states, ∃ fault, state.Fails peer message fault) (index : Nat) (e : Entropy) :
    ∃ fault, (readFirst message index states e).1 = .error fault ∧
      states.head?.elim (fault = none) fun first => ∃ reason, fault = some reason ∧ first.Fails peer message reason := by
  induction states generalizing index e with
  | nil => exact ⟨none, rfl, rfl⟩
  | cons state rest ih =>
    obtain ⟨⟨fault, fails⟩, tried⟩ := List.forall_mem_cons.mp tried
    obtain ⟨later, run, -⟩ := ih tried (index + 1) (e.skip (state.draws message))
    refine ⟨some fault, ?_, fault, rfl, fails⟩
    rw [readFirst, fails.read]
    rcases rest_run : readFirst message (index + 1) rest (e.skip (state.draws message)) with ⟨_ | found, e'⟩
    · rfl
    · rw [rest_run] at run
      cases run

end

/-- All of a state that reading a message leaves as it is: its version, the identities and the base key of its session, the
registration ids, an exchange that has been offered, and whether it needs to be refreshed. -/
structure Keeps (state state' : SessionState) : Prop extends state.SameSession state' where
  localRegistrationId : state'.localRegistrationId = state.localRegistrationId
  remoteRegistrationId : state'.remoteRegistrationId = state.remoteRegistrationId
  pendingKeyExchange : state'.pendingKeyExchange = state.pendingKeyExchange
  needsRefresh : state'.needsRefresh = state.needsRefresh

theorem Keeps.afterRead {reached : SessionState} (keeps : state.Keeps reached) (message : RatchetMessage) (key : ChainKey) :
    state.Keeps (reached.afterRead message key) :=
  ⟨⟨keeps.version, keeps.localIdentity, keeps.remoteIdentity, keeps.baseKey⟩, keeps.localRegistrationId,
    keeps.remoteRegistrationId, keeps.pendingKeyExchange, keeps.needsRefresh⟩

theorem stepped_keeps (state : SessionState) (ours : PrivateKey) (root : RootKey) (peer : PublicKey) (fresh : KeyPair)
    (place : ChainKey) : state.Keeps (state.stepped ours root peer fresh place) := by
  unfold stepped
  rcases root.derive peer ours with ⟨root', receiving⟩
  rcases root'.derive peer fresh.privateKey with ⟨root'', sending⟩
  exact ⟨⟨rfl, rfl, rfl, rfl⟩, rfl, rfl, rfl, rfl⟩

theorem read_keeps {fresh : KeyPair} {opened : Opened} (run : state.read message fresh = .ok opened) :
    state.Keeps opened.state := by
  obtain ⟨_, _, _, _, _, _, reaches, opens⟩ := read_reaches run
  rw [opens.after]
  refine Keeps.afterRead ?_ message _
  cases reaches with
  | here => exact ⟨⟨rfl, rfl, rfl, rfl⟩, rfl, rfl, rfl, rfl⟩
  | stepped _ _ => exact state.stepped_keeps _ _ _ _ _

end SessionState

namespace SessionRecord

variable {record : SessionRecord} {peer : Address} {message : RatchetMessage} {e : Entropy}
  {before behind : List SessionState} {reader : SessionState} {opened : Opened}

/-- How a record reads a message: of its states, the current one first and the newest of the others next, all before the
reader fail, and the current one does not take the message for a repetition. -/
structure FirstReads (record : SessionRecord) (peer : Address) (message : RatchetMessage) (e : Entropy)
    (before : List SessionState) (reader : SessionState) (behind : List SessionState) (opened : Opened) : Prop where
  states : record.states = before ++ reader :: behind
  tried : ∀ earlier ∈ before, ∃ fault, earlier.Fails peer message fault
  unrepeated : ∀ current ∈ record.current, ∀ index counter, ¬ current.Fails peer message (.duplicate index counter)
  opens : reader.Opens peer message (SessionState.spend message before e) opened

/-- How a record refuses a message: the current state takes it for a repetition, or all fail. The fault is that of the
current state, or else of the newest archived one, or else that there is none. -/
structure Refuses (record : SessionRecord) (peer : Address) (message : RatchetMessage) (fault : Fault) : Prop where
  tried : (∃ current ∈ record.current, ∃ index counter, current.Fails peer message (.duplicate index counter)) ∨
    ∀ state ∈ record.states, ∃ fault, state.Fails peer message fault
  first : record.states.head?.elim (fault = .noSession peer) fun first => first.Fails peer message fault

theorem restore_of_split (few : record.archived.length ≤ maxArchivedStates)
    (archived : record.archived = before ++ reader :: behind) (state : SessionState) :
    record.restore before.length state = ⟨some state, record.current.toList ++ (before ++ behind)⟩ := by
  have others : record.archived.eraseIdx before.length = before ++ behind := by
    rw [archived, List.eraseIdx_append_of_length_le (Nat.le_refl _), Nat.sub_self]
    rfl
  have count := congrArg List.length archived
  rw [List.length_append, List.length_cons] at count
  rw [restore, others, install, archive]
  cases record.current with
  | none => rfl
  | some current =>
    -- The reader has left the archive, so there is room for the state that was current.
    have room : ¬ maxArchivedStates < (current :: (before ++ behind)).length := by
      rw [List.length_cons, List.length_append]
      omega
    simp only [if_neg room]
    rfl

theorem states_of_current {current : SessionState} (present : record.current = some current) :
    record.states = current :: record.archived := by
  rw [states, present]
  rfl

theorem readArchived_of_reader (few : record.archived.length ≤ maxArchivedStates) (currentFault : Option Fault)
    (archived : record.archived = before ++ reader :: behind)
    (tried : ∀ earlier ∈ before, ∃ fault, earlier.Fails peer message fault)
    (opens : reader.Opens peer message (SessionState.spend message before e) opened) :
    (record.readArchived peer message currentFault e).1 =
      .ok (⟨some opened.state, record.current.toList ++ (before ++ behind)⟩, opened) := by
  have found := SessionState.readFirst_of_reader tried opens 0 behind
  rw [← archived, Nat.zero_add] at found
  rw [readArchived]
  rcases run : SessionState.readFirst message 0 record.archived e with ⟨_ | found', left⟩
  · rw [run] at found
    cases found
  · rw [run] at found
    cases found
    dsimp only
    rw [restore_of_split few archived]

theorem FirstReads.read (reads_first : record.FirstReads peer message e before reader behind opened)
    (few : record.archived.length ≤ maxArchivedStates) :
    (record.read peer message e).1 = .ok (⟨some opened.state, before ++ behind⟩, opened) := by
  have states := reads_first.states
  unfold SessionRecord.read
  cases present : record.current with
  | none =>
    rw [SessionRecord.states, present] at states
    have archived := readArchived_of_reader few none states reads_first.tried reads_first.opens
    rw [present] at archived
    exact archived
  | some current =>
    rw [states_of_current present] at states
    cases before with
    | nil =>
      obtain ⟨rfl, rfl⟩ := List.cons.inj states
      have read : current.read message (e.pair 0) = .ok opened := SessionState.opens_iff.mp reads_first.opens
      simp only [read]
      rfl
    | cons first rest =>
      obtain ⟨rfl, archived⟩ := List.cons.inj states
      obtain ⟨⟨fault, fails⟩, tried⟩ := List.forall_mem_cons.mp reads_first.tried
      have opens := reads_first.opens
      rw [SessionState.spend_cons] at opens
      have tried := readArchived_of_reader few (some fault) archived tried opens
      rw [present] at tried
      simp only [fails.read]
      cases fault with
      | duplicate index counter => exact absurd fails (reads_first.unrepeated current present index counter)
      | _ => exact tried

theorem readArchived_of_none (tried : ∀ state ∈ record.archived, ∃ fault, state.Fails peer message fault)
    (currentFault : Option Fault) (e : Entropy) :
    ∃ fault, (record.readArchived peer message currentFault e).1 = .error fault ∧
      currentFault.elim (record.archived.head?.elim (fault = .noSession peer) fun first => first.Fails peer message fault)
        fun first => fault = first := by
  obtain ⟨archivedFault, run, first⟩ := SessionState.readFirst_of_none tried 0 e
  refine ⟨(currentFault <|> archivedFault).getD (.noSession peer), ?_, ?_⟩
  · rcases found : SessionState.readFirst message 0 record.archived e with ⟨_ | _, _⟩
    · rw [found] at run
      cases run
      rw [readArchived, found]
    · rw [found] at run
      cases run
  · cases currentFault with
    | some fault => rfl
    | none =>
      cases newest : record.archived.head? with
      | none =>
        rw [newest] at first
        cases first
        rfl
      | some state =>
        rw [newest] at first
        obtain ⟨reason, rfl, fails⟩ := first
        exact fails

theorem read_of_none (tried : ∀ state ∈ record.states, ∃ fault, state.Fails peer message fault) (e : Entropy) :
    ∃ fault, (record.read peer message e).1 = .error fault ∧ record.Refuses peer message fault := by
  have archived : ∀ state ∈ record.archived, ∃ fault, state.Fails peer message fault :=
    fun state member => tried state (List.mem_append_right _ member)
  unfold SessionRecord.read
  cases present : record.current with
  | none =>
    obtain ⟨fault, run, first⟩ := readArchived_of_none archived none e
    refine ⟨fault, run, .inr tried, ?_⟩
    rw [states, present]
    exact first
  | some current =>
    have states := states_of_current present
    obtain ⟨fault, fails⟩ := tried current (states ▸ List.mem_cons_self)
    have refuses : record.Refuses peer message fault := ⟨.inr tried, by rw [states]; exact fails⟩
    obtain ⟨_, run, same⟩ := readArchived_of_none archived (some fault) (e.skip (current.draws message))
    rw [same] at run
    simp only [fails.read]
    cases fault with
    | duplicate index counter => exact ⟨_, rfl, refuses⟩
    | _ => exact ⟨_, run, refuses⟩

theorem read_of_repeated {current : SessionState} {index counter : UInt32} (present : record.current = some current)
    (fails : current.Fails peer message (.duplicate index counter)) (e : Entropy) :
    (record.read peer message e).1 = .error (.duplicate index counter) ∧
      record.Refuses peer message (.duplicate index counter) := by
  refine ⟨?_, .inl ⟨current, present, index, counter, fails⟩, ?_⟩
  · unfold SessionRecord.read
    simp only [present, fails.read]
  · rw [states_of_current present]
    exact fails

/-- A record reads a message with the first state that can, or refuses it. -/
theorem read_cases (record : SessionRecord) (few : record.archived.length ≤ maxArchivedStates) (peer : Address)
    (message : RatchetMessage) (e : Entropy) :
    (∃ before reader behind opened, record.FirstReads peer message e before reader behind opened ∧
      (record.read peer message e).1 = .ok (⟨some opened.state, before ++ behind⟩, opened)) ∨
    ∃ fault, record.Refuses peer message fault ∧ (record.read peer message e).1 = .error fault := by
  by_cases repeated : ∃ current ∈ record.current, ∃ index counter, current.Fails peer message (.duplicate index counter)
  · obtain ⟨current, present, index, counter, fails⟩ := repeated
    obtain ⟨run, refuses⟩ := read_of_repeated present fails e
    exact .inr ⟨_, refuses, run⟩
  · rcases SessionState.first_reader record.states peer message e with
      tried | ⟨before, reader, behind, opened, states, tried, opens⟩
    · obtain ⟨fault, run, refuses⟩ := read_of_none tried e
      exact .inr ⟨fault, refuses, run⟩
    · have reads_first : record.FirstReads peer message e before reader behind opened :=
        ⟨states, tried, fun current present index counter fails => repeated ⟨current, present, index, counter, fails⟩, opens⟩
      exact .inl ⟨before, reader, behind, opened, reads_first, reads_first.read few⟩

theorem FirstReads.not_refuses {fault : Fault} (reads_first : record.FirstReads peer message e before reader behind opened) :
    ¬ record.Refuses peer message fault := by
  rintro ⟨⟨current, present, index, counter, repeated⟩ | failed, -⟩
  · exact reads_first.unrepeated current present index counter repeated
  · obtain ⟨reason, fails⟩ := failed reader (by rw [reads_first.states]; simp)
    have reads := SessionState.opens_iff.mp reads_first.opens
    rw [fails.read] at reads
    cases reads

theorem Refuses.fault_unique {fault fault' : Fault} (refuses : record.Refuses peer message fault)
    (refuses' : record.Refuses peer message fault') : fault = fault' := by
  have first := refuses.first
  have first' := refuses'.first
  cases head : record.states.head? with
  | none =>
    rw [head] at first first'
    exact first.trans first'.symm
  | some state =>
    rw [head] at first first'
    have pair := (Entropy.pair { stream := fun _ => 0 } 0)
    exact Except.error.inj ((first.read pair).symm.trans (first'.read pair))

/-- What it takes for a record to read a message, and the record afterwards. -/
theorem read_ok_iff (record : SessionRecord) (few : record.archived.length ≤ maxArchivedStates) {after : SessionRecord} :
    (record.read peer message e).1 = .ok (after, opened) ↔ ∃ before reader behind,
      record.FirstReads peer message e before reader behind opened ∧ after = ⟨some opened.state, before ++ behind⟩ := by
  constructor
  · intro read
    rcases record.read_cases few peer message e with ⟨before, reader, behind, opened', reads_first, made⟩ | ⟨fault, -, failed⟩
    · rw [made] at read
      cases read
      exact ⟨before, reader, behind, reads_first, rfl⟩
    · rw [failed] at read
      cases read
  · rintro ⟨before, reader, behind, reads_first, rfl⟩
    exact reads_first.read few

theorem read_error_iff (record : SessionRecord) (few : record.archived.length ≤ maxArchivedStates) {fault : Fault} :
    (record.read peer message e).1 = .error fault ↔ record.Refuses peer message fault := by
  constructor
  · intro failed
    rcases record.read_cases few peer message e with ⟨_, _, _, _, _, made⟩ | ⟨fault', refuses, made⟩
    · rw [made] at failed
      cases failed
    · rw [made] at failed
      cases failed
      exact refuses
  · intro refuses
    rcases record.read_cases few peer message e with ⟨_, _, _, _, reads_first, -⟩ | ⟨fault', refuses', made⟩
    · exact absurd refuses reads_first.not_refuses
    · rw [made, refuses.fault_unique refuses']

end SessionRecord

end DoubleRatchet
