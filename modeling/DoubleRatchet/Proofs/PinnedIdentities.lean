import DoubleRatchet.Proofs.Session.Ledger

/-! Identities over whole runs. Whatever bundles and messages come in, and in whichever directions trust is denied meanwhile,
the identity that has once been saved for a peer is the one that stays. -/
namespace DoubleRatchet

/-- What happens to a device: the library does something, or the application says in which directions it trusts nobody. -/
inductive Move where
  | performs (action : Action)
  | denies (directions : List Direction)

/-- Takes moves one after another: the outcomes of the actions among them, and the state after all. -/
def Move.takeAll {σ : Type} (perform : Action → ExceptT Fault (StateM σ) Outcome) (deny : List Direction → σ → σ) :
    List Move → σ → List (Except Fault Outcome) × σ
  | [], state => ([], state)
  | performs action :: rest, state =>
    let (outcome, state) := perform action state
    let (outcomes, state) := takeAll perform deny rest state
    (outcome :: outcomes, state)
  | denies directions :: rest, state => takeAll perform deny rest (deny directions state)

def Device.deny (directions : List Direction) (device : Device) : Device :=
  { device with stores := { device.stores with denied := directions } }

def Device.goThrough (device : Device) (moves : List Move) : List (Except Fault Outcome) × Device :=
  Move.takeAll Action.perform Device.deny moves device

def Ledger.goThrough (ledger : Ledger) (moves : List Move) : List (Except Fault Outcome) × Ledger :=
  Move.takeAll Action.perform (fun directions ledger => { ledger with device := ledger.device.deny directions }) moves ledger

theorem Device.goThrough_append (device : Device) (before after : List Move) :
    (device.goThrough (before ++ after)).2 = ((device.goThrough before).2.goThrough after).2 := by
  induction before generalizing device with
  | nil => rfl
  | cons move rest ih =>
    cases move with
    | performs action => exact ih _
    | denies directions => exact ih _

theorem Ledger.goThrough_performs (ledger : Ledger) (action : Action) (rest : List Move) :
    let taken := (action.perform : OnLedger Outcome) ledger
    ledger.goThrough (.performs action :: rest) = (taken.1 :: (taken.2.goThrough rest).1, (taken.2.goThrough rest).2) := rfl

/-- All moves are taken on a ledger as on the device alone, and no save replaces another identity. -/
theorem Ledger.goThrough_follows (ledger : Ledger) (moves : List Move) : ∃ saves,
    ledger.goThrough moves = ((ledger.device.goThrough moves).1, ⟨(ledger.device.goThrough moves).2, ledger.saves ++ saves⟩) ∧
      Harmless ledger.device.stores.identities saves (ledger.device.goThrough moves).2.stores.identities := by
  induction moves generalizing ledger with
  | nil => exact ⟨[], by rw [List.append_nil]; rfl, .nil⟩
  | cons move rest ih =>
    cases move with
    | denies directions => exact ih { ledger with device := ledger.device.deny directions }
    | performs action =>
      -- The rest is taken on a ledger that has the saves of the action already.
      obtain ⟨saves, run, harmless, -⟩ := action.perform_follows ledger trivial
      obtain ⟨later, run', harmless'⟩ :=
        ih ⟨((action.perform : OnDevice Outcome) ledger.device).2, ledger.saves ++ saves⟩
      refine ⟨saves ++ later, ?_, harmless.append harmless'⟩
      rw [goThrough_performs, run, run', List.append_assoc]
      rfl

theorem Device.goThrough_kept (device : Device) (moves : List Move) {peer : Address} {saved : PublicKey}
    (held : device.stores.identities[peer]? = some saved) : (device.goThrough moves).2.stores.identities[peer]? = some saved := by
  obtain ⟨_, _, harmless⟩ := Ledger.goThrough_follows ⟨device, []⟩ moves
  exact harmless.kept peer saved held

/-- An identity that is saved for a peer at some point of a run is saved for it from then on, and no call that saves an
identity in the run replaces another one. -/
theorem pinned_identities_never_change (device : Device) (moves : List Move) :
    ∃ saves, (⟨device, []⟩ : Ledger).goThrough moves = ((device.goThrough moves).1, ⟨(device.goThrough moves).2, saves⟩) ∧
      (∀ save ∈ saves, ∀ previous, save.previous = some previous → previous = save.identity) ∧
      ∀ before after, moves = before ++ after → ∀ (peer : Address) (saved : PublicKey),
        (device.goThrough before).2.stores.identities[peer]? = some saved →
        (device.goThrough moves).2.stores.identities[peer]? = some saved := by
  obtain ⟨saves, run, harmless⟩ := Ledger.goThrough_follows ⟨device, []⟩ moves
  refine ⟨saves, run, harmless.spared, ?_⟩
  rintro before after rfl peer saved held
  rw [device.goThrough_append]
  exact Device.goThrough_kept _ after held

/-- The identity that a first handshake claims is saved. A second handshake, which a stranger claims to be from the same
peer, is refused, and nothing more is saved. -/
theorem pinned_identities_never_change_for_stranger :
    let stranger := Sample.publicKey 9
    let forged := PreKeyMessage.create 3 1 none 1 stranger stranger Sample.outdated
    let first : Move := .performs (.accept Sample.initiator .fresh (Sample.hello 3))
    let moves : List Move := [first, .denies [.sending], .performs (.accept Sample.initiator .fresh forged)]
    ((⟨Sample.responding, []⟩ : Ledger).goThrough moves).2.saves.length = 1 ∧
      (Sample.responding.goThrough moves).2.stores.identities[Sample.initiator]? = some Sample.identity.publicKey := by
  intro stranger forged first moves
  have saved : (Sample.responding.goThrough [first]).2.stores.identities[Sample.initiator]? = some Sample.identity.publicKey := by
    decide +kernel
  have noted : ((⟨Sample.responding, []⟩ : Ledger).goThrough moves).2.saves.length = 1 := by
    decide +kernel
  obtain ⟨-, -, -, stays⟩ := pinned_identities_never_change Sample.responding moves
  exact ⟨noted, stays [first] _ rfl Sample.initiator _ saved⟩

end DoubleRatchet
