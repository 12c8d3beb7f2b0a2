import DoubleRatchet.Act
import DoubleRatchet.Session.State

/-!
The record of the sessions with one peer: the current state and the archived ones, which can be brought back.
-/
namespace DoubleRatchet

open Protobuf

def maxArchivedStates : Nat := 40

structure SessionRecord where
  current : Option SessionState := none
  /-- The newest first. -/
  archived : List SessionState := []
  deriving DecidableEq

namespace SessionRecord

def schema : Schema SessionRecord where
  empty := {}
  slots := [
    .message 1 SessionState.schema current fun m v => { m with current := v },
    .messages 2 SessionState.schema archived fun m v => { m with archived := v }]

def encode (record : SessionRecord) : Bytes := schema.encode record

def decode (bytes : Bytes) : Except Fault SessionRecord :=
  match schema.decode? bytes with
  | some record => .ok record
  | none => .error .undecodableBody

def fresh : SessionRecord := {}

def isFresh (record : SessionRecord) : Bool := record.current.isNone

/-- All states, the current one first. -/
def states (record : SessionRecord) : List SessionState := record.current.toList ++ record.archived

/-- Whether the handshake with a base key has been answered already by a state of the version. -/
def hasStateFor (record : SessionRecord) (version : UInt32) (baseKey : PublicKey) : Bool :=
  record.states.any fun state => state.version == version && state.baseKey == baseKey.serialize

/-- The current state becomes the newest archived one, and the oldest beyond the limit is given up. -/
def archive (record : SessionRecord) : SessionRecord :=
  match record.current with
  | none => record
  | some state =>
    let archived := state :: record.archived
    { current := none
      archived := if maxArchivedStates < archived.length then archived.dropLast else archived }

/-- A new current state; the one before it is archived. -/
def install (record : SessionRecord) (state : SessionState) : SessionRecord :=
  { record.archive with current := some state }

/-- An archived state made current in a new form. -/
def restore (record : SessionRecord) (index : Nat) (state : SessionState) : SessionRecord :=
  { record with archived := record.archived.eraseIdx index }.install state

def noteArchiving (record : SessionRecord) : Act Unit :=
  if record.current.isNone then note .debug "nothing to archive, record is fresh"
  else if maxArchivedStates ≤ record.archived.length then note .info "dropped oldest archived session state"
  else pure ()

/-- The state that a look-up in the current chains needs. -/
def requireCurrent (record : SessionRecord) : Except Fault SessionState :=
  match record.current with
  | some state => .ok state
  | none => .error (.badState "chain key lookup" "fresh record")

def sendingChainKey (record : SessionRecord) : Except Fault Bytes := do
  return (← (← record.requireCurrent).sendingChainKey).key.bytes

/-- The key of the current receiving chain for a ratchet key. -/
def receivingChainKey? (record : SessionRecord) (ratchetKey : PublicKey) : Except Fault (Option Bytes) := do
  let key ← (← record.requireCurrent).receivingChainKey? ratchetKey
  return key.map (·.key.bytes)

/-- Whether the current state sends under a ratchet key. -/
def sendsUnder (record : SessionRecord) (ratchetKey : PublicKey) : Except Fault Bool :=
  match record.current with
  | some state => return (← state.ratchetKey) == ratchetKey
  | none => .ok false

def describe (record : SessionRecord) : String :=
  let current := match record.current with
    | some state => state.summary
    | none => "none"
  record.archived.zipIdx.foldl (fun text (state, index) => text ++ s!"\narchived {index}: {state.summary}")
    s!"current: {current}"

end SessionRecord

end DoubleRatchet
