import DoubleRatchet.Group.State
import DoubleRatchet.Message.Distribution

/-!
The record of the chains of one sender to a group: those that the sender has distributed, or its own.
-/
namespace DoubleRatchet.Group

open Protobuf

def maxStates : Nat := 5

/-- The chains of a sender, the oldest first. -/
structure SenderKeyRecord where
  states : List SenderKeyState := []
  deriving DecidableEq

namespace SenderKeyRecord

def schema : Schema SenderKeyRecord where
  empty := {}
  slots := [.messages 1 SenderKeyState.schema states fun m v => { m with states := v }]

def encode (record : SenderKeyRecord) : Bytes := schema.encode record

def decode (bytes : Bytes) : Except Fault SenderKeyRecord :=
  match schema.decode? bytes with
  | some record => .ok record
  | none => .error .undecodableBody

def empty : SenderKeyRecord := {}

def isEmpty (record : SenderKeyRecord) : Bool := record.states.isEmpty

def current (record : SenderKeyRecord) : Except Fault SenderKeyState :=
  match record.states with
  | state :: _ => .ok state
  | [] => .error .noSenderKey

/-- The record with a new form of the chain that is sent on. -/
def updateCurrent (record : SenderKeyRecord) (state : SenderKeyState) : SenderKeyRecord :=
  { states := record.states.modify 0 fun _ => state }

/-- The place of the first chain with a number. -/
def find? (record : SenderKeyRecord) (keyId : UInt32) : Option (Nat × SenderKeyState) :=
  record.states.zipIdx.findSome? fun (state, place) => if state.keyId = keyId then some (place, state) else none

/-- The place of the first chain with a number, and a note if there is none. -/
def findNoting (record : SenderKeyRecord) (keyId : UInt32) : Act (Nat × SenderKeyState) :=
  match record.find? keyId with
  | some found => return found
  | none => do
    let known := ", ".intercalate (record.states.map fun state => toString state.keyId)
    note .error s!"no sender key state with id {keyId}, have [{known}]"
    throw .noSenderKey

/-- The record with a new form of the chain at a place. -/
def update (record : SenderKeyRecord) (place : Nat) (state : SenderKeyState) : SenderKeyRecord :=
  { states := record.states.set place state }

/-- A further chain; the oldest ones beyond the limit are given up. -/
def push (record : SenderKeyRecord) (state : SenderKeyState) : SenderKeyRecord :=
  let states := record.states ++ [state]
  { states := states.drop (states.length - maxStates) }

end SenderKeyRecord

end DoubleRatchet.Group
