import DoubleRatchet.Message.Distribution
import DoubleRatchet.Message.Group
import DoubleRatchet.Message.PreKey

/-!
The four kinds of messages as one type.
-/
namespace DoubleRatchet

inductive Message where
  | ratchet (message : RatchetMessage)
  | preKey (message : PreKeyMessage)
  | group (message : GroupMessage)
  | distribution (message : KeyDistribution)
  deriving DecidableEq

namespace Message

/-- The kinds, each with a number and a name. -/
inductive Kind where
  | ratchet
  | preKey
  | group
  | distribution
  deriving DecidableEq

namespace Kind

def number : Kind → Nat
  | ratchet => 2
  | preKey => 3
  | group => 4
  | distribution => 5

def ofNumber? : Nat → Option Kind
  | 2 => some ratchet
  | 3 => some preKey
  | 4 => some group
  | 5 => some distribution
  | _ => none

def name : Kind → String
  | ratchet => "Whisper"
  | preKey => "PreKey"
  | group => "SenderKey"
  | distribution => "SenderKeyDistribution"

end Kind

def kind : Message → Kind
  | ratchet _ => .ratchet
  | preKey _ => .preKey
  | group _ => .group
  | distribution _ => .distribution

def serialized : Message → Bytes
  | ratchet message => message.serialized
  | preKey message => message.serialized
  | group message => message.serialized
  | distribution message => message.serialized

def parse (kind : Kind) (bytes : Bytes) : Except Fault Message :=
  match kind with
  | .ratchet => return ratchet (← RatchetMessage.parse bytes)
  | .preKey => return preKey (← PreKeyMessage.parse bytes)
  | .group => return group (← GroupMessage.parse bytes)
  | .distribution => return distribution (← KeyDistribution.parse bytes)

end Message

end DoubleRatchet
