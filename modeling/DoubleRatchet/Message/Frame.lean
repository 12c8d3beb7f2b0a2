import DoubleRatchet.Fault
import DoubleRatchet.Protobuf.Schema

/-!
What the four kinds of messages have in common: a digit for the version, a body encoded by a schema, and for
some kinds a trailer of fixed length.
-/
namespace DoubleRatchet.Frame

open Protobuf

/-- The version of the messages of new sessions. -/
def currentVersion : UInt8 := 3

def write {M : Type} (version : UInt8) (schema : Schema M) (body : M) : Bytes :=
  (48 + version) :: schema.encode body

/-- The version that a first byte gives, if it is one that is still, and already, supported. -/
def readVersion (digit : UInt8) : Except Fault UInt8 :=
  if digit < 48 ∨ 57 < digit then .error .malformedBody
  else
    let version := digit - 48
    if version ≤ 1 then .error (.legacyVersion version)
    else if currentVersion < version then .error (.futureVersion version)
    else .ok version

/-- A message taken apart: what the trailer covers, byte for byte, and what was read of it. -/
structure Parts (M : Type) (trailerLength : Nat) where
  content : Bytes
  trailer : FixedBytes trailerLength
  version : UInt8
  body : M

def read {M : Type} (schema : Schema M) (trailerLength : Nat) (bytes : Bytes) :
    Except Fault (Parts M trailerLength) :=
  if h : bytes.length < 1 + trailerLength then .error (.messageTooShort bytes.length)
  else do
    let content := bytes.take (bytes.length - trailerLength)
    let version ← readVersion (content.headD 0)
    match schema.decode? content.tail with
    | none => .error .undecodableBody
    | some body =>
      .ok { content, trailer := ⟨bytes.drop (bytes.length - trailerLength), by simp; omega⟩, version, body }

def required {A : Type} (name : String) : Option A → Except Fault A
  | some a => .ok a
  | none => .error (.missingField name)

end DoubleRatchet.Frame
