import DoubleRatchet.Proofs.Checks
import DoubleRatchet.Proofs.Transmission
import Mathlib.Data.List.DropRight

/-! Which byte strings are messages, and why the others are not. Each kind of message has its form: the digit of a
supported version, an encoded body with all that the kind requires, and a trailer. Whatever does not have that form is
refused for the first thing that is amiss, in the order length, digit, version, body, and then part by part. -/
namespace DoubleRatchet

open Protobuf

/-! ## Forms -/

/-- A byte string is the digit of a supported version, an encoded body, and a trailer. -/
structure Frame.Spells {M : Type} (schema : Schema M) (bytes : Bytes) (version : UInt8) (body : M)
    (content trailer : Bytes) : Prop where
  whole : bytes = content ++ trailer
  content : ∃ encoded, content = (48 + version) :: encoded ∧ schema.decode? encoded = some body
  supported : version = 2 ∨ version = 3

/-- The form of a message of a session: the ratchet key and the ciphertext are there. -/
def RatchetMessage.Spelled (message : RatchetMessage) (bytes : Bytes) : Prop :=
  ∃ body : Body, Frame.Spells schema bytes message.version body message.content message.mac.bytes ∧
    body.ratchetKey = some message.ratchetKey.serialize ∧ body.ciphertext = some message.body ∧
    message.counter = body.counter.getD 0 ∧ message.previousCounter = body.previousCounter.getD 0

/-- The form of a message that opens a session: both keys are there, and a message of the session. -/
def PreKeyMessage.Spelled (message : PreKeyMessage) (bytes : Bytes) : Prop :=
  ∃ body : Body, Frame.Spells schema bytes message.version body message.serialized [] ∧
    body.baseKey = some message.baseKey.serialize ∧ body.identityKey = some message.identityKey.serialize ∧
    (∃ inner, body.message = some inner ∧ message.message.Spelled inner) ∧ message.preKeyId = body.preKeyId ∧
    message.registrationId = body.registrationId.getD 0 ∧ message.signedPreKeyId = body.signedPreKeyId.getD 0

/-- The form of a message to a group: the number of the chain and the ciphertext are there. -/
def GroupMessage.Spelled (message : GroupMessage) (bytes : Bytes) : Prop :=
  ∃ body : Body, Frame.Spells schema bytes message.version body message.content message.signature.bytes ∧
    body.keyId = some message.keyId ∧ body.ciphertext = some message.ciphertext ∧
    message.iteration = body.iteration.getD 0

/-- The form of a message that distributes a chain: its number, its key of 32 bytes and the signing key are there. -/
def KeyDistribution.Spelled (message : KeyDistribution) (bytes : Bytes) : Prop :=
  ∃ body : Body, Frame.Spells schema bytes message.version body message.serialized [] ∧
    body.keyId = some message.keyId ∧ body.chainKey = some message.chainKey ∧ message.chainKey.length = 32 ∧
    body.signingKey = some message.signingKey.serialize ∧ message.iteration = body.iteration.getD 0

def Message.Spelled (bytes : Bytes) : Message → Prop
  | ratchet message => message.Spelled bytes
  | preKey message => message.Spelled bytes
  | group message => message.Spelled bytes
  | distribution message => message.Spelled bytes

/-! ## Checks -/

/-- What a stored key must be: the type byte and 32 bytes. -/
def PublicKey.checks (bytes : Bytes) : List Check := [
  ⟨bytes ≠ [], .emptyKey⟩,
  ⟨bytes.head? = some typeByte, .badKeyType (bytes.headD 0)⟩,
  ⟨bytes.length = 33, .badKeyLength bytes.length⟩]

namespace Frame

/-- What stands between the digit and the trailer. -/
def inside (trailerLength : Nat) (bytes : Bytes) : Bytes := (bytes.rdrop trailerLength).tail

/-- What the body says, if it can be decoded. -/
def bodyOf {M : Type} (schema : Schema M) (trailerLength : Nat) (bytes : Bytes) : M :=
  (schema.decode? (inside trailerLength bytes)).getD schema.empty

/-- What all messages with a trailer of some length must be: long enough, with a digit first, of a version that is still
supported and not too new, and with a body that can be decoded. -/
def checks {M : Type} (schema : Schema M) (trailerLength : Nat) (bytes : Bytes) : List Check :=
  let digit := bytes.headD 0
  [⟨1 + trailerLength ≤ bytes.length, .messageTooShort bytes.length⟩,
    ⟨48 ≤ digit ∧ digit ≤ 57, .malformedBody⟩,
    ⟨50 ≤ digit, .legacyVersion (digit - 48)⟩,
    ⟨digit ≤ 51, .futureVersion (digit - 48)⟩,
    ⟨(schema.decode? (inside trailerLength bytes)).isSome, .undecodableBody⟩]

/-- A field that must be there. -/
def field {A : Type} (name : String) (value : Option A) : Check := ⟨value.isSome, .missingField name⟩

end Frame

def RatchetMessage.checks (bytes : Bytes) : List Check :=
  let body := Frame.bodyOf schema 8 bytes
  Frame.checks schema 8 bytes ++ [Frame.field "ratchet key" body.ratchetKey] ++
    PublicKey.checks (body.ratchetKey.getD []) ++ [Frame.field "ciphertext" body.ciphertext]

def PreKeyMessage.checks (bytes : Bytes) : List Check :=
  let body := Frame.bodyOf schema 0 bytes
  Frame.checks schema 0 bytes ++ [Frame.field "base key" body.baseKey, Frame.field "identity key" body.identityKey,
    Frame.field "message" body.message] ++ PublicKey.checks (body.baseKey.getD []) ++
    PublicKey.checks (body.identityKey.getD []) ++ RatchetMessage.checks (body.message.getD [])

def GroupMessage.checks (bytes : Bytes) : List Check :=
  let body := Frame.bodyOf schema 64 bytes
  Frame.checks schema 64 bytes ++ [Frame.field "key id" body.keyId, Frame.field "ciphertext" body.ciphertext]

def KeyDistribution.checks (bytes : Bytes) : List Check :=
  let body := Frame.bodyOf schema 0 bytes
  Frame.checks schema 0 bytes ++ [Frame.field "key id" body.keyId, Frame.field "chain key" body.chainKey,
    Frame.field "signing key" body.signingKey, ⟨(body.chainKey.getD []).length = 32, .malformedBody⟩] ++
    PublicKey.checks (body.signingKey.getD [])

/-- What a message of a kind must be, in the order in which it is found out. -/
def Message.Kind.checks : Message.Kind → Bytes → List Check
  | ratchet => RatchetMessage.checks
  | preKey => PreKeyMessage.checks
  | group => GroupMessage.checks
  | distribution => KeyDistribution.checks

/-! ## Reading keys and frames -/

theorem PublicKey.deserialize_guard (bytes : Bytes) : Check.Guard (checks bytes) (deserialize bytes) := by
  intro fault
  cases bytes with
  | nil => simp [deserialize, checks, Check.first?]
  | cons tag body =>
    by_cases typed : tag = typeByte
    · by_cases length : body.length = 32
      · simp [deserialize, checks, Check.first?, typed, FixedBytes.ofBytes?, length]
      · simp [deserialize, checks, Check.first?, typed, FixedBytes.ofBytes?, length]
    · simp [deserialize, checks, Check.first?, typed]

namespace Frame

theorem readVersion_eq_ok {digit version : UInt8} :
    readVersion digit = .ok version ↔ digit = 48 + version ∧ (version = 2 ∨ version = 3) := by
  constructor
  · intro run
    unfold readVersion at run
    split at run
    · cases run
    · dsimp only at run
      split at run
      · cases run
      · split at run
        · cases run
        · cases run
          simp only [currentVersion] at *
          grind
  · rintro ⟨rfl, supported⟩
    exact readVersion_digit supported

theorem readVersion_guard (digit : UInt8) : Check.Guard
    [⟨48 ≤ digit ∧ digit ≤ 57, .malformedBody⟩, ⟨50 ≤ digit, .legacyVersion (digit - 48)⟩,
      ⟨digit ≤ 51, .futureVersion (digit - 48)⟩] (readVersion digit) := by
  intro fault
  unfold readVersion
  simp only [Check.first?, decide_eq_true_eq, currentVersion]
  grind

theorem field_guard {A : Type} (name : String) (value : Option A) : Check.Guard [field name value] (required name value) := by
  intro fault
  cases value <;> simp [required, field, Check.first?]

theorem required_eq_ok {A : Type} {name : String} {value : Option A} {a : A} :
    required name value = .ok a ↔ value = some a := by
  cases value <;> simp [required]

@[simp] theorem rdrop_append {n : Nat} (content : Bytes) (trailer : FixedBytes n) :
    (content ++ trailer.bytes).rdrop n = content := by
  simp [List.rdrop, trailer.length_bytes]

@[simp] theorem rtake_append {n : Nat} (content : Bytes) (trailer : FixedBytes n) :
    (content ++ trailer.bytes).rtake n = trailer.bytes := by
  simp [List.rtake, trailer.length_bytes]

variable {M : Type} {schema : Schema M} {n : Nat} {bytes : Bytes}

theorem read_eq_ok_iff {parts : Parts M n} : read schema n bytes = .ok parts ↔
    Spells schema bytes parts.version parts.body parts.content parts.trailer.bytes := by
  constructor
  · intro run
    have whole := (content_append_trailer run).symm
    unfold read at run
    split at run
    · cases run
    · rename_i long
      obtain ⟨version, digit, run⟩ := bind_eq_ok.mp run
      split at run
      · cases run
      · rename_i body decoded
        cases run
        obtain ⟨first, supported⟩ := readVersion_eq_ok.mp digit
        refine ⟨whole, ⟨_, ?_, decoded⟩, supported⟩
        cases content : bytes.take (bytes.length - n) with
        | nil =>
          have := congrArg List.length content
          simp only [List.length_take, List.length_nil] at this
          omega
        | cons head rest =>
          rw [content] at first
          rw [← first]
          rfl
  · rintro ⟨whole, ⟨encoded, content, decoded⟩, supported⟩
    have length : bytes.length = encoded.length + 1 + n := by
      rw [whole, content, List.length_append, parts.trailer.length_bytes, List.length_cons]
    have enough : ¬ bytes.length < 1 + n := by omega
    have taken : bytes.take (bytes.length - n) = parts.content := whole ▸ rdrop_append _ _
    have dropped : bytes.drop (bytes.length - n) = parts.trailer.bytes := whole ▸ rtake_append _ _
    rw [read, dif_neg enough]
    simp only [taken, dropped]
    rw [content]
    simp only [List.headD_cons, List.tail_cons, readVersion_digit supported, decoded]
    simp only [← content]
    rfl

theorem Spells.read {version : UInt8} {body : M} {content : Bytes} {trailer : FixedBytes n}
    (spells : Spells schema bytes version body content trailer.bytes) :
    Frame.read schema n bytes = .ok ⟨content, trailer, version, body⟩ :=
  read_eq_ok_iff.mpr spells

/-- A message without a trailer is all content. -/
theorem spells_of_read {parts : Parts M 0} (run : read schema 0 bytes = .ok parts) :
    Spells schema bytes parts.version parts.body bytes [] := by
  have spells := read_eq_ok_iff.mp run
  have bare := List.eq_nil_of_length_eq_zero parts.trailer.length_bytes
  have whole : bytes = parts.content := by rw [spells.whole, bare, List.append_nil]
  rwa [bare, ← whole] at spells

theorem Spells.read_bare {version : UInt8} {body : M} {content : Bytes} (spells : Spells schema bytes version body content []) :
    Frame.read schema 0 bytes = .ok ⟨content, ⟨[], rfl⟩, version, body⟩ ∧ content = bytes := by
  have read : Frame.read schema 0 bytes = .ok ⟨content, ⟨[], rfl⟩, version, body⟩ := Spells.read spells
  exact ⟨read, by rw [spells.whole, List.append_nil]⟩

theorem bodyOf_of_read {parts : Parts M n} (run : read schema n bytes = .ok parts) : bodyOf schema n bytes = parts.body := by
  obtain ⟨whole, ⟨encoded, content, decoded⟩, -⟩ := read_eq_ok_iff.mp run
  rw [bodyOf, inside, whole, rdrop_append, content, List.tail_cons, decoded, Option.getD_some]

theorem read_guard : Check.Guard (checks schema n bytes) (read schema n bytes) := by
  refine .cons (fun short => ?_) fun long => ?_
  · rw [decide_eq_false_iff_not, Nat.not_le] at short
    rw [read, dif_pos short]
  · rw [decide_eq_true_eq] at long
    have digit : (bytes.take (bytes.length - n)).headD 0 = bytes.headD 0 := by
      cases bytes with
      | nil => simp at long
      | cons first rest =>
        rw [List.length_cons, Nat.succ_sub (by simp at long; omega)]
        rfl
    rw [read, dif_neg (Nat.not_lt.mpr long)]
    have body : (bytes.take (bytes.length - n)).tail = inside n bytes := rfl
    simp only [digit, body]
    refine (readVersion_guard (bytes.headD 0)).bind fun version _ => ?_
    cases schema.decode? (inside n bytes) with
    | none => exact .cons (fun _ => rfl) fun met => absurd met Bool.false_ne_true
    | some body => exact .cons (fun unmet => absurd unmet.symm Bool.false_ne_true) fun _ => .ok _

end Frame

/-! ## The four kinds -/

namespace RatchetMessage

theorem parse_guard (bytes : Bytes) : Check.Guard (checks bytes) (parse bytes) := by
  simp only [checks, List.append_assoc]
  refine Frame.read_guard.bind fun parts run => ?_
  rw [Frame.bodyOf_of_read run]
  refine (Frame.field_guard "ratchet key" parts.body.ratchetKey).bind fun key found => ?_
  rw [Frame.required_eq_ok.mp found]
  exact (PublicKey.deserialize_guard key).bind fun _ _ => (Frame.field_guard "ciphertext" parts.body.ciphertext).map _

theorem parse_eq_ok {bytes : Bytes} {message : RatchetMessage} : parse bytes = .ok message ↔ message.Spelled bytes := by
  constructor
  · intro run
    simp only [parse, bind_eq_ok, Frame.required_eq_ok, PublicKey.deserialize_eq_ok] at run
    obtain ⟨parts, read, key, found, ratchetKey, rfl, ciphertext, carried, made⟩ := run
    cases made
    exact ⟨parts.body, Frame.read_eq_ok_iff.mp read, found, carried, rfl, rfl⟩
  · rintro ⟨body, spells, found, carried, counter, previousCounter⟩
    simp only [parse, bind_eq_ok, Frame.required_eq_ok, PublicKey.deserialize_eq_ok]
    refine ⟨_, spells.read, _, found, _, rfl, _, carried, ?_⟩
    rw [← counter, ← previousCounter]
    rfl

end RatchetMessage

namespace PreKeyMessage

theorem parse_guard (bytes : Bytes) : Check.Guard (checks bytes) (parse bytes) := by
  simp only [checks, List.append_assoc]
  refine Frame.read_guard.bind fun parts run => ?_
  rw [Frame.bodyOf_of_read run]
  refine (Frame.field_guard "base key" parts.body.baseKey).bind fun baseKey found => ?_
  refine (Frame.field_guard "identity key" parts.body.identityKey).bind fun identityKey found' => ?_
  refine (Frame.field_guard "message" parts.body.message).bind fun inner carried => ?_
  rw [Frame.required_eq_ok.mp found, Frame.required_eq_ok.mp found', Frame.required_eq_ok.mp carried]
  refine (PublicKey.deserialize_guard baseKey).bind fun _ _ => ?_
  exact (PublicKey.deserialize_guard identityKey).bind fun _ _ => (RatchetMessage.parse_guard inner).map _

theorem parse_eq_ok {bytes : Bytes} {message : PreKeyMessage} : parse bytes = .ok message ↔ message.Spelled bytes := by
  constructor
  · intro run
    simp only [parse, bind_eq_ok, Frame.required_eq_ok, PublicKey.deserialize_eq_ok, RatchetMessage.parse_eq_ok] at run
    obtain ⟨parts, read, _, base, _, identity, inner, carried, _, rfl, _, rfl, _, spelled, made⟩ := run
    cases made
    exact ⟨parts.body, Frame.spells_of_read read, base, identity, ⟨inner, carried, spelled⟩, rfl, rfl, rfl⟩
  · rintro ⟨body, spells, base, identity, ⟨inner, carried, spelled⟩, preKeyId, registrationId, signedPreKeyId⟩
    obtain ⟨read, serialized⟩ := spells.read_bare
    simp only [parse, bind_eq_ok, Frame.required_eq_ok, PublicKey.deserialize_eq_ok, RatchetMessage.parse_eq_ok]
    refine ⟨_, read, _, base, _, identity, inner, carried, _, rfl, _, rfl, _, spelled, ?_⟩
    rw [← preKeyId, ← registrationId, ← signedPreKeyId, ← serialized]
    rfl

end PreKeyMessage

namespace GroupMessage

theorem parse_guard (bytes : Bytes) : Check.Guard (checks bytes) (parse bytes) := by
  simp only [checks]
  refine Frame.read_guard.bind fun parts run => ?_
  rw [Frame.bodyOf_of_read run]
  exact (Frame.field_guard "key id" parts.body.keyId).bind fun _ _ =>
    (Frame.field_guard "ciphertext" parts.body.ciphertext).map _

theorem parse_eq_ok {bytes : Bytes} {message : GroupMessage} : parse bytes = .ok message ↔ message.Spelled bytes := by
  constructor
  · intro run
    simp only [parse, bind_eq_ok, Frame.required_eq_ok] at run
    obtain ⟨parts, read, keyId, numbered, ciphertext, carried, made⟩ := run
    cases made
    exact ⟨parts.body, Frame.read_eq_ok_iff.mp read, numbered, carried, rfl⟩
  · rintro ⟨body, spells, numbered, carried, iteration⟩
    simp only [parse, bind_eq_ok, Frame.required_eq_ok]
    refine ⟨_, spells.read, _, numbered, _, carried, ?_⟩
    rw [← iteration]
    rfl

end GroupMessage

namespace KeyDistribution

theorem parse_guard (bytes : Bytes) : Check.Guard (checks bytes) (parse bytes) := by
  simp only [checks, List.append_assoc]
  refine Frame.read_guard.bind fun parts run => ?_
  rw [Frame.bodyOf_of_read run]
  refine (Frame.field_guard "key id" parts.body.keyId).bind fun keyId _ => ?_
  refine (Frame.field_guard "chain key" parts.body.chainKey).bind fun chainKey found => ?_
  refine (Frame.field_guard "signing key" parts.body.signingKey).bind fun signingKey found' => ?_
  rw [Frame.required_eq_ok.mp found, Frame.required_eq_ok.mp found']
  refine .cons (fun unmet => ?_) fun met => ?_
  · rw [decide_eq_false_iff_not] at unmet
    exact if_pos unmet
  · rw [decide_eq_true_eq, Option.getD_some] at met
    dsimp only
    rw [if_neg (not_not.mpr met)]
    exact (PublicKey.deserialize_guard signingKey).map _

theorem parse_eq_ok {bytes : Bytes} {message : KeyDistribution} : parse bytes = .ok message ↔ message.Spelled bytes := by
  constructor
  · intro run
    simp only [parse, bind_eq_ok, Frame.required_eq_ok] at run
    obtain ⟨parts, read, keyId, numbered, chainKey, found, signingKey, found', run⟩ := run
    split at run
    · cases run
    · rename_i length
      obtain ⟨key, stored, made⟩ := bind_eq_ok.mp run
      cases made
      rw [PublicKey.deserialize_eq_ok.mp stored] at found'
      exact ⟨parts.body, Frame.spells_of_read read, numbered, found, not_not.mp length, found', rfl⟩
  · rintro ⟨body, spells, numbered, found, length, found', iteration⟩
    obtain ⟨read, serialized⟩ := spells.read_bare
    simp only [parse, bind_eq_ok, Frame.required_eq_ok]
    refine ⟨_, read, _, numbered, _, found, _, found', ?_⟩
    rw [if_neg (not_not.mpr length), PublicKey.deserialize_serialize, ← iteration, ← serialized]
    rfl

end KeyDistribution

namespace Message

/-- How many bytes at the end of a message authenticate the rest. -/
def Kind.trailerLength : Kind → Nat
  | ratchet => 8
  | group => 64
  | preKey | distribution => 0

/-- What is authenticated of a message, and by what. -/
def split : Message → Bytes × Bytes
  | ratchet message => (message.content, message.mac.bytes)
  | group message => (message.content, message.signature.bytes)
  | preKey message => (message.serialized, [])
  | distribution message => (message.serialized, [])

theorem parse_guard (kind : Kind) (bytes : Bytes) : Check.Guard (kind.checks bytes) (parse kind bytes) := by
  cases kind with
  | ratchet => exact (RatchetMessage.parse_guard bytes).map ratchet
  | preKey => exact (PreKeyMessage.parse_guard bytes).map preKey
  | group => exact (GroupMessage.parse_guard bytes).map group
  | distribution => exact (KeyDistribution.parse_guard bytes).map distribution

theorem parse_eq_ok {kind : Kind} {bytes : Bytes} {message : Message} :
    parse kind bytes = .ok message ↔ message.kind = kind ∧ message.Spelled bytes := by
  cases kind <;> cases message <;>
    simp [parse, Message.kind, Spelled, bind_eq_ok, pure, Except.pure, RatchetMessage.parse_eq_ok, PreKeyMessage.parse_eq_ok,
      GroupMessage.parse_eq_ok, KeyDistribution.parse_eq_ok]

end Message

/-- What is framed is split where the trailer begins, which is after the digit. -/
theorem Frame.Spells.splits {M : Type} {schema : Schema M} {bytes : Bytes} {version : UInt8} {body : M} {content : Bytes}
    {n : Nat} {trailer : FixedBytes n} (spells : Spells schema bytes version body content trailer.bytes) :
    content ++ trailer.bytes = bytes ∧ n < bytes.length ∧ (content, trailer.bytes) = (bytes.rdrop n, bytes.rtake n) := by
  obtain ⟨whole, ⟨encoded, starts, -⟩, -⟩ := spells
  refine ⟨whole.symm, ?_, by rw [whole, rdrop_append, rtake_append]⟩
  rw [whole, starts, List.length_append, trailer.length_bytes, List.length_cons]
  omega

theorem Frame.Spells.splits_bare {M : Type} {schema : Schema M} {bytes : Bytes} {version : UInt8} {body : M} {content : Bytes}
    (spells : Spells schema bytes version body content []) :
    content = bytes ∧ 0 < bytes.length ∧ (content, []) = (bytes.rdrop 0, bytes.rtake 0) := by
  have bare : Spells schema bytes version body content (⟨[], rfl⟩ : FixedBytes 0).bytes := spells
  have splits := bare.splits
  rwa [List.append_nil] at splits

/-- Of every byte string it is settled which message of a kind it is. It is read as the message that it spells; if it
spells none, the first check that it does not meet is the fault; and what is read is the bytes themselves, which are longer
than the trailer and are divided there. -/
theorem messages_read_exactly (kind : Message.Kind) (bytes : Bytes) :
    (∀ message, Message.parse kind bytes = .ok message ↔ message.kind = kind ∧ message.Spelled bytes) ∧
    (∀ fault, Message.parse kind bytes = .error fault ↔ Check.first? (kind.checks bytes) = some fault) ∧
    ∀ message, Message.parse kind bytes = .ok message →
      message.serialized = bytes ∧ kind.trailerLength < bytes.length ∧
        message.split = (bytes.rdrop kind.trailerLength, bytes.rtake kind.trailerLength) := by
  refine ⟨fun message => Message.parse_eq_ok, Message.parse_guard kind bytes, fun message run => ?_⟩
  obtain ⟨rfl, spelled⟩ := Message.parse_eq_ok.mp run
  cases message with
  | ratchet message =>
    obtain ⟨_, spells, _⟩ := spelled
    exact spells.splits
  | preKey message =>
    obtain ⟨_, spells, _⟩ := spelled
    exact spells.splits_bare
  | group message =>
    obtain ⟨_, spells, _⟩ := spelled
    exact spells.splits
  | distribution message =>
    obtain ⟨_, spells, _⟩ := spelled
    exact spells.splits_bare

/-- Of a message that is too short nothing else is looked at. -/
example : Message.parse .ratchet (List.replicate 8 0) = .error (.messageTooShort 8) := rfl

end DoubleRatchet
