import JsWaku.Runtime.TypedArray

/-!
# Messages

The message types of `packages/interfaces/src/message.ts`, and `DecodedMessage`, `Encoder` and `Decoder` of
`packages/core/src/lib/message/version_0.ts`. A `Date` is its time value in milliseconds, absent for an invalid date.
-/

namespace JsWaku

/-! ## Dates -/

/-- A JavaScript `Date`: its time value, `none` for an invalid date. -/
structure Date where
  time : Option ℤ
  deriving DecidableEq, Repr

/-- `new Date(Number(n))` for a bigint `n`. Where `Number` would round, the value is past the range of dates. -/
def Date.ofBigInt (n : ℤ) : Date := ⟨if n.natAbs ≤ 8640000000000000 then some n else none⟩

/-- `BigInt(date.valueOf())`. -/
def Date.toBigInt (date : Date) : Except JsError ℤ :=
  match date.time with
  | some t => .ok t
  | none => .error .rangeError

/-- Nanoseconds in a millisecond. -/
def OneMillion : ℤ := 1000000

/-! ## Message types -/

/-- `IRateLimitProof`. -/
structure IRateLimitProof where
  proof : Bytes
  merkleRoot : Bytes
  epoch : Bytes
  shareX : Bytes
  shareY : Bytes
  nullifier : Bytes
  rlnIdentifier : Bytes
  deriving DecidableEq, Repr

/-- `IProtoMessage`; its field `meta` is `metaField` here. -/
structure IProtoMessage where
  payload : Bytes
  contentTopic : String
  version : Option ℕ
  timestamp : Option ℤ
  metaField : Option Bytes
  rateLimitProof : Option IRateLimitProof
  ephemeral : Option Bool
  deriving DecidableEq, Repr

/-- `IMessage`. -/
structure IMessage where
  payload : Bytes
  timestamp : Option Date
  rateLimitProof : Option IRateLimitProof
  deriving DecidableEq, Repr

/-- `IMetaSetter`: user code, which may throw. -/
abbrev IMetaSetter := IProtoMessage → Except JsError Bytes

/-- The options that every encoder keeps. The constructors throw on an empty content topic. -/
structure EncoderFields where
  pubsubTopic : String
  contentTopic : String
  ephemeral : Bool
  metaSetter : Option IMetaSetter
  contentTopic_ne : contentTopic ≠ ""

/-- The common end of the three `toProtoObj`: the proto object around a payload, stamped with `timestamp`. -/
def EncoderFields.protoObj (enc : EncoderFields) (version : ℕ) (payload : Bytes) (timestamp : Date)
    (message : IMessage) : Except JsError IProtoMessage := do
  let millis ← timestamp.toBigInt
  let protoMessage : IProtoMessage :=
    { payload, version := some version, contentTopic := enc.contentTopic, timestamp := some (millis * OneMillion),
      metaField := none, rateLimitProof := message.rateLimitProof, ephemeral := some enc.ephemeral }
  match enc.metaSetter with
  | some metaSetter => do
    let bytes ← metaSetter protoMessage
    return { protoMessage with metaField := some bytes }
  | none => return protoMessage

/-- The payload and version of the proto object are those it was made with. -/
theorem EncoderFields.protoObj_spec {enc : EncoderFields} {version : ℕ} {payload : Bytes} {timestamp : Date}
    {message : IMessage} {proto : IProtoMessage} (h : enc.protoObj version payload timestamp message = .ok proto) :
    proto.payload = payload ∧ proto.version = some version := by
  obtain ⟨millis, -, h⟩ := bind_eq_ok.1 h
  cases hm : enc.metaSetter with
  | none => rw [hm] at h; cases h; exact ⟨rfl, rfl⟩
  | some metaSetter =>
    rw [hm] at h
    obtain ⟨bytes, -, h⟩ := bind_eq_ok.1 h
    cases h; exact ⟨rfl, rfl⟩

/-! ## Version 0 -/

namespace Version0

/-- `Version`. -/
def Version : ℕ := 0

/-- `DecodedMessage`. -/
structure DecodedMessage where
  pubsubTopic : String
  proto : IProtoMessage
  deriving DecidableEq, Repr

namespace DecodedMessage

variable (d : DecodedMessage)

/-- `get payload`. -/
def payload : Bytes := d.proto.payload

/-- `get contentTopic`. -/
def contentTopic : String := d.proto.contentTopic

/-- `get timestamp`: nanoseconds truncated to milliseconds; a zero timestamp is taken as absent. -/
def timestamp : Option Date :=
  match d.proto.timestamp with
  | some t => if t = 0 then none else some (Date.ofBigInt (t.tdiv OneMillion))
  | none => none

/-- `get meta`. -/
def metaField : Option Bytes := d.proto.metaField

/-- `get version`. -/
def version : ℕ := d.proto.version.getD 0

end DecodedMessage

/-- `Encoder.toProtoObj`; `now` is the current time. -/
def Encoder.toProtoObj (enc : EncoderFields) (now : Date) (message : IMessage) : Except JsError IProtoMessage :=
  enc.protoObj Version message.payload (message.timestamp.getD now) message

/-- `Decoder.fromProtoObj`. The test in the code reads `proto.version ?? (0 !== Version)`. -/
def Decoder.fromProtoObj (pubsubTopic : String) (proto : IProtoMessage) : Option DecodedMessage :=
  let rejected := match proto.version with
    | some version => version != 0
    | none => 0 != Version
  if rejected then none else some ⟨pubsubTopic, proto⟩

end Version0

end JsWaku
