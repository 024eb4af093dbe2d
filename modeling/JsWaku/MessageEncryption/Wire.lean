import JsWaku.MessageEncryption.RoundTrip
import JsWaku.MessageHash
import JsWaku.Proto.WakuMessage
import JsWaku.Proto.WireFormat

/-!
# Messages on the wire

`toWire` of the encoders of `packages/core/src/lib/message/version_0.ts` and `packages/message-encryption/src`, and
`fromWireToProtoObj` of the version 0 decoder, which the other decoders inherit. The proto object that an encoder makes
comes back from the wire as it is, as long as its timestamp is one of 64 bits (`fromWireToProtoObj_encode`).
-/

namespace JsWaku

open Proto

variable (rt : Runtime)

/-! ## The code -/

namespace Version0

/-- `get ephemeral`. -/
def DecodedMessage.ephemeral (d : DecodedMessage) : Bool := d.proto.ephemeral.getD false

/-- `Encoder.toWire`. -/
def Encoder.toWire (enc : EncoderFields) (now : Date) (message : IMessage) : Except JsError Bytes := do
  let protoMessage ← toProtoObj enc now message
  return WakuMessage.encode rt protoMessage

/-- `Decoder.fromWireToProtoObj`. -/
def Decoder.fromWireToProtoObj (bytes : Bytes) : Except JsError IProtoMessage := do
  let protoMessage ← WakuMessage.decode rt bytes
  return { protoMessage with ephemeral := some (protoMessage.ephemeral.getD false) }

end Version0

namespace MessageEncryption

/-- `Encoder.toWire` of `ecies.ts`. -/
def Ecies.Encoder.toWire (C : Crypto) (ephemPrivateKey : RandomBytes 32) (iv : RandomBytes 16)
    (randomBytes : ℕ → Bytes) (enc : Ecies.Encoder) (now : Date) (message : IMessage) : Except JsError Bytes := do
  let protoMessage ← enc.toProtoObj C ephemPrivateKey iv randomBytes now message
  return WakuMessage.encode rt protoMessage

/-- `Encoder.toWire` of `symmetric.ts`. -/
def Symmetric.Encoder.toWire (C : Crypto) (iv : RandomBytes JsWaku.Symmetric.ivSize) (randomBytes : ℕ → Bytes)
    (enc : Symmetric.Encoder) (now : Date) (message : IMessage) : Except JsError Bytes := do
  let protoMessage ← enc.toProtoObj C iv randomBytes now message
  return WakuMessage.encode rt protoMessage

end MessageEncryption

/-! ## Through the wire -/

/-- What a sender stamps a message with, in nanoseconds. -/
def IMessage.nanoseconds (message : IMessage) (now : Date) : Option ℤ :=
  (message.timestamp.getD now).time.map (· * OneMillion)

/-- The nanoseconds are a number of 64 bits. -/
def IMessage.InTime (message : IMessage) (now : Date) : Prop :=
  ∀ ns ∈ message.nanoseconds now, -2 ^ 63 ≤ ns ∧ ns < 2 ^ 63

/-- The fields of the proto object of an encoder. -/
theorem EncoderFields.protoObj_fields {enc : EncoderFields} {version : ℕ} {payload : Bytes} {now : Date}
    {message : IMessage} {proto : IProtoMessage}
    (h : enc.protoObj version payload (message.timestamp.getD now) message = .ok proto) :
    ∃ ns metaField, message.nanoseconds now = some ns ∧
      proto = { payload, contentTopic := enc.contentTopic, version := some version, timestamp := some ns, metaField,
                rateLimitProof := message.rateLimitProof, ephemeral := some enc.ephemeral } := by
  obtain ⟨millis, hmillis, h⟩ := bind_eq_ok.1 h
  have htime : (message.timestamp.getD now).time = some millis := by
    unfold Date.toBigInt at hmillis
    split at hmillis
    · rename_i t ht
      cases hmillis
      exact ht
    · cases hmillis
  have hns : message.nanoseconds now = some (millis * OneMillion) := by rw [IMessage.nanoseconds, htime]; rfl
  cases hm : enc.metaSetter with
  | none =>
    rw [hm] at h
    cases h
    exact ⟨_, none, hns, rfl⟩
  | some metaSetter =>
    rw [hm] at h
    obtain ⟨bytes, -, h⟩ := bind_eq_ok.1 h
    cases h
    exact ⟨_, some bytes, hns, rfl⟩

/-- The numbers of the proto object of an encoder fit, and its flag is set. -/
theorem EncoderFields.inRange_protoObj {enc : EncoderFields} {version : ℕ} {payload : Bytes} {now : Date}
    {message : IMessage} {proto : IProtoMessage} (hversion : version < 2 ^ 32) (htime : message.InTime now)
    (h : enc.protoObj version payload (message.timestamp.getD now) message = .ok proto) :
    WakuMessage.InRange proto ∧ proto.ephemeral ≠ none := by
  obtain ⟨ns, metaField, hns, rfl⟩ := protoObj_fields h
  refine ⟨⟨?_, ?_⟩, by simp⟩
  · rintro n hn
    cases hn
    exact hversion
  · rintro t ht
    cases ht
    exact htime ns hns

/-- So are those of an encrypting encoder. -/
theorem MessageEncryption.inRange_toProtoObj {C : Crypto} {encrypt : Bytes → Except JsError Bytes}
    {randomBytes : ℕ → Bytes} {enc : EncoderFields} {sigPrivKey : Option Bytes} {now : Date} {message : IMessage}
    {proto : IProtoMessage} (htime : message.InTime now)
    (h : MessageEncryption.toProtoObj C encrypt randomBytes enc sigPrivKey now message = .ok proto) :
    WakuMessage.InRange proto ∧ proto.ephemeral ≠ none := by
  obtain ⟨preparedPayload, -, h⟩ := bind_eq_ok.1 h
  obtain ⟨payload, -, h⟩ := bind_eq_ok.1 h
  exact EncoderFields.inRange_protoObj (by decide) htime h

/-- The timestamp of a decoded message is the one it was stamped with. -/
theorem Version0.DecodedMessage.timestamp_of_nanoseconds {d : DecodedMessage} {message : IMessage} {now : Date} {ns : ℤ}
    (htime : message.InTime now) (hns : message.nanoseconds now = some ns) (hd : d.proto.timestamp = some ns) :
    d.timestamp = if (message.timestamp.getD now).time = some 0 then none else some (message.timestamp.getD now) := by
  obtain ⟨hmin, hmax⟩ := htime ns hns
  obtain ⟨millis, hmillis, rfl⟩ := Option.map_eq_some_iff.1 hns
  rw [OneMillion] at *
  rw [timestamp, hd, hmillis]
  by_cases h0 : millis = 0
  · simp [h0]
  · have hdiv : (millis * 1000000).tdiv OneMillion = millis := Int.mul_tdiv_cancel millis (by decide)
    have hbound : millis.natAbs ≤ 8640000000000000 := by omega
    simp only [mul_eq_zero, h0, false_or, Option.some.injEq, hdiv, Date.ofBigInt, if_pos hbound]
    simp [← hmillis]

/-- Whole milliseconds have one message hash. -/
theorem MessageHash.messageHash_decoded_of_wholeMillis (sha256 : Bytes → Bytes) (t : String) {m : IProtoMessage}
    (hns : ∀ ns, m.timestamp = some ns → -2 ^ 63 ≤ ns ∧ ns < 2 ^ 63) (h : WholeMillis m) :
    messageHash sha256 t (.decoded ⟨t, m⟩) = messageHash sha256 t (.proto m) := by
  obtain ⟨a, b, ha, hb, hiff⟩ := preimage_eq_iff t hns
  rw [messageHash, messageHash, ha, hb, hiff.2 h]

section

variable {rt} (hrt : rt.Lawful)
include hrt

/-- A proto object with its flag set comes back from the wire. -/
theorem Version0.fromWireToProtoObj_encode {proto : IProtoMessage} (hrange : WakuMessage.InRange proto)
    (hephemeral : proto.ephemeral ≠ none) (hshort : Short (WakuMessage.encode rt proto)) :
    Decoder.fromWireToProtoObj rt (WakuMessage.encode rt proto) = .ok proto := by
  obtain ⟨ephemeral, he⟩ := Option.ne_none_iff_exists'.1 hephemeral
  rw [Decoder.fromWireToProtoObj, WakuMessage.decode_encode hrt hrange hshort, ok_bind, he, Option.getD_some, ← he]
  rfl

/-- **Version 0 through the wire.** What an encoder writes is decoded to its message: payload, content topic, flag and
proof, the timestamp to the millisecond (none for the epoch). Sender and receiver agree on the message hash. -/
theorem Version0.wire_decoded {enc : EncoderFields} {now : Date} {message : IMessage} {bytes : Bytes}
    (h : Encoder.toWire rt enc now message = .ok bytes) (htime : message.InTime now) (hshort : Short bytes)
    (pubsubTopic : String) :
    ∃ proto d, Encoder.toProtoObj enc now message = .ok proto ∧ Decoder.fromWireToProtoObj rt bytes = .ok proto ∧
      Decoder.fromProtoObj pubsubTopic proto = some d ∧ d.pubsubTopic = pubsubTopic ∧ d.payload = message.payload ∧
      d.contentTopic = enc.contentTopic ∧ d.ephemeral = enc.ephemeral ∧
      d.proto.rateLimitProof = message.rateLimitProof ∧
      d.timestamp = (if (message.timestamp.getD now).time = some 0 then none else some (message.timestamp.getD now)) ∧
      ∀ sha256, MessageHash.messageHash sha256 pubsubTopic (.decoded d) =
        MessageHash.messageHash sha256 pubsubTopic (.proto proto) := by
  obtain ⟨proto, hproto, h⟩ := bind_eq_ok.1 h
  cases h
  obtain ⟨hrange, hephemeral⟩ := EncoderFields.inRange_protoObj (by decide) htime hproto
  have hwire := fromWireToProtoObj_encode hrt hrange hephemeral hshort
  obtain ⟨ns, metaField, hns, rfl⟩ := EncoderFields.protoObj_fields hproto
  refine ⟨_, _, hproto, hwire, rfl, rfl, rfl, rfl, rfl, rfl, ?_, fun sha256 => ?_⟩
  · exact DecodedMessage.timestamp_of_nanoseconds htime hns rfl
  · refine MessageHash.messageHash_decoded_of_wholeMillis sha256 pubsubTopic (fun t ht => htime t (hns.trans ht)) ?_
    obtain ⟨millis, -, rfl⟩ := Option.map_eq_some_iff.1 hns
    exact Int.mul_emod_left millis 1000000

/-- The proto object of an encrypting encoder comes back from the wire. -/
theorem MessageEncryption.fromWireToProtoObj_encode {C : Crypto} {encrypt : Bytes → Except JsError Bytes}
    {randomBytes : ℕ → Bytes} {enc : EncoderFields} {sigPrivKey : Option Bytes} {now : Date} {message : IMessage}
    {proto : IProtoMessage} (htime : message.InTime now)
    (h : MessageEncryption.toProtoObj C encrypt randomBytes enc sigPrivKey now message = .ok proto)
    (hshort : Short (WakuMessage.encode rt proto)) :
    Version0.Decoder.fromWireToProtoObj rt (WakuMessage.encode rt proto) = .ok proto := by
  obtain ⟨hrange, hephemeral⟩ := inRange_toProtoObj htime h
  exact Version0.fromWireToProtoObj_encode hrt hrange hephemeral hshort

/-- **Encrypted messages through the wire.** What an encoder writes is read back to the encoder's proto object, and
decrypted with the matching key to its payload and its signer. -/
theorem MessageEncryption.wire_decrypted {C : Crypto} (hC : C.Lawful) {randomBytes : ℕ → Bytes} {now : Date}
    {message : IMessage} {bytes : Bytes} (hlen : message.payload.length < 2 ^ 24) (htime : message.InTime now)
    (hshort : Short bytes) (pubsubTopic : String) :
    (∀ (enc : Ecies.Encoder) (dec : Ecies.Decoder) (ephemPrivateKey : RandomBytes 32) (iv : RandomBytes 16),
      C.getPublicKey dec.privateKey = .ok enc.publicKey →
      enc.toWire rt C ephemPrivateKey iv randomBytes now message = .ok bytes →
      ∃ proto, enc.toProtoObj C ephemPrivateKey iv randomBytes now message = .ok proto ∧
        Version0.Decoder.fromWireToProtoObj rt bytes = .ok proto ∧
        Returns C randomBytes enc.sigPrivKey message (dec.fromProtoObj C pubsubTopic proto)) ∧
    ∀ (enc : Symmetric.Encoder) (dec : Symmetric.Decoder) (iv : RandomBytes JsWaku.Symmetric.ivSize),
      dec.symKey = enc.symKey →
      enc.toWire rt C iv randomBytes now message = .ok bytes →
      ∃ proto, enc.toProtoObj C iv randomBytes now message = .ok proto ∧
        Version0.Decoder.fromWireToProtoObj rt bytes = .ok proto ∧
        Returns C randomBytes enc.sigPrivKey message (dec.fromProtoObj C pubsubTopic proto) := by
  constructor
  · intro enc dec ephemPrivateKey iv hkey h
    obtain ⟨proto, hproto, h⟩ := bind_eq_ok.1 h
    cases h
    exact ⟨proto, hproto, fromWireToProtoObj_encode hrt htime hproto hshort,
      fromProtoObj_of_inverse hC (JsWaku.Ecies.decrypt_encrypt hC hkey) hlen pubsubTopic hproto⟩
  · intro enc dec iv hkey h
    obtain ⟨proto, hproto, h⟩ := bind_eq_ok.1 h
    cases h
    refine ⟨proto, hproto, fromWireToProtoObj_encode hrt htime hproto hshort,
      fromProtoObj_of_inverse hC (fun _ henc => ?_) hlen pubsubTopic hproto⟩
    rw [hkey]
    exact decryptSymmetric_encryptSymmetric hC henc

end

/-! ## A run -/

/-- Short bytes that were evaluated. -/
theorem Proto.exists_short {x : Except JsError Bytes} (h : (x.toOption.map List.length).getD (2 ^ 32) < 2 ^ 32) :
    ∃ bytes, x = .ok bytes ∧ Short bytes := by
  cases x with
  | error e => simp [Except.toOption] at h
  | ok bytes => exact ⟨bytes, rfl, h⟩

/-- The message `[7]` at the first millisecond. -/
theorem Version0.wire_decoded_sample :
    ∃ bytes proto d, Encoder.toWire wireFormat MessageEncryption.sampleFields ⟨some 1⟩
        MessageEncryption.sampleMessage = .ok bytes ∧
      Decoder.fromWireToProtoObj wireFormat bytes = .ok proto ∧
      Decoder.fromProtoObj "/waku/2/rs/1/0" proto = some d ∧ d.payload = [7] ∧ d.timestamp = some ⟨some 1⟩ := by
  obtain ⟨bytes, h, hshort⟩ := exists_short (x := Encoder.toWire wireFormat MessageEncryption.sampleFields ⟨some 1⟩
    MessageEncryption.sampleMessage) (by decide +kernel)
  obtain ⟨proto, d, -, hwire, hd, -, hpayload, -, -, -, htime, -⟩ := wire_decoded wireFormat_lawful h
    (fun ns hns => by cases hns; decide) hshort "/waku/2/rs/1/0"
  exact ⟨bytes, proto, d, h, hwire, hd, hpayload, htime⟩

/-- The message `[7]`, encrypted and signed by both encoders. -/
theorem MessageEncryption.wire_decrypted_sample :
    (∃ bytes proto, sampleEciesEncoder.toWire wireFormat sampleCrypto ⟨samplePrivateKey, rfl⟩ ⟨List.replicate 16 0, rfl⟩
        (fun n => List.replicate n 1) ⟨some 0⟩ sampleMessage = .ok bytes ∧
      Version0.Decoder.fromWireToProtoObj wireFormat bytes = .ok proto ∧
      Returns sampleCrypto (fun n => List.replicate n 1) sampleEciesEncoder.sigPrivKey sampleMessage
        (sampleEciesDecoder.fromProtoObj sampleCrypto "/waku/2/rs/1/0" proto)) ∧
    ∃ bytes proto, sampleSymmetricEncoder.toWire wireFormat sampleCrypto ⟨List.replicate 12 0, rfl⟩
        (fun n => List.replicate n 1) ⟨some 0⟩ sampleMessage = .ok bytes ∧
      Version0.Decoder.fromWireToProtoObj wireFormat bytes = .ok proto ∧
      Returns sampleCrypto (fun n => List.replicate n 1) sampleSymmetricEncoder.sigPrivKey sampleMessage
        (sampleSymmetricDecoder.fromProtoObj sampleCrypto "/waku/2/rs/1/0" proto) := by
  have htime : sampleMessage.InTime ⟨some 0⟩ := fun ns hns => by cases hns; decide
  constructor
  · obtain ⟨bytes, h, hshort⟩ := exists_short (x := sampleEciesEncoder.toWire wireFormat sampleCrypto
      ⟨samplePrivateKey, rfl⟩ ⟨List.replicate 16 0, rfl⟩ (fun n => List.replicate n 1) ⟨some 0⟩ sampleMessage)
      (by decide +kernel)
    obtain ⟨proto, -, hwire, hreturns⟩ := (wire_decrypted wireFormat_lawful sampleCrypto_lawful (by decide) htime hshort
      "/waku/2/rs/1/0").1 sampleEciesEncoder sampleEciesDecoder _ _ (by decide +kernel) h
    exact ⟨bytes, proto, h, hwire, hreturns⟩
  · obtain ⟨bytes, h, hshort⟩ := exists_short (x := sampleSymmetricEncoder.toWire wireFormat sampleCrypto
      ⟨List.replicate 12 0, rfl⟩ (fun n => List.replicate n 1) ⟨some 0⟩ sampleMessage) (by decide +kernel)
    obtain ⟨proto, -, hwire, hreturns⟩ := (wire_decrypted wireFormat_lawful sampleCrypto_lawful (by decide) htime hshort
      "/waku/2/rs/1/0").2 sampleSymmetricEncoder sampleSymmetricDecoder _ rfl h
    exact ⟨bytes, proto, h, hwire, hreturns⟩

end JsWaku
