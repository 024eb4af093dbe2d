import JsWaku.Core.Message
import JsWaku.MessageEncryption.Ciphers
import JsWaku.MessageEncryption.Encryption

/-!
# Encoders and decoders of encrypted messages

`Encoder` and `Decoder` of `ecies.ts` and `symmetric.ts`, and `DecodedMessage` of `decoded_message.ts`, all of
`packages/message-encryption/src`. The two encoders differ in the cipher only, so both are `toProtoObj` and
`fromProtoObj` at their cipher. A cipher that inverts itself on messages that are not empty gives a decoder that undoes
its encoder (`fromProtoObj_of_inverse`); with `Ciphers.lean` this is `fromProtoObj_toProtoObj`.
-/

namespace JsWaku.MessageEncryption

open JsWaku Endian

/-- `Version` of `misc.ts`. -/
def Version : ℕ := 1

/-- `DecodedMessage` of `decoded_message.ts`. -/
structure DecodedMessage extends Version0.DecodedMessage where
  decodedPayload : Bytes
  signature : Option Bytes
  signaturePublicKey : Option Bytes
  deriving DecidableEq, Repr

/-- `get payload`. -/
def DecodedMessage.payload (d : DecodedMessage) : Bytes := d.decodedPayload

/-- `verifySignature`. -/
def DecodedMessage.verifySignature (d : DecodedMessage) (publicKey : Bytes) : Bool :=
  match d.signaturePublicKey with
  | some signaturePublicKey => signaturePublicKey == publicKey
  | none => false

/-! ## The code -/

/-- `toProtoObj` for a given cipher. -/
def toProtoObj (C : Crypto) (encrypt : Bytes → Except JsError Bytes) (randomBytes : ℕ → Bytes) (enc : EncoderFields)
    (sigPrivKey : Option Bytes) (now : Date) (message : IMessage) : Except JsError IProtoMessage := do
  let timestamp := message.timestamp.getD now
  let preparedPayload ← preCipher C randomBytes message.payload sigPrivKey
  let payload ← encrypt preparedPayload
  enc.protoObj Version payload timestamp message

/-- The `new DecodedMessage(..)` at the end of both decoders. -/
def decodedMessage (pubsubTopic : String) (protoMessage : IProtoMessage) (res : Plain) : DecodedMessage :=
  { pubsubTopic, proto := protoMessage, decodedPayload := res.payload, signature := res.sig.map (·.signature),
    signaturePublicKey := res.sig.bind (·.publicKey) }

/-- `fromProtoObj` for a given cipher. What decryption throws is caught, what `postCipher` throws is not. -/
def fromProtoObj (C : Crypto) (decrypt : Bytes → Except JsError Bytes) (pubsubTopic : String)
    (protoMessage : IProtoMessage) : Except JsError (Option DecodedMessage) :=
  if protoMessage.version ≠ some Version then .ok none
  else
    match decrypt protoMessage.payload with
    | .error _ => .ok none
    | .ok payload => do
      let res ← postCipher C (.ofBuffer payload)
      return res.map (decodedMessage pubsubTopic protoMessage)

/-- The fields that both decoders keep. The constructor throws on an empty content topic. -/
structure DecoderFields where
  pubsubTopic : String
  contentTopic : String
  contentTopic_ne : contentTopic ≠ ""

namespace Ecies

/-- `Encoder` of `ecies.ts`. -/
structure Encoder extends EncoderFields where
  publicKey : Bytes
  sigPrivKey : Option Bytes

/-- `Encoder.toProtoObj` of `ecies.ts`. -/
def Encoder.toProtoObj (C : Crypto) (ephemPrivateKey : RandomBytes 32) (iv : RandomBytes 16) (randomBytes : ℕ → Bytes)
    (enc : Encoder) (now : Date) (message : IMessage) : Except JsError IProtoMessage :=
  MessageEncryption.toProtoObj C (JsWaku.Ecies.encrypt C ephemPrivateKey iv enc.publicKey) randomBytes
    enc.toEncoderFields enc.sigPrivKey now message

/-- `Decoder` of `ecies.ts`. -/
structure Decoder extends DecoderFields where
  privateKey : Bytes

/-- `Decoder.fromProtoObj` of `ecies.ts`. -/
def Decoder.fromProtoObj (C : Crypto) (dec : Decoder) (pubsubTopic : String) (protoMessage : IProtoMessage) :
    Except JsError (Option DecodedMessage) :=
  MessageEncryption.fromProtoObj C (JsWaku.Ecies.decrypt C dec.privateKey) pubsubTopic protoMessage

end Ecies

namespace Symmetric

/-- `Encoder` of `symmetric.ts`. -/
structure Encoder extends EncoderFields where
  symKey : Bytes
  sigPrivKey : Option Bytes

/-- `Encoder.toProtoObj` of `symmetric.ts`. -/
def Encoder.toProtoObj (C : Crypto) (iv : RandomBytes JsWaku.Symmetric.ivSize) (randomBytes : ℕ → Bytes)
    (enc : Encoder) (now : Date) (message : IMessage) : Except JsError IProtoMessage :=
  MessageEncryption.toProtoObj C (fun data => encryptSymmetric C iv data enc.symKey) randomBytes enc.toEncoderFields
    enc.sigPrivKey now message

/-- `Decoder` of `symmetric.ts`. -/
structure Decoder extends DecoderFields where
  symKey : Bytes

/-- `Decoder.fromProtoObj` of `symmetric.ts`. -/
def Decoder.fromProtoObj (C : Crypto) (dec : Decoder) (pubsubTopic : String) (protoMessage : IProtoMessage) :
    Except JsError (Option DecodedMessage) :=
  MessageEncryption.fromProtoObj C (fun payload => decryptSymmetric C payload dec.symKey) pubsubTopic protoMessage

end Symmetric

/-! ## Decoding undoes encoding -/

/-- What a decoded message says about its signature: the signer's key and the last 65 bytes of the envelope that was
encrypted, or nothing when there was no signing key. -/
def ReportsSigner (C : Crypto) (envelope : Bytes) (sigPrivKey : Option Bytes) (decoded : DecodedMessage) : Prop :=
  match sigPrivKey with
  | none => decoded.signature = none ∧ decoded.signaturePublicKey = none
  | some key => ∃ signerPub signature, C.getPublicKey key = .ok signerPub ∧ signature.length = SignatureLength ∧
      signature <:+ envelope ∧ decoded.signature = some signature ∧ decoded.signaturePublicKey = some signerPub ∧
      decoded.verifySignature signerPub = true

/-- The message that a decoder was asked to return: the payload that was encoded, and its signer. -/
def Returns (C : Crypto) (randomBytes : ℕ → Bytes) (sigPrivKey : Option Bytes) (message : IMessage)
    (result : Except JsError (Option DecodedMessage)) : Prop :=
  ∃ envelope decoded, preCipher C randomBytes message.payload sigPrivKey = .ok envelope ∧
    result = .ok (some decoded) ∧ decoded.payload = message.payload ∧ ReportsSigner C envelope sigPrivKey decoded

/-- An envelope is not empty. -/
theorem preCipher_ne_nil {C : Crypto} {randomBytes : ℕ → Bytes} {payload : Bytes} {sigPrivKey : Option Bytes}
    {envelope : Bytes} (hlen : payload.length < 2 ^ 24) (h : preCipher C randomBytes payload sigPrivKey = .ok envelope) :
    envelope ≠ [] := by
  obtain ⟨n, pad, -, -, -, hshape⟩ := preCipher_spec hlen h
  cases sigPrivKey with
  | none => rw [hshape]; simp [header]
  | some key => obtain ⟨bytes, -, rfl⟩ := hshape; simp [header]

/-- A decoder whose cipher inverts the encoder's undoes the encoder. -/
theorem fromProtoObj_of_inverse {C : Crypto} (hC : C.Lawful) {encrypt decrypt : Bytes → Except JsError Bytes}
    (hinv : ∀ {msg encrypted}, msg ≠ [] → encrypt msg = .ok encrypted → decrypt encrypted = .ok msg)
    {randomBytes : ℕ → Bytes} {enc : EncoderFields} {sigPrivKey : Option Bytes} {now : Date} {message : IMessage}
    {proto : IProtoMessage} (hlen : message.payload.length < 2 ^ 24) (pubsubTopic : String)
    (h : toProtoObj C encrypt randomBytes enc sigPrivKey now message = .ok proto) :
    Returns C randomBytes sigPrivKey message (fromProtoObj C decrypt pubsubTopic proto) := by
  obtain ⟨envelope, henvelope, h⟩ := bind_eq_ok.1 h
  obtain ⟨payload, hpayload, h⟩ := bind_eq_ok.1 h
  obtain ⟨hproto, hversion⟩ := EncoderFields.protoObj_spec h
  have hdecrypt : decrypt proto.payload = .ok envelope := by
    rw [hproto]; exact hinv (preCipher_ne_nil hlen henvelope) hpayload
  have hresult : ∀ {res}, postCipher C (.ofBuffer envelope) = .ok (some res) →
      fromProtoObj C decrypt pubsubTopic proto = .ok (some (decodedMessage pubsubTopic proto res)) := by
    intro res hres
    rw [fromProtoObj, if_neg (by simp [hversion])]
    simp only [hdecrypt, hres, ok_bind]
    rfl
  obtain ⟨n, pad, h0, hn, hp, hshape⟩ := preCipher_spec hlen henvelope
  cases sigPrivKey with
  | none =>
    subst hshape
    exact ⟨_, _, henvelope, hresult (postCipher_unsigned C h0 hn hp pad), rfl, rfl, rfl⟩
  | some key =>
    obtain ⟨bytes, hsign, rfl⟩ := hshape
    obtain ⟨hbytes, signerPub, hpub, hpost⟩ := postCipher_signed hC h0 hn hp hsign
    refine ⟨_, _, henvelope, hresult hpost, rfl, signerPub, bytes, hpub, hbytes, List.suffix_append _ _, rfl, rfl, ?_⟩
    simp [DecodedMessage.verifySignature, decodedMessage]

/-- **Decryption undoes encryption.** For both encoders, every payload below `2 ^ 24` bytes, key, optional signing key
and random values for which the encoder succeeds, the decoder with the matching key returns the payload, and reports
the signature and the signer exactly when there was a signing key. -/
theorem fromProtoObj_toProtoObj {C : Crypto} (hC : C.Lawful) {randomBytes : ℕ → Bytes} {now : Date} {message : IMessage}
    (hlen : message.payload.length < 2 ^ 24) (pubsubTopic : String) (proto : IProtoMessage) :
    (∀ (enc : Ecies.Encoder) (dec : Ecies.Decoder) (ephemPrivateKey : RandomBytes 32) (iv : RandomBytes 16),
      C.getPublicKey dec.privateKey = .ok enc.publicKey →
      enc.toProtoObj C ephemPrivateKey iv randomBytes now message = .ok proto →
      Returns C randomBytes enc.sigPrivKey message (dec.fromProtoObj C pubsubTopic proto)) ∧
    ∀ (enc : Symmetric.Encoder) (dec : Symmetric.Decoder) (iv : RandomBytes JsWaku.Symmetric.ivSize),
      dec.symKey = enc.symKey →
      enc.toProtoObj C iv randomBytes now message = .ok proto →
      Returns C randomBytes enc.sigPrivKey message (dec.fromProtoObj C pubsubTopic proto) := by
  constructor
  · intro enc dec ephemPrivateKey iv hkey h
    exact fromProtoObj_of_inverse hC (JsWaku.Ecies.decrypt_encrypt hC hkey) hlen pubsubTopic h
  · intro enc dec iv hkey h
    refine fromProtoObj_of_inverse hC (fun _ henc => ?_) hlen pubsubTopic h
    rw [hkey]
    exact decryptSymmetric_encryptSymmetric hC henc

/-! ## A run -/

/-- The bytes of the data that a keystream covers are flipped by it. -/
def xorStream : (keystream data : Bytes) → Bytes
  | _, [] => []
  | [], data => data
  | k :: keystream, b :: data => (k ^^^ b) :: xorStream keystream data

theorem xorStream_xorStream : ∀ keystream data : Bytes, xorStream keystream (xorStream keystream data) = data
  | _, [] => by simp [xorStream]
  | [], _ :: _ => rfl
  | k :: keystream, b :: data => by
      rw [xorStream, xorStream, xorStream_xorStream keystream data, ← UInt8.xor_assoc, UInt8.xor_self,
        UInt8.zero_xor]

theorem length_xorStream : ∀ keystream data : Bytes, (xorStream keystream data).length = data.length
  | _, [] => by simp [xorStream]
  | [], _ :: _ => rfl
  | _ :: keystream, _ :: data => by simp [xorStream, length_xorStream keystream data]

/-- The private key 1; every key of the run below is this one. -/
def samplePrivateKey : Bytes := toBE 32 1

/-- The public key of the private key 1, the generator of secp256k1. -/
def samplePublicKey : Bytes :=
  [4] ++ toBE 32 0x79be667ef9dcbbac55a06295ce870b07029bfcdb2dce28d959f2815b16f81798 ++
    toBE 32 0x483ada7726a3c4655da4fbfc0e1108a8fd17b448a68554199c47d08ffb10d4b8

/-- The AES-128-CTR keystream of the run. -/
def sampleCtrKeystream : Bytes :=
  toBE 32 0x8602483c010fadc65388e9c85909ae43a6b33f463910d891afd0f46e05aec435 ++
    toBE 32 0x8b014f67d546c43b342befbd25301a4f6fb3c77970918c05167715c024c7d8db ++
    toBE 32 0xa7750fd9f9f7e66c394beeeaaa4ba43702b305ffb32c53b0620cb3b90f8d319e ++
    toBE 32 0xc981d332a0998d0150f8ba5cbd23bc01075ea76aae166c6e556de270469ded7d ++
    toBE 32 0xd64b34ddc4b69887a459ca74e5a329c540cee7e042c2a0a9aee8fa2f8014558a ++
    toBE 32 0x89bd95456ab58e29288585c55b42731744420707189a9be31f8cb2bf0fef91e4 ++
    toBE 32 0x3ee48786103b4c2c34da452a32959ae68ab1477fdf7803ee2592bc53d97cdf74 ++
    toBE 32 0x5e023181164ad4cabb693f147b9a9032c776ffe96338bd27ccf22e03324f0af1

/-- The AES-256-GCM keystream of the run. -/
def sampleGcmKeystream : Bytes :=
  toBE 32 0xcea7403d4d606b6e074ec5d3baf39d18726003ca37a62a74d1a2f58e7506358e ++
    toBE 32 0xdd4ab1284d4ae17b41e85924470c36f74741cbe181bb7f30617c1de3ab0c3a1f ++
    toBE 32 0xd0c48f7321a82d376095ace0419167a0bcaf49b0c0cea62de6bc1c66545e1dad ++
    toBE 32 0xabfa77cd6e85da245fb0bdc5e52cfc29ba0ae1ab2837e0f36387b70e93176012 ++
    toBE 32 0x4362c2bb66d8f4b137fce8342c9cd386a1144296e27268a8e50df537a805d579 ++
    toBE 32 0xbb21ebbdf357ed34bf58b5837150ddcaf362225e620a6070ac5ef529fb522466 ++
    toBE 32 0x768b78c04b54e51ef5fa07e506a35fc6b0b710249c8626e1a96ad57828d7be2e ++
    toBE 32 0x1490a05a7cee43bde98b56e309dc01264ed6df6e82c1bfc72a59ad53a9c0e434

/-- The AES-256-GCM tag of the run. -/
def sampleGcmTag : Bytes := toBE 16 0x1bc00c5ea320ca8aeb86b67d8f5fa45b

/-- The signature of the run; its recovery id is 1. -/
def sampleSignature : Bytes :=
  toBE 32 0xda0fdb06b5e7b8ff21971e3a2422e3ed721cfb6919cc1c6ee523bdfeda4221a3 ++
    toBE 32 0x18da9a19c45d80315f16c0cabc855822582b93843e6b414cc6331ea525cdce12

/-- A crypto library with the values that the real one has in the run below: private keys 1, ivs and symmetric key of
zeros, padding of ones, the payload `[7]`. -/
def sampleCrypto : Crypto where
  keccak256 _ := toBE 32 0x7bfce2ce29f983b0806421eff5889a686e8c6ce3b081bb4e32bd1a83b087603e
  sha256 data :=
    if data.length = 36 then toBE 32 0x8cb9c636e2c2d4e3345e36fcfe419f156780a25b8cf712db134a234384fbb0f1
    else toBE 32 0x89e892d1ac6a7f3914c14512baf1ff8be5219e82f3385a48cc5e61da59f70b40
  getPublicKey priv :=
    if priv = samplePrivateKey then .ok samplePublicKey else throw (.error "Expected valid private key")
  getSharedSecret _ _ := .ok ([2] ++ toBE 32 0x79be667ef9dcbbac55a06295ce870b07029bfcdb2dce28d959f2815b16f81798)
  sign _ priv :=
    if priv = samplePrivateKey then .ok (sampleSignature, 1) else throw (.error "Expected valid private key")
  fromCompact signature := if signature.length = 64 then .ok signature else throw (.error "signature.fromCompact")
  recoverPublicKey _ _ _ := .ok samplePublicKey
  aesCtrEncrypt _ _ data := .ok (xorStream sampleCtrKeystream data)
  aesCtrDecrypt _ _ data := .ok (xorStream sampleCtrKeystream data)
  aesGcmEncrypt _ _ data := .ok (xorStream sampleGcmKeystream data ++ sampleGcmTag)
  aesGcmDecrypt _ _ data := .ok (xorStream sampleGcmKeystream (data.take (data.length - 16)))
  hmacSha256Sign _ _ := .ok (toBE 32 0x8380584d14d7e3371710ff375cd1d8de4d36880b5ab8dcc60631138b3bb6642d)
  hmacSha256Verify _ _ tag := .ok (tag == toBE 32 0x8380584d14d7e3371710ff375cd1d8de4d36880b5ab8dcc60631138b3bb6642d)


theorem sampleCrypto_lawful : sampleCrypto.Lawful where
  aesCtr := by
    intro counter key data cipher h
    cases Except.ok.inj h
    exact ⟨congrArg Except.ok (xorStream_xorStream _ _), length_xorStream _ _⟩
  aesGcm := by
    intro iv key data cipher h
    cases Except.ok.inj h
    simp only [sampleCrypto]
    rw [List.take_left' (by simp [sampleGcmTag]), xorStream_xorStream]
  hmac := by
    intro key msg tag h
    cases Except.ok.inj h
    exact ⟨length_toBE _ _, by simp [sampleCrypto]⟩
  keyPair := by
    intro priv pub h
    simp only [sampleCrypto] at h
    split at h
    · rename_i hpriv
      cases Except.ok.inj h
      exact ⟨by rw [hpriv]; rfl, by rfl, by rfl⟩
    · cases h
  ecdh := fun _ _ h => h
  recover := by
    intro hash priv signature recovery h
    simp only [sampleCrypto] at h
    split at h
    · rename_i hpriv
      cases Except.ok.inj h
      exact ⟨by simp [sampleSignature], by omega, samplePublicKey, sampleSignature, if_pos hpriv,
        by simp [sampleCrypto, sampleSignature], rfl⟩
    · cases h

/-- The options of the encoders of the run. -/
def sampleFields : EncoderFields :=
  { pubsubTopic := "/waku/2/rs/1/0", contentTopic := "/test/1/waku-light-push/utf8", ephemeral := false,
    metaSetter := none, contentTopic_ne := by decide }

def sampleEciesEncoder : Ecies.Encoder :=
  { sampleFields with publicKey := samplePublicKey, sigPrivKey := some samplePrivateKey }

def sampleSymmetricEncoder : Symmetric.Encoder :=
  { sampleFields with symKey := List.replicate 32 0, sigPrivKey := some samplePrivateKey }

def sampleEciesDecoder : Ecies.Decoder := ⟨⟨"/waku/2/rs/1/0", "/test/1/waku-light-push/utf8", by decide⟩, samplePrivateKey⟩

def sampleSymmetricDecoder : Symmetric.Decoder :=
  ⟨⟨"/waku/2/rs/1/0", "/test/1/waku-light-push/utf8", by decide⟩, List.replicate 32 0⟩

def sampleMessage : IMessage := ⟨[7], none, none⟩

/-- The two encoders succeed on a signed message, and the decoders return it. -/
theorem fromProtoObj_toProtoObj_sample :
    (∃ proto, sampleEciesEncoder.toProtoObj sampleCrypto ⟨samplePrivateKey, rfl⟩ ⟨List.replicate 16 0, rfl⟩
        (fun n => List.replicate n 1) ⟨some 0⟩ sampleMessage = .ok proto ∧
      Returns sampleCrypto (fun n => List.replicate n 1) sampleEciesEncoder.sigPrivKey sampleMessage
        (sampleEciesDecoder.fromProtoObj sampleCrypto "/waku/2/rs/1/0" proto)) ∧
    ∃ proto, sampleSymmetricEncoder.toProtoObj sampleCrypto ⟨List.replicate 12 0, rfl⟩
        (fun n => List.replicate n 1) ⟨some 0⟩ sampleMessage = .ok proto ∧
      Returns sampleCrypto (fun n => List.replicate n 1) sampleSymmetricEncoder.sigPrivKey sampleMessage
        (sampleSymmetricDecoder.fromProtoObj sampleCrypto "/waku/2/rs/1/0" proto) := by
  constructor
  · have h : (sampleEciesEncoder.toProtoObj sampleCrypto ⟨samplePrivateKey, rfl⟩ ⟨List.replicate 16 0, rfl⟩
        (fun n => List.replicate n 1) ⟨some 0⟩ sampleMessage).toBool = true := by decide +kernel
    obtain ⟨proto, h⟩ := exists_of_toBool h
    exact ⟨proto, h, (fromProtoObj_toProtoObj sampleCrypto_lawful (by decide) _ proto).1 sampleEciesEncoder
      sampleEciesDecoder _ _ (by decide +kernel) h⟩
  · have h : (sampleSymmetricEncoder.toProtoObj sampleCrypto ⟨List.replicate 12 0, rfl⟩
        (fun n => List.replicate n 1) ⟨some 0⟩ sampleMessage).toBool = true := by decide +kernel
    obtain ⟨proto, h⟩ := exists_of_toBool h
    exact ⟨proto, h, (fromProtoObj_toProtoObj sampleCrypto_lawful (by decide) _ proto).2 sampleSymmetricEncoder
      sampleSymmetricDecoder _ rfl h⟩

end JsWaku.MessageEncryption
