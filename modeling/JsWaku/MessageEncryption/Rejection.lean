import JsWaku.MessageEncryption.RoundTrip
import JsWaku.Sdk.Store

/-!
# Which messages a decoder rejects

`fromProtoObj` of the decoders of encrypted messages catches what decryption throws, but not what `postCipher` throws on
the decrypted bytes: it reads the flags of an empty envelope, and recovers the signer of an envelope that is flagged as
signed. So a decoder returns if and only if what it decrypts opens (`fromProtoObj_returns_iff`), and a page of a store
query is processed if and only if this holds of all its messages.
-/

namespace JsWaku.MessageEncryption

open JsWaku Endian

/-! ## Envelopes that open -/

/-- The last 65 bytes are a signature, with its recovery id, that gives a public key for the bytes before them. -/
def Recoverable (C : Crypto) (message : Bytes) : Prop :=
  ∃ signed signature recovery sig, message = signed ++ signature ++ [recovery] ∧ signature.length = 64 ∧
    C.fromCompact signature = .ok sig ∧ (C.recoverPublicKey (C.keccak256 signed) sig recovery.toNat).toBool = true

/-- There are flags, and they give no length field, or no signature, or a signature whose signer can be recovered. -/
def Opens (C : Crypto) (message : Bytes) : Prop :=
  ∃ flags ∈ message.head?, flags.toNat &&& FlagMask = 0 ∨ flags.toNat &&& IsSignedMask ≠ IsSignedMask ∨
    Recoverable C message

theorem toBool_bind {α β : Type} {x : Except JsError α} {f : α → Except JsError β} :
    (x >>= f).toBool = true ↔ ∃ a, x = .ok a ∧ (f a).toBool = true := by
  cases x with
  | error e => simp [Except.toBool]
  | ok a => simp

/-- A signature that is too short has no recovery id. -/
theorem getSignature_short {message : Bytes} (hne : message ≠ []) (h : message.length < SignatureLength) :
    (getSignature message).length ≤ 64 := by
  have hpos : 0 < message.length := List.length_pos_iff.2 hne
  have hle : (getSignature message).length ≤
      message.length - relativeIndex message.length ((message.length : ℤ) - SignatureLength) := by
    rw [getSignature, slice, List.length_drop, List.length_take]
    omega
  unfold SignatureLength at h hle
  unfold relativeIndex at hle
  split at hle <;> omega

theorem ecRecoverPubKey_returns_iff {C : Crypto} {message : Bytes} (hne : message ≠ []) :
    (ecRecoverPubKey C (getHash C message true) (getSignature message)).toBool = true ↔ Recoverable C message := by
  by_cases hlength : SignatureLength ≤ message.length
  · obtain ⟨signed, tail, hmessage, htail⟩ :
        ∃ signed tail, message = signed ++ tail ∧ tail.length = SignatureLength :=
      ⟨message.take (message.length - SignatureLength), message.drop (message.length - SignatureLength),
        (List.take_append_drop _ _).symm, by rw [List.length_drop]; omega⟩
    subst hmessage
    have hsplit := List.dropLast_concat_getLast (l := tail) (by rintro rfl; cases htail)
    set signature := tail.dropLast with hsignature
    set recovery := tail.getLast (by rintro rfl; cases htail)
    have hsixtyFour : signature.length = 64 := by rw [hsignature, List.length_dropLast, htail]; rfl
    have hbyte : DataView.getUint8 (sliceFrom tail 64) 0 = .ok recovery := by
      rw [← hsplit, show (64 : ℤ) = (64 : ℕ) from rfl, sliceFrom_append signature [recovery] 64 hsixtyFour.symm]
      rfl
    have hhead : slice tail 0 64 = signature := by
      rw [← hsplit, show (64 : ℤ) = (64 : ℕ) from rfl, slice_append_left signature [recovery] 64 hsixtyFour.symm]
    rw [getHash_append C signed htail, getSignature_append signed htail, ecRecoverPubKey, hbyte, ok_bind, hhead,
      toBool_bind]
    constructor
    · rintro ⟨sig, hsig, hrecover⟩
      exact ⟨signed, signature, recovery, sig, by rw [List.append_assoc, hsplit], hsixtyFour, hsig, hrecover⟩
    · rintro ⟨signed', signature', recovery', sig, hmessage, hlength', hsig, hrecover⟩
      rw [← hsplit, ← List.append_assoc] at hmessage
      obtain ⟨hrest, hrecovery⟩ := List.append_inj' hmessage rfl
      obtain ⟨rfl, rfl⟩ := List.append_inj' hrest (by rw [hsixtyFour, hlength'])
      cases hrecovery
      exact ⟨sig, hsig, hrecover⟩
  · have hshort := getSignature_short hne (by omega)
    have hnone : sliceFrom (getSignature message) 64 = [] := by
      rw [show (64 : ℤ) = (64 : ℕ) from rfl, sliceFrom_natCast]
      exact List.drop_of_length_le hshort
    rw [ecRecoverPubKey, hnone]
    constructor
    · intro h
      cases h
    · rintro ⟨signed, signature, recovery, sig, rfl, hsixtyFour, -⟩
      refine absurd ?_ hlength
      rw [List.length_append, List.length_append, hsixtyFour]
      simp [SignatureLength]

theorem postCipher_returns_iff {C : Crypto} {message : Bytes} :
    (postCipher C (.ofBuffer message)).toBool = true ↔ Opens C message := by
  unfold Opens
  cases message with
  | nil =>
    constructor
    · intro h
      cases h
    · rintro ⟨flags, hflags, -⟩
      cases hflags
  | cons flags rest =>
    have hle : flags.toNat &&& FlagMask ≤ 3 := Nat.and_le_right
    have hsize := getPayloadSize_eq (flags :: rest) hle
    have hfield : getSizeOfPayloadSizeField (.ofBuffer (flags :: rest)) = .ok (flags.toNat &&& FlagMask) := rfl
    have hflag : isMessageSigned (.ofBuffer (flags :: rest)) =
        .ok ((flags.toNat &&& IsSignedMask) == IsSignedMask) := rfl
    rw [postCipher, hfield, ok_bind]
    simp only [List.head?_cons, Option.mem_some_iff, exists_eq_left']
    by_cases hzero : flags.toNat &&& FlagMask = 0
    · rw [if_pos hzero]
      exact ⟨fun _ => Or.inl hzero, fun _ => rfl⟩
    · rw [if_neg hzero]
      simp only [Uint8Array.bytes_ofBuffer, hsize, ok_bind, hflag]
      by_cases hsigned : flags.toNat &&& IsSignedMask = IsSignedMask
      swap
      · rw [beq_false_of_ne hsigned]
        exact ⟨fun _ => Or.inr (Or.inl hsigned), fun _ => rfl⟩
      · rw [hsigned, ← ecRecoverPubKey_returns_iff (List.cons_ne_nil flags rest)]
        simp only [beq_self_eq_true, if_true, toBool_bind]
        constructor
        · rintro ⟨publicKey, hkey, -⟩
          exact Or.inr (Or.inr (by rw [hkey]; rfl))
        · rintro (h | h | h)
          · exact absurd h hzero
          · exact absurd rfl h
          · obtain ⟨publicKey, hkey⟩ := exists_of_toBool h
            exact ⟨publicKey, hkey, rfl⟩

/-! ## Decoders -/

/-- A decoder of encrypted messages. -/
inductive Decoder
  | ecies (decoder : Ecies.Decoder)
  | symmetric (decoder : Symmetric.Decoder)

/-- `fromProtoObj` of the decoder. -/
def Decoder.fromProtoObj (C : Crypto) : Decoder → String → IProtoMessage → Except JsError (Option DecodedMessage)
  | ecies decoder => decoder.fromProtoObj C
  | symmetric decoder => decoder.fromProtoObj C

/-- How the decoder decrypts. -/
def Decoder.decrypt (C : Crypto) : Decoder → Bytes → Except JsError Bytes
  | ecies decoder => JsWaku.Ecies.decrypt C decoder.privateKey
  | symmetric decoder => fun payload => decryptSymmetric C payload decoder.symKey

/-- What the decoder decrypts, if it comes to that, opens. -/
def Decoder.Opens (C : Crypto) (decoder : Decoder) (protoMessage : IProtoMessage) : Prop :=
  protoMessage.version = some Version → ∀ message, decoder.decrypt C protoMessage.payload = .ok message →
    MessageEncryption.Opens C message

theorem Decoder.fromProtoObj_eq (C : Crypto) (decoder : Decoder) (pubsubTopic : String) (protoMessage : IProtoMessage) :
    decoder.fromProtoObj C pubsubTopic protoMessage =
      MessageEncryption.fromProtoObj C (decoder.decrypt C) pubsubTopic protoMessage := by
  cases decoder <;> rfl

theorem fromProtoObj_toBool (C : Crypto) (decoder : Decoder) (pubsubTopic : String) (protoMessage : IProtoMessage) :
    (decoder.fromProtoObj C pubsubTopic protoMessage).toBool = true ↔ decoder.Opens C protoMessage := by
  rw [Decoder.fromProtoObj_eq, MessageEncryption.fromProtoObj, Decoder.Opens]
  by_cases hversion : protoMessage.version = some Version
  · rw [if_neg (not_not.2 hversion)]
    cases hdecrypt : decoder.decrypt C protoMessage.payload with
    | error e => simp [Except.toBool]
    | ok message =>
      simp only [hversion, true_imp_iff, Except.ok.injEq, forall_eq', ← postCipher_returns_iff, toBool_bind]
      constructor
      · rintro ⟨res, hres, -⟩
        rw [hres]
        rfl
      · intro h
        obtain ⟨res, hres⟩ := exists_of_toBool h
        exact ⟨res, hres, rfl⟩
  · rw [if_pos hversion]
    exact ⟨fun _ h => absurd h hversion, fun _ => rfl⟩

/-- `Promise.all` resolves if all promises do. -/
theorem processedMessages_isSome {T : Type} (page : Sdk.Store.Page T) :
    (Sdk.Store.processedMessages page).isSome = true ↔ ∀ promise ∈ page, promise.toBool = true := by
  have hall : (Sdk.Store.promiseAll page).toBool = true ↔ ∀ promise ∈ page, promise.toBool = true := by
    induction page with
    | nil => simp [Sdk.Store.promiseAll, Except.toBool, pure, Except.pure]
    | cons promise page ih =>
      have hcons : Sdk.Store.promiseAll (promise :: page) =
          promise >>= fun a => Sdk.Store.promiseAll page >>= fun rest => pure (a :: rest) := List.mapM_cons
      rw [hcons, toBool_bind, List.forall_mem_cons, ← ih]
      constructor
      · rintro ⟨a, rfl, h⟩
        obtain ⟨rest, hrest, -⟩ := toBool_bind.1 h
        exact ⟨rfl, by rw [hrest]; rfl⟩
      · rintro ⟨hpromise, hpage⟩
        obtain ⟨a, rfl⟩ := exists_of_toBool hpromise
        obtain ⟨rest, hrest⟩ := exists_of_toBool hpage
        exact ⟨a, rfl, toBool_bind.2 ⟨rest, hrest, rfl⟩⟩
  rw [← hall, Sdk.Store.processedMessages]
  cases Sdk.Store.promiseAll page <;> simp [Except.toBool]

/-- **When decoders return**: a message is decoded or dropped if and only if what is decrypted opens; and the messages
of a page are processed if and only if this holds of all of them. -/
theorem fromProtoObj_returns_iff (C : Crypto) (pubsubTopic : String) :
    (∀ (decoder : Decoder) (protoMessage : IProtoMessage),
      (∃ result, decoder.fromProtoObj C pubsubTopic protoMessage = .ok result) ↔ decoder.Opens C protoMessage) ∧
    ∀ page : List (Decoder × IProtoMessage),
      (Sdk.Store.processedMessages (page.map fun m => m.1.fromProtoObj C pubsubTopic m.2)).isSome = true ↔
        ∀ m ∈ page, m.1.Opens C m.2 := by
  constructor
  · intro decoder protoMessage
    rw [← fromProtoObj_toBool C decoder pubsubTopic]
    exact ⟨fun ⟨result, h⟩ => by rw [h]; rfl, exists_of_toBool⟩
  · intro page
    rw [processedMessages_isSome, List.forall_mem_map]
    exact forall₂_congr fun m _ => fromProtoObj_toBool C m.1 pubsubTopic m.2

/-! ## An empty envelope -/

/-- The AES-256-GCM tag of the empty text under the key and the iv of zeros. -/
def emptyGcmTag : Bytes := toBE 16 0x530f8afbc74536b9a963b4f1c4cb738b

/-- A crypto library that decrypts it. -/
def emptyCrypto : Crypto :=
  { sampleCrypto with
    aesGcmDecrypt := fun iv key cipher =>
      if iv = List.replicate 12 0 ∧ key = List.replicate 32 0 ∧ cipher = emptyGcmTag then .ok []
      else throw (.error "OperationError") }

/-- A message with an empty envelope. -/
def emptyProto : IProtoMessage where
  payload := emptyGcmTag ++ List.replicate 12 0
  version := some Version
  contentTopic := "/test/1/waku-light-push/utf8"
  timestamp := none
  metaField := none
  rateLimitProof := none
  ephemeral := none

/-- The decoder rejects it. -/
theorem fromProtoObj_rejects : ¬∀ (C : Crypto) (decoder : Decoder) (pubsubTopic : String) (protoMessage : IProtoMessage),
    ∃ result, decoder.fromProtoObj C pubsubTopic protoMessage = .ok result := by
  intro hall
  obtain ⟨result, h⟩ := hall emptyCrypto (.symmetric sampleSymmetricDecoder) "/waku/2/rs/1/0" emptyProto
  have hthrows : ((Decoder.symmetric sampleSymmetricDecoder).fromProtoObj emptyCrypto "/waku/2/rs/1/0"
      emptyProto).toBool = false := by decide +kernel
  rw [h] at hthrows
  cases hthrows

end JsWaku.MessageEncryption
