import JsWaku.MessageEncryption.Crypto

/-!
# The two ciphers

`crypto/ecies.ts` and the symmetric pair of `encryption.ts` (with `crypto/symmetric.ts`) of
`packages/message-encryption/src`:

    ECIES      ephemeral public key (65) | iv (16) | cipher text | HMAC tag (32)
    symmetric  cipher text with its tag | iv (12)

Decryption cuts its input at fixed offsets; it returns the message that was encrypted (`Ecies.decrypt_encrypt`, for a
message that is not empty, and `decryptSymmetric_encryptSymmetric`).
-/

namespace JsWaku

open Endian

namespace Ecies

/-! ## ECIES -/

/-- The rounds of the loop of `kdf`. -/
def kdfLoop (C : Crypto) (secret : Bytes) : (rounds ctr : ℕ) → (result : Bytes) → Except JsError Bytes
  | 0, _, result => .ok result
  | rounds + 1, ctr, result => do
    let counters := toBE 4 ctr
    let countersSecret ← concat [counters, secret] (some (counters.length + secret.length))
    let hashResult := C.sha256 countersSecret
    let result ← concat [result, hashResult] (some (result.length + hashResult.length))
    kdfLoop C secret rounds (ctr + 1) result

/-- `kdf`: each round writes 32 bytes, until `outputLength` is reached. -/
def kdf (C : Crypto) (secret : Bytes) (outputLength : ℕ) : Except JsError Bytes :=
  kdfLoop C secret ((outputLength + 31) / 32) 1 []

/-- `derive`. -/
def derive (C : Crypto) (privateKeyA publicKeyB : Bytes) : Except JsError Bytes :=
  if privateKeyA.length ≠ 32 then
    throw (.error ("Bad private key, it should be 32 bytes but it's actually " ++ toString privateKeyA.length ++
      " bytes long"))
  else if publicKeyB.length ≠ 65 then
    throw (.error ("Bad public key, it should be 65 bytes but it's actually " ++ toString publicKeyB.length ++
      " bytes long"))
  else if publicKeyB[0]? ≠ some 4 then throw (.error "Bad public key, a valid public key would begin with 4")
  else do
    let px ← C.getSharedSecret privateKeyA publicKeyB
    return sliceFrom px 1

/-- `encrypt`, with the ephemeral private key and the iv that `randomBytes` gives. -/
def encrypt (C : Crypto) (ephemPrivateKey : RandomBytes 32) (iv : RandomBytes 16) (publicKeyTo msg : Bytes) :
    Except JsError Bytes := do
  let sharedPx ← derive C ephemPrivateKey publicKeyTo
  let hash ← kdf C sharedPx 32
  let encryptionKey := slice hash 0 16
  let cipherText ← C.aesCtrEncrypt iv encryptionKey msg
  let ivCipherText ← concat [iv, cipherText] (some (iv.val.length + cipherText.length))
  let macKey := C.sha256 (sliceFrom hash 16)
  let hmac ← C.hmacSha256Sign macKey ivCipherText
  let ephemPublicKey ← C.getPublicKey ephemPrivateKey
  concat [ephemPublicKey, ivCipherText, hmac] (some (ephemPublicKey.length + ivCipherText.length + hmac.length))

/-- `metaLength`. -/
def metaLength : ℕ := 1 + 64 + 16 + 32

/-- `decrypt`. -/
def decrypt (C : Crypto) (privateKey encrypted : Bytes) : Except JsError Bytes :=
  if encrypted.length ≤ metaLength then
    throw (.error ("Invalid Ciphertext. Data is too small. It should ba at least " ++ toString metaLength ++ " bytes"))
  else if encrypted[0]? ≠ some 4 then
    throw (.error ("Not a valid ciphertext. It should begin with 4 but actually begin with " ++
      toString (encrypted.headD 0)))
  else do
    let ephemPublicKey := slice encrypted 0 65
    let cipherTextLength : ℕ := encrypted.length - metaLength
    let iv := slice encrypted 65 (65 + 16)
    let cipherAndIv := slice encrypted 65 (65 + 16 + cipherTextLength)
    let ciphertext := sliceFrom cipherAndIv 16
    let msgMac := sliceFrom encrypted (65 + 16 + cipherTextLength)
    let px ← derive C privateKey ephemPublicKey
    let hash ← kdf C px 32
    let encryptionKey := slice hash 0 16
    let macKey := C.sha256 (sliceFrom hash 16)
    let verified ← C.hmacSha256Verify macKey cipherAndIv msgMac
    if !verified then throw (.error "Incorrect MAC") else C.aesCtrDecrypt iv encryptionKey ciphertext

/-- The two sides of an exchange derive the same secret. -/
theorem derive_symm {C : Crypto} (hC : C.Lawful) {priv pub priv' pub' px : Bytes} (h : C.getPublicKey priv = .ok pub)
    (h' : C.getPublicKey priv' = .ok pub') (hd : derive C priv' pub = .ok px) : derive C priv pub' = .ok px := by
  obtain ⟨hlen, -, -⟩ := hC.keyPair h
  obtain ⟨hlen', hpub', hhead'⟩ := hC.keyPair h'
  obtain ⟨-, hpub, hhead⟩ := hC.keyPair h
  rw [derive, if_neg (by simp [hlen']), if_neg (by simp [hpub]), if_neg (by simp [hhead])] at hd
  obtain ⟨secret, hsecret, hpx⟩ := bind_eq_ok.1 hd
  rw [derive, if_neg (by simp [hlen]), if_neg (by simp [hpub']), if_neg (by simp [hhead']), hC.ecdh h h' hsecret,
    ok_bind]
  exact hpx

/-- The parts of an encryption. -/
theorem encrypt_spec {C : Crypto} {ephemPrivateKey : RandomBytes 32} {iv : RandomBytes 16} {publicKeyTo msg : Bytes}
    {encrypted : Bytes} (h : encrypt C ephemPrivateKey iv publicKeyTo msg = .ok encrypted) :
    ∃ px hash cipherText hmac ephemPublicKey, derive C ephemPrivateKey publicKeyTo = .ok px ∧
      kdf C px 32 = .ok hash ∧ C.aesCtrEncrypt iv (slice hash 0 16) msg = .ok cipherText ∧
      C.hmacSha256Sign (C.sha256 (sliceFrom hash 16)) (iv.val ++ cipherText) = .ok hmac ∧
      C.getPublicKey ephemPrivateKey = .ok ephemPublicKey ∧
      encrypted = ephemPublicKey ++ (iv.val ++ cipherText) ++ hmac := by
  obtain ⟨px, hpx, h⟩ := bind_eq_ok.1 h
  obtain ⟨hash, hhash, h⟩ := bind_eq_ok.1 h
  obtain ⟨cipherText, hcipher, h⟩ := bind_eq_ok.1 h
  rw [concat_some _ _ (by simp), ok_bind] at h
  obtain ⟨hmac, hhmac, h⟩ := bind_eq_ok.1 h
  obtain ⟨ephemPublicKey, hpub, h⟩ := bind_eq_ok.1 h
  rw [concat_some _ _ (by simp; omega)] at h
  simp only [List.flatten_cons, List.flatten_nil, List.append_nil, List.length_append, Nat.sub_self,
    List.replicate_zero] at hhmac h
  refine ⟨px, hash, cipherText, hmac, ephemPublicKey, hpx, hhash, hcipher, hhmac, hpub, ?_⟩
  rw [← Except.ok.inj h]
  simp [Nat.add_assoc]

/-- **ECIES round trip.** The recipient gets back a message that is not empty. -/
theorem decrypt_encrypt {C : Crypto} (hC : C.Lawful) {ephemPrivateKey : RandomBytes 32} {iv : RandomBytes 16}
    {privateKey publicKey msg encrypted : Bytes} (hkey : C.getPublicKey privateKey = .ok publicKey) (hmsg : msg ≠ [])
    (h : encrypt C ephemPrivateKey iv publicKey msg = .ok encrypted) : decrypt C privateKey encrypted = .ok msg := by
  obtain ⟨px, hash, cipherText, hmac, ephemPublicKey, hpx, hhash, hcipher, hhmac, hpub, rfl⟩ := encrypt_spec h
  obtain ⟨hdecrypt, hclen⟩ := hC.aesCtr hcipher
  obtain ⟨htag, hverify⟩ := hC.hmac hhmac
  obtain ⟨-, hpublen, hhead⟩ := hC.keyPair hpub
  obtain ⟨iv, hiv⟩ := iv
  simp only at hdecrypt hhmac hverify ⊢
  have hpos : 0 < msg.length := List.length_pos_iff.2 hmsg
  set encrypted := ephemPublicKey ++ (iv ++ cipherText) ++ hmac with hencrypted
  have hlen : encrypted.length = metaLength + cipherText.length := by
    simp [hencrypted, metaLength, hpublen, hiv, htag]; omega
  have hfirst : encrypted[0]? = some 4 := by
    rw [hencrypted, List.append_assoc, List.getElem?_append_left (by omega), hhead]
  -- the slices of the decoder fall on the boundaries of the parts
  have hephem : slice encrypted 0 65 = ephemPublicKey := by
    rw [hencrypted, List.append_assoc]
    exact slice_append_left _ _ 65 hpublen.symm
  have hivs : slice encrypted 65 (65 + 16) = iv := by
    have := slice_append_mid ephemPublicKey iv (cipherText ++ hmac) 65 (65 + 16) hpublen.symm (by omega)
    simpa [hencrypted] using this
  have hboth : slice encrypted 65 (65 + 16 + (encrypted.length - metaLength : ℕ)) = iv ++ cipherText := by
    have := slice_append_mid ephemPublicKey (iv ++ cipherText) hmac 65 (65 + 16 + cipherText.length) hpublen.symm
      (by simp; omega)
    rw [hlen, Nat.add_sub_cancel_left]
    exact_mod_cast this
  have hmac' : sliceFrom encrypted (65 + 16 + (encrypted.length - metaLength : ℕ)) = hmac := by
    have := sliceFrom_append (ephemPublicKey ++ (iv ++ cipherText)) hmac (65 + 16 + cipherText.length)
      (by simp; omega)
    rw [hlen, Nat.add_sub_cancel_left]
    exact_mod_cast this
  have hcut : sliceFrom (iv ++ cipherText) 16 = cipherText := sliceFrom_append iv cipherText 16 hiv.symm
  rw [decrypt, if_neg (by omega), if_neg (by simp [hfirst])]
  simp only [hephem, hivs, hboth, hmac', hcut, derive_symm hC hkey hpub hpx, ok_bind, hhash, hverify, hdecrypt,
    Bool.not_true, Bool.false_eq_true, if_false]

end Ecies

/-! ## Symmetric encryption -/

/-- `Symmetric.ivSize` of `misc.ts`. -/
def Symmetric.ivSize : ℕ := 12

/-- `encryptSymmetric`, with the iv that `generateIv` gives. -/
def encryptSymmetric (C : Crypto) (iv : RandomBytes Symmetric.ivSize) (data key : Bytes) : Except JsError Bytes := do
  let cipher ← C.aesGcmEncrypt iv key data
  concat [cipher, iv] none

/-- `decryptSymmetric`. -/
def decryptSymmetric (C : Crypto) (payload key : Bytes) : Except JsError Bytes :=
  let ivStart : ℤ := (payload.length : ℤ) - Symmetric.ivSize
  let cipher := slice payload 0 ivStart
  let iv := sliceFrom payload ivStart
  C.aesGcmDecrypt iv key cipher

/-- **Symmetric round trip.** -/
theorem decryptSymmetric_encryptSymmetric {C : Crypto} (hC : C.Lawful) {iv : RandomBytes Symmetric.ivSize}
    {data key payload : Bytes} (h : encryptSymmetric C iv data key = .ok payload) :
    decryptSymmetric C payload key = .ok data := by
  obtain ⟨cipher, hcipher, h⟩ := bind_eq_ok.1 h
  obtain ⟨iv, hiv⟩ := iv
  rw [concat_none] at h
  have hpayload : payload = cipher ++ iv := by simpa using (Except.ok.inj h).symm
  have hstart : (payload.length : ℤ) - Symmetric.ivSize = (cipher.length : ℕ) := by
    rw [hpayload, List.length_append, hiv]; push_cast; ring
  have hleft : slice payload 0 (cipher.length : ℕ) = cipher := by rw [hpayload]; exact slice_append_left _ _ _ rfl
  have hright : sliceFrom payload (cipher.length : ℕ) = iv := by rw [hpayload]; exact sliceFrom_append _ _ _ rfl
  simp only [decryptSymmetric, hstart, hleft, hright]
  exact hC.aesGcm hcipher

end JsWaku
