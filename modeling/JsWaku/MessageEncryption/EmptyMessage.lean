import JsWaku.MessageEncryption.RoundTrip

/-!
# ECIES and the empty message

`Ecies.decrypt` asks for at least `metaLength` bytes and refuses a ciphertext of exactly that length. The encryption of
a message is `metaLength` bytes longer than the message (`length_encrypt`), so the one message that is encrypted and not
decrypted is the empty one (`decrypt_encrypt_iff`). That encryption succeeds needs that the primitives accept arguments
of the right sizes, `Crypto.Accepts`.
-/

namespace JsWaku

/-- The primitives return for arguments of the sizes that they are given here. -/
structure Crypto.Accepts (C : Crypto) : Prop where
  /-- A digest has 32 bytes. -/
  sha256 : ∀ data, (C.sha256 data).length = 32
  /-- AES-CTR takes a counter and a key of 16 bytes. -/
  aesCtr : ∀ {counter key : Bytes} (data : Bytes), counter.length = 16 → key.length = 16 →
    ∃ cipher, C.aesCtrEncrypt counter key data = .ok cipher
  /-- HMAC takes a key of 32 bytes. -/
  hmac : ∀ {key : Bytes} (msg : Bytes), key.length = 32 → ∃ tag, C.hmacSha256Sign key msg = .ok tag
  /-- The keys of two key pairs have a shared secret. -/
  ecdh : ∀ {priv pub priv' pub'}, C.getPublicKey priv = .ok pub → C.getPublicKey priv' = .ok pub' →
    ∃ secret, C.getSharedSecret priv' pub = .ok secret

namespace Ecies

variable {C : Crypto} {privateKey publicKey ephemPublicKey : Bytes} {ephemPrivateKey : RandomBytes 32}

/-- A key of 32 bytes is one digest. -/
theorem kdf_eq (C : Crypto) (secret : Bytes) : kdf C secret 32 = .ok (C.sha256 (Endian.toBE 4 1 ++ secret)) := by
  have hinput : concat [Endian.toBE 4 1, secret] (some ((Endian.toBE 4 1).length + secret.length)) =
      .ok (Endian.toBE 4 1 ++ secret) := by
    rw [concat_some _ _ (by simp)]
    simp
  have hresult : ∀ digest : Bytes, concat [[], digest] (some (([] : Bytes).length + digest.length)) = .ok digest := by
    intro digest
    rw [concat_some _ _ (by simp)]
    simp
  show kdfLoop C secret 1 1 [] = _
  rw [kdfLoop]
  simp only [hinput, ok_bind, hresult]
  rfl

/-- The keys of two key pairs are accepted by `derive`. -/
theorem derive_returns (hC : C.Lawful) (hA : C.Accepts) (hkey : C.getPublicKey privateKey = .ok publicKey)
    (hephem : C.getPublicKey ephemPrivateKey = .ok ephemPublicKey) : ∃ px, derive C ephemPrivateKey publicKey = .ok px := by
  obtain ⟨-, hlen, hhead⟩ := hC.keyPair hkey
  obtain ⟨secret, hsecret⟩ := hA.ecdh hkey hephem
  refine ⟨sliceFrom secret 1, ?_⟩
  rw [derive, if_neg (by simp [ephemPrivateKey.2]), if_neg (by simp [hlen]), if_neg (by simp [hhead]), hsecret, ok_bind]
  rfl

/-- Every message is encrypted. -/
theorem encrypt_returns (hC : C.Lawful) (hA : C.Accepts) (hkey : C.getPublicKey privateKey = .ok publicKey)
    (hephem : C.getPublicKey ephemPrivateKey = .ok ephemPublicKey) (iv : RandomBytes 16) (msg : Bytes) :
    ∃ encrypted, encrypt C ephemPrivateKey iv publicKey msg = .ok encrypted := by
  obtain ⟨px, hpx⟩ := derive_returns hC hA hkey hephem
  obtain ⟨hash, hkdf, hhash⟩ : ∃ hash, kdf C px 32 = .ok hash ∧ hash.length = 32 := ⟨_, kdf_eq C px, hA.sha256 _⟩
  have hkeyLength : (slice hash 0 16).length = 16 := by
    have hslice : slice hash 0 16 = hash.take 16 := slice_natCast hash 0 16
    rw [hslice, List.length_take, hhash]
    rfl
  obtain ⟨cipherText, hcipher⟩ := hA.aesCtr msg iv.2 hkeyLength
  obtain ⟨hmac, hhmac⟩ := hA.hmac (iv.val ++ cipherText) (hA.sha256 (sliceFrom hash 16))
  have hjoin : concat [iv.val, cipherText] (some (iv.val.length + cipherText.length)) = .ok (iv.val ++ cipherText) := by
    rw [concat_some _ _ (by simp)]
    simp
  rw [encrypt, hpx, ok_bind, hkdf]
  simp only [ok_bind, hcipher, hjoin, hhmac, hephem]
  rw [concat_some _ _ (by simp; omega)]
  exact ⟨_, rfl⟩

/-- An encryption is longer than its message by the length of the other parts. -/
theorem length_encrypt (hC : C.Lawful) {iv : RandomBytes 16} {msg encrypted : Bytes}
    (h : encrypt C ephemPrivateKey iv publicKey msg = .ok encrypted) : encrypted.length = metaLength + msg.length := by
  obtain ⟨px, hash, cipherText, hmac, ephemPublicKey, -, -, hcipher, hhmac, hpub, rfl⟩ := encrypt_spec h
  obtain ⟨-, hclen⟩ := hC.aesCtr hcipher
  obtain ⟨htag, -⟩ := hC.hmac hhmac
  obtain ⟨-, hpublen, -⟩ := hC.keyPair hpub
  simp only [List.length_append, hpublen, iv.2, hclen, htag, metaLength]
  omega

/-- **What ECIES decrypts of what it encrypts.** A message comes back from its encryption iff it is not empty. -/
theorem decrypt_encrypt_iff (hC : C.Lawful) (hA : C.Accepts) (hkey : C.getPublicKey privateKey = .ok publicKey)
    (hephem : C.getPublicKey ephemPrivateKey = .ok ephemPublicKey) (iv : RandomBytes 16) (msg : Bytes) :
    (do
      let encrypted ← encrypt C ephemPrivateKey iv publicKey msg
      decrypt C privateKey encrypted) = .ok msg ↔ msg ≠ [] := by
  obtain ⟨encrypted, henc⟩ := encrypt_returns hC hA hkey hephem iv msg
  rw [henc, ok_bind]
  constructor
  · rintro hdec rfl
    -- the length of the encryption is the bound itself
    have hlen := length_encrypt hC henc
    rw [decrypt, if_pos (by rw [hlen]; exact le_rfl)] at hdec
    cases hdec
  · exact fun hmsg => decrypt_encrypt hC hkey hmsg henc

end Ecies

namespace MessageEncryption

/-- The HMAC tags of the iv alone and of the iv with the encryption of the byte 7. -/
def shortTag (message : Bytes) : Bytes :=
  if message.length = 16 then Endian.toBE 32 0x8330bcf13ba79a788db558aa713f7d76e8dd0bb5c9779da1c692465ef47a8880
  else Endian.toBE 32 0xe2ec2d5af95d468c1bcea9fe327a7c12335d40fb216ebd3fc87a146411be5e8b

/-- The primitives on the empty message and on the message of one byte 7. -/
def shortCrypto : Crypto :=
  { sampleCrypto with
    hmacSha256Sign := fun _ message => .ok (shortTag message)
    hmacSha256Verify := fun _ message tag => .ok (tag == shortTag message) }

theorem shortCrypto_lawful : shortCrypto.Lawful where
  aesCtr := @Crypto.Lawful.aesCtr sampleCrypto sampleCrypto_lawful
  aesGcm := @Crypto.Lawful.aesGcm sampleCrypto sampleCrypto_lawful
  hmac := by
    intro key msg tag h
    cases Except.ok.inj h
    refine ⟨?_, by simp [shortCrypto]⟩
    unfold shortTag
    split <;> exact Endian.length_toBE _ _
  keyPair := @Crypto.Lawful.keyPair sampleCrypto sampleCrypto_lawful
  ecdh := @Crypto.Lawful.ecdh sampleCrypto sampleCrypto_lawful
  recover := @Crypto.Lawful.recover sampleCrypto sampleCrypto_lawful

theorem shortCrypto_accepts : shortCrypto.Accepts where
  sha256 := by
    intro data
    show (sampleCrypto.sha256 data).length = 32
    unfold sampleCrypto
    simp only
    split <;> exact Endian.length_toBE _ _
  aesCtr := fun _ _ _ => ⟨_, rfl⟩
  hmac := fun _ _ => ⟨_, rfl⟩
  ecdh := fun _ _ => ⟨_, rfl⟩

theorem getPublicKey_shortCrypto : shortCrypto.getPublicKey samplePrivateKey = .ok samplePublicKey := by decide +kernel

/-- A message of one byte. -/
theorem decrypt_encrypt_iff_short :
    (do
      let encrypted ← Ecies.encrypt shortCrypto ⟨samplePrivateKey, rfl⟩ ⟨List.replicate 16 0, rfl⟩ samplePublicKey [7]
      Ecies.decrypt shortCrypto samplePrivateKey encrypted) = .ok [7] ↔ ([7] : Bytes) ≠ [] :=
  Ecies.decrypt_encrypt_iff shortCrypto_lawful shortCrypto_accepts getPublicKey_shortCrypto getPublicKey_shortCrypto _ _

/-- The empty message is encrypted to 113 bytes, which are refused. -/
theorem decrypt_encrypt_empty :
    ∃ encrypted, Ecies.encrypt shortCrypto ⟨samplePrivateKey, rfl⟩ ⟨List.replicate 16 0, rfl⟩ samplePublicKey [] =
        .ok encrypted ∧ encrypted.length = 113 ∧
      Ecies.decrypt shortCrypto samplePrivateKey encrypted =
        .error (.error "Invalid Ciphertext. Data is too small. It should ba at least 113 bytes") := by
  obtain ⟨encrypted, h⟩ : ∃ encrypted, Ecies.encrypt shortCrypto ⟨samplePrivateKey, rfl⟩ ⟨List.replicate 16 0, rfl⟩
      samplePublicKey [] = .ok encrypted :=
    Ecies.encrypt_returns shortCrypto_lawful shortCrypto_accepts getPublicKey_shortCrypto getPublicKey_shortCrypto _ _
  have hlen := Ecies.length_encrypt shortCrypto_lawful h
  refine ⟨encrypted, h, hlen, ?_⟩
  rw [Ecies.decrypt, if_pos (by rw [hlen]; exact le_rfl)]
  rfl

end MessageEncryption

end JsWaku
