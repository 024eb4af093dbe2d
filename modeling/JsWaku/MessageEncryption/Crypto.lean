import JsWaku.Runtime.TypedArray

/-!
# The cryptographic primitives

`packages/message-encryption/src/crypto` calls `@noble/secp256k1`, `js-sha3` and the Web Crypto API. Their functions
are the fields of `Crypto`; what the encoders rely on is `Crypto.Lawful`. The functions that may reject their argument
return in `Except`. Random values are arguments: `RandomBytes n` is what `randomBytes(n)` may give.
-/

namespace JsWaku

/-- The primitives of the crypto libraries. -/
structure Crypto where
  /-- `sha3.keccak256` -/
  keccak256 : Bytes → Bytes
  /-- `secp.utils.sha256` -/
  sha256 : Bytes → Bytes
  /-- `secp.getPublicKey(privateKey, false)`: the uncompressed key -/
  getPublicKey : Bytes → Except JsError Bytes
  /-- `secp.getSharedSecret(privateKey, publicKey, true)` -/
  getSharedSecret : Bytes → Bytes → Except JsError Bytes
  /-- `secp.sign(message, privateKey, { recovered: true, der: false })` -/
  sign : Bytes → Bytes → Except JsError (Bytes × ℕ)
  /-- `secp.Signature.fromCompact`; the signature object is given by its compact form -/
  fromCompact : Bytes → Except JsError Bytes
  /-- `secp.recoverPublicKey(message, signature, recovery, false)` -/
  recoverPublicKey : Bytes → Bytes → ℕ → Except JsError Bytes
  /-- AES-CTR of counter, key and data -/
  aesCtrEncrypt : Bytes → Bytes → Bytes → Except JsError Bytes
  aesCtrDecrypt : Bytes → Bytes → Bytes → Except JsError Bytes
  /-- AES-GCM of iv, key and data -/
  aesGcmEncrypt : Bytes → Bytes → Bytes → Except JsError Bytes
  aesGcmDecrypt : Bytes → Bytes → Bytes → Except JsError Bytes
  /-- HMAC-SHA-256 of key and message -/
  hmacSha256Sign : Bytes → Bytes → Except JsError Bytes
  /-- key, message and tag -/
  hmacSha256Verify : Bytes → Bytes → Bytes → Except JsError Bool

/-- What the code relies on. -/
structure Crypto.Lawful (C : Crypto) : Prop where
  /-- AES-CTR decryption inverts encryption and keeps the length. -/
  aesCtr : ∀ {counter key data cipher}, C.aesCtrEncrypt counter key data = .ok cipher →
    C.aesCtrDecrypt counter key cipher = .ok data ∧ cipher.length = data.length
  /-- AES-GCM decryption inverts encryption. -/
  aesGcm : ∀ {iv key data cipher}, C.aesGcmEncrypt iv key data = .ok cipher →
    C.aesGcmDecrypt iv key cipher = .ok data
  /-- A tag has 32 bytes and verifies. -/
  hmac : ∀ {key msg tag}, C.hmacSha256Sign key msg = .ok tag →
    tag.length = 32 ∧ C.hmacSha256Verify key msg tag = .ok true
  /-- Private keys have 32 bytes, uncompressed public keys have 65 and start with 4. -/
  keyPair : ∀ {priv pub}, C.getPublicKey priv = .ok pub → priv.length = 32 ∧ pub.length = 65 ∧ pub[0]? = some 4
  /-- ECDH is symmetric. -/
  ecdh : ∀ {priv pub priv' pub' secret}, C.getPublicKey priv = .ok pub → C.getPublicKey priv' = .ok pub' →
    C.getSharedSecret priv' pub = .ok secret → C.getSharedSecret priv pub' = .ok secret
  /-- A signature comes from a key pair, has 64 bytes and a recovery id below 4, and gives back the public key. -/
  recover : ∀ {hash priv signature recovery}, C.sign hash priv = .ok (signature, recovery) →
    signature.length = 64 ∧ recovery < 4 ∧ ∃ pub sig, C.getPublicKey priv = .ok pub ∧
      C.fromCompact signature = .ok sig ∧ C.recoverPublicKey hash sig recovery = .ok pub

/-- What `randomBytes(n)` may return. -/
abbrev RandomBytes (n : ℕ) := { bytes : Bytes // bytes.length = n }

/-- `sign` of `crypto/utils.ts`: the signature followed by the recovery id. -/
def sign (C : Crypto) (message privateKey : Bytes) : Except JsError Bytes := do
  let (signature, recoveryId) ← C.sign message privateKey
  concat [signature, [UInt8.ofNat recoveryId]] (some (signature.length + 1))

/-- A signature is 64 bytes and the recovery id. -/
theorem sign_spec {C : Crypto} (hC : C.Lawful) {hash priv bytes : Bytes} (h : sign C hash priv = .ok bytes) :
    ∃ signature recovery sig pub, bytes = signature ++ [UInt8.ofNat recovery] ∧ signature.length = 64 ∧ recovery < 4 ∧
      C.getPublicKey priv = .ok pub ∧ C.fromCompact signature = .ok sig ∧
      C.recoverPublicKey hash sig recovery = .ok pub := by
  obtain ⟨⟨signature, recovery⟩, hs, h⟩ := bind_eq_ok.1 h
  obtain ⟨hlen, hrec, pub, sig, hpub, hsig, hrecover⟩ := hC.recover hs
  refine ⟨signature, recovery, sig, pub, ?_, hlen, hrec, hpub, hsig, hrecover⟩
  simp only [concat_some [signature, [UInt8.ofNat recovery]] (signature.length + 1) (by simp), Except.ok.injEq] at h
  simpa using h.symm

end JsWaku
