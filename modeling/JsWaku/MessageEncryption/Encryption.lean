import JsWaku.MessageEncryption.Crypto
import Mathlib.Tactic.IntervalCases

/-!
# The payload envelope

`preCipher` and `postCipher` of `packages/message-encryption/src/encryption.ts`. An envelope is

    flags | payload length | payload | padding | [signature]

where the two low bits of the flags give the width of the length field and the third says whether the envelope is
signed. For a payload below `2 ^ 24` bytes the width needs two bits only (`sizeOfPayloadSizeField_le`), so an envelope
that `preCipher` returns has exactly this shape (`preCipher_spec`), and `postCipher` reads payload, signature and
signer back from it (`postCipher_unsigned`, `postCipher_signed`).
-/

namespace JsWaku

open Endian

def FlagsLength : ℕ := 1
def FlagMask : ℕ := 3
def IsSignedMask : ℕ := 4
def PaddingTarget : ℕ := 256
def SignatureLength : ℕ := 65

/-! ## The code -/

/-- `array[index] |= value`, which does nothing past the end. -/
def orByte (array : Bytes) (index value : ℕ) : Bytes :=
  array.modify index (fun b => UInt8.ofNat (b.toNat ||| value))

/-- `getSizeOfPayloadSizeField`. The data view is opened on the buffer of the array. -/
def getSizeOfPayloadSizeField (message : Uint8Array) : Except JsError ℕ := do
  let flags ← DataView.getUint8 message.buffer 0
  return flags.toNat &&& FlagMask

/-- `getPayloadSize`. -/
def getPayloadSize (message : Bytes) (sizeOfPayloadSizeField : ℕ) : Except JsError ℤ := do
  let payloadSizeBytes := slice message 1 (1 + sizeOfPayloadSizeField : ℕ)
  let payloadSizeBytes ←
    if sizeOfPayloadSizeField < 4 then
      concat [payloadSizeBytes, List.replicate (4 - sizeOfPayloadSizeField) 0] (some 4)
    else pure payloadSizeBytes
  DataView.getInt32LE payloadSizeBytes 0

/-- `isMessageSigned`. -/
def isMessageSigned (message : Uint8Array) : Except JsError Bool := do
  let flags ← DataView.getUint8 message.buffer 0
  return (flags.toNat &&& IsSignedMask) == IsSignedMask

/-- The loop of `computeSizeOfPayloadSizeField` with counter `s` and at most `fuel` rounds. The code divides floats;
`i >= 256` does not see the fraction. -/
def sizeLoop : (fuel s i : ℕ) → ℕ
  | 0, s, _ => s
  | fuel + 1, s, i => if i ≥ 256 then sizeLoop fuel (s + 1) (i / 256) else s

/-- `computeSizeOfPayloadSizeField`. Each round makes `i` smaller, so `payload.length` rounds are enough. -/
def computeSizeOfPayloadSizeField (payload : Bytes) : ℕ := sizeLoop payload.length 1 payload.length

/-- `addPayloadSizeField`. -/
def addPayloadSizeField (msg payload : Bytes) : Except JsError Bytes := do
  let fieldSize := computeSizeOfPayloadSizeField payload
  let field ← DataView.setUint32LE (List.replicate 4 0) 0 payload.length
  let field := slice field 0 fieldSize
  let msg ← concat [msg, field] none
  return orByte msg 0 fieldSize

/-- `validateDataIntegrity`. -/
def validateDataIntegrity (value : Bytes) (expectedSize : ℕ) : Bool :=
  if value.length ≠ expectedSize then false else expectedSize ≤ 3 || value.any (· != 0)

/-- `getSignature`. -/
def getSignature (message : Bytes) : Bytes :=
  slice message ((message.length : ℤ) - SignatureLength) message.length

/-- `getHash`. -/
def getHash (C : Crypto) (message : Bytes) (isSigned : Bool) : Bytes :=
  if isSigned then C.keccak256 (slice message 0 ((message.length : ℤ) - SignatureLength)) else C.keccak256 message

/-- `ecRecoverPubKey`. -/
def ecRecoverPubKey (C : Crypto) (messageHash signature : Bytes) : Except JsError Bytes := do
  let recovery ← DataView.getUint8 (sliceFrom signature 64) 0
  let _signature ← C.fromCompact (slice signature 0 64)
  C.recoverPublicKey messageHash _signature recovery.toNat

/-- The raw size computed by `preCipher`. -/
def rawSize (messagePayload : Bytes) (signed : Bool) : ℕ :=
  let rawSize := FlagsLength + computeSizeOfPayloadSizeField messagePayload + messagePayload.length
  if signed then rawSize + SignatureLength else rawSize

/-- The padding size computed by `preCipher`. -/
def paddingSize (messagePayload : Bytes) (signed : Bool) : ℕ :=
  let remainder := rawSize messagePayload signed % PaddingTarget
  PaddingTarget - remainder

/-- `preCipher`; `randomBytes` gives the padding. -/
def preCipher (C : Crypto) (randomBytes : ℕ → Bytes) (messagePayload : Bytes) (sigPrivKey : Option Bytes) :
    Except JsError Bytes := do
  let envelope ← addPayloadSizeField [0] messagePayload
  let envelope ← concat [envelope, messagePayload] none
  let paddingSize := paddingSize messagePayload sigPrivKey.isSome
  let pad := randomBytes paddingSize
  if !validateDataIntegrity pad paddingSize then
    throw (.error ("failed to generate random padding of size " ++ toString paddingSize))
  else do
    let envelope ← concat [envelope, pad] none
    match sigPrivKey with
    | some sigPrivKey => do
      let envelope := orByte envelope 0 IsSignedMask
      let hash := C.keccak256 envelope
      let bytesSignature ← sign C hash sigPrivKey
      concat [envelope, bytesSignature] none
    | none => return envelope

/-- `Signature`. -/
structure Signature where
  signature : Bytes
  publicKey : Option Bytes
  deriving DecidableEq, Repr

/-- The result of `postCipher`. -/
structure Plain where
  payload : Bytes
  sig : Option Signature
  deriving DecidableEq, Repr

/-- `postCipher`. -/
def postCipher (C : Crypto) (message : Uint8Array) : Except JsError (Option Plain) := do
  let sizeOfPayloadSizeField ← getSizeOfPayloadSizeField message
  if sizeOfPayloadSizeField = 0 then return none else do
    let payloadSize ← getPayloadSize message.bytes sizeOfPayloadSizeField
    let payloadStart : ℤ := 1 + sizeOfPayloadSizeField
    let payload := slice message.bytes payloadStart (payloadStart + payloadSize)
    let isSigned ← isMessageSigned message
    if isSigned then do
      let signature := getSignature message.bytes
      let hash := getHash C message.bytes isSigned
      let publicKey ← ecRecoverPubKey C hash signature
      return some { payload, sig := some { signature, publicKey := some publicKey } }
    else return some { payload, sig := none }

/-! ## The width of the length field -/

/-- The loop counts the base-256 digits of `i`: the result is the least width that holds it. -/
theorem sizeLoop_spec (fuel s i : ℕ) (h : i ≤ fuel) : ∃ k, sizeLoop fuel s i = s + k ∧ i < 256 ^ (k + 1) ∧
    ∀ w, i < 256 ^ (w + 1) → k ≤ w := by
  induction fuel generalizing s i with
  | zero => exact ⟨0, rfl, by omega, fun _ _ => Nat.zero_le _⟩
  | succ fuel ih =>
    by_cases hi : i ≥ 256
    · obtain ⟨k, hk, hlt, hmin⟩ := ih (s + 1) (i / 256) (by omega)
      refine ⟨k + 1, ?_, ?_, ?_⟩
      · rw [sizeLoop, if_pos hi, hk]; omega
      · rw [pow_succ]; omega
      · intro w hw
        cases w with
        | zero => omega
        | succ w =>
          have := hmin w (by rw [pow_succ] at hw; omega)
          omega
    · exact ⟨0, by rw [sizeLoop, if_neg hi]; rfl, by omega, fun _ _ => Nat.zero_le _⟩

/-- The field is wide enough for the length. -/
theorem length_lt_sizeOfPayloadSizeField (payload : Bytes) :
    payload.length < 256 ^ computeSizeOfPayloadSizeField payload := by
  obtain ⟨k, hk, hlt, -⟩ := sizeLoop_spec payload.length 1 payload.length le_rfl
  rwa [computeSizeOfPayloadSizeField, hk, Nat.add_comm]

theorem sizeOfPayloadSizeField_pos (payload : Bytes) : 0 < computeSizeOfPayloadSizeField payload := by
  obtain ⟨k, hk, -, -⟩ := sizeLoop_spec payload.length 1 payload.length le_rfl
  rw [computeSizeOfPayloadSizeField, hk]; omega

/-- The field is no wider than needed. -/
theorem sizeOfPayloadSizeField_le {payload : Bytes} {w : ℕ} (h : payload.length < 256 ^ (w + 1)) :
    computeSizeOfPayloadSizeField payload ≤ w + 1 := by
  obtain ⟨k, hk, -, hmin⟩ := sizeLoop_spec payload.length 1 payload.length le_rfl
  have := hmin w h
  rw [computeSizeOfPayloadSizeField, hk]; omega

/-! ## The shape of an envelope -/

/-- The header: the flags and the length field of width `n`. -/
def header (n : ℕ) (signed : Bool) (payload : Bytes) : Bytes :=
  UInt8.ofNat (if signed then n ||| IsSignedMask else n) :: toLE n payload.length

@[simp] theorem length_header (n : ℕ) (signed : Bool) (payload : Bytes) : (header n signed payload).length = 1 + n := by
  simp [header]; omega

/-- Flags and length field: the field is no wider than a 32-bit number. -/
theorem addPayloadSizeField_take (payload : Bytes) : addPayloadSizeField [0] payload =
    .ok (orByte (0 :: (toLE 4 payload.length).take (computeSizeOfPayloadSizeField payload)) 0
      (computeSizeOfPayloadSizeField payload)) := by
  have hset : DataView.setUint32LE (List.replicate 4 0) 0 payload.length = .ok (toLE 4 payload.length) := by
    have := setBytes_append [] (List.replicate 4 0) (toLE 4 payload.length) rfl (by simp)
    simpa [DataView.setUint32LE] using this
  have hslice : slice (toLE 4 payload.length) 0 (computeSizeOfPayloadSizeField payload) =
      (toLE 4 payload.length).take (computeSizeOfPayloadSizeField payload) := slice_natCast _ 0 _
  rw [addPayloadSizeField, hset, ok_bind]
  simp only [hslice, concat_none, ok_bind]
  simp [pure, Except.pure]

/-- Flags and length field, for a field that fits in a 32-bit number. -/
theorem addPayloadSizeField_eq {payload : Bytes} {n : ℕ} (hn : computeSizeOfPayloadSizeField payload = n) (h4 : n ≤ 4) :
    addPayloadSizeField [0] payload = .ok (header n false payload) := by
  rw [addPayloadSizeField_take, hn, take_toLE payload.length h4]
  simp [orByte, header]

/-- Setting the signed flag of a header. -/
theorem orByte_header {n : ℕ} (hn : n ≤ 3) (payload rest : Bytes) :
    orByte (header n false payload ++ rest) 0 IsSignedMask = header n true payload ++ rest := by
  have hnat : (UInt8.ofNat n).toNat = n := by rw [UInt8.toNat_ofNat', Nat.mod_eq_of_lt (by omega)]
  simp only [orByte, header, Bool.false_eq_true, ↓reduceIte, List.cons_append, List.modify_zero_cons, hnat]

/-- Accepted padding has the requested size. -/
theorem length_of_validateDataIntegrity {value : Bytes} {n : ℕ} (h : validateDataIntegrity value n = true) :
    value.length = n := by
  unfold validateDataIntegrity at h
  split at h
  · cases h
  · rename_i hn; exact not_not.1 hn

/-- The steps that `preCipher` makes before it signs. -/
theorem preCipher_padded {C : Crypto} {randomBytes : ℕ → Bytes} {payload : Bytes} {sigPrivKey : Option Bytes}
    {envelope : Bytes} {n : ℕ} (hn : computeSizeOfPayloadSizeField payload = n) (h4 : n ≤ 4)
    (h : preCipher C randomBytes payload sigPrivKey = .ok envelope) :
    ∃ pad, pad.length = paddingSize payload sigPrivKey.isSome ∧
      match sigPrivKey with
      | none => envelope = header n false payload ++ payload ++ pad
      | some key =>
        ∃ bytes, sign C (C.keccak256 (orByte (header n false payload ++ payload ++ pad) 0 IsSignedMask)) key =
          .ok bytes ∧ envelope = orByte (header n false payload ++ payload ++ pad) 0 IsSignedMask ++ bytes := by
  rw [preCipher, addPayloadSizeField_eq hn h4, ok_bind, concat_none, ok_bind] at h
  cases hv : validateDataIntegrity (randomBytes (paddingSize payload sigPrivKey.isSome))
      (paddingSize payload sigPrivKey.isSome) with
  | false => simp only [hv] at h; cases h
  | true =>
    refine ⟨_, length_of_validateDataIntegrity hv, ?_⟩
    simp only [hv, Bool.not_true, Bool.false_eq_true, if_false, concat_none, ok_bind, List.flatten_cons,
      List.flatten_nil, List.append_nil] at h
    cases sigPrivKey with
    | none => exact (Except.ok.inj h).symm
    | some key =>
      obtain ⟨bytes, hsign, h⟩ := bind_eq_ok.1 h
      exact ⟨bytes, hsign, (Except.ok.inj h).symm⟩

/-- What `preCipher` returns for a payload below `2 ^ 24` bytes: flags, length field, payload and padding, and for a
signed message the signature over all of it. -/
theorem preCipher_spec {C : Crypto} {randomBytes : ℕ → Bytes} {payload : Bytes} {sigPrivKey : Option Bytes}
    {envelope : Bytes} (hlen : payload.length < 2 ^ 24) (h : preCipher C randomBytes payload sigPrivKey = .ok envelope) :
    ∃ n pad, 0 < n ∧ n ≤ 3 ∧ payload.length < 256 ^ n ∧
      match sigPrivKey with
      | none => envelope = header n false payload ++ payload ++ pad
      | some key => ∃ bytes, sign C (C.keccak256 (header n true payload ++ payload ++ pad)) key = .ok bytes ∧
          envelope = header n true payload ++ payload ++ pad ++ bytes := by
  have hle : computeSizeOfPayloadSizeField payload ≤ 3 := sizeOfPayloadSizeField_le (w := 2) (by omega)
  obtain ⟨pad, -, hpad⟩ := preCipher_padded rfl (by omega) h
  refine ⟨_, pad, sizeOfPayloadSizeField_pos payload, hle, length_lt_sizeOfPayloadSizeField payload, ?_⟩
  cases sigPrivKey with
  | none => exact hpad
  | some key => simpa only [List.append_assoc, orByte_header hle] using hpad

/-! ## Reading an envelope -/

/-- The width of the length field is read back from the flags, signed or not. -/
theorem getSizeOfPayloadSizeField_header {n : ℕ} (hn : n ≤ 3) (signed : Bool) (payload rest : Bytes) :
    getSizeOfPayloadSizeField (.ofBuffer (header n signed payload ++ rest)) = .ok n := by
  interval_cases n <;> cases signed <;> rfl

/-- The signed flag is read back from the flags. -/
theorem isMessageSigned_header {n : ℕ} (hn : n ≤ 3) (signed : Bool) (payload rest : Bytes) :
    isMessageSigned (.ofBuffer (header n signed payload ++ rest)) = .ok signed := by
  interval_cases n <;> cases signed <;> rfl

/-- The length field is read as the number of its bytes, as many as there are. -/
theorem getPayloadSize_eq (message : Bytes) {n : ℕ} (hn : n ≤ 3) :
    getPayloadSize message n = .ok (leNat ((message.drop 1).take n) : ℤ) := by
  have hslice : slice message 1 (1 + n : ℕ) = (message.drop 1).take n := by
    rw [List.take_drop]
    exact slice_natCast message 1 (1 + n)
  set field := (message.drop 1).take n with hfield
  have hle : field.length ≤ n := List.length_take_le _ _
  have hsmall : leNat field < 2 ^ 24 :=
    (leNat_lt field).trans_le (Nat.pow_le_pow_right (by norm_num : 256 > 0) (hle.trans hn))
  -- a field cut off by the end of the message is filled up with zeros as well
  set padded := field ++ List.replicate (4 - n) 0 ++ List.replicate (4 - (field ++ List.replicate (4 - n) 0).length) 0
    with hpadded
  have hconcat : concat [field, List.replicate (4 - n) 0] (some 4) = .ok padded := by
    have h := concat_some [field, List.replicate (4 - n) 0] 4 (by simp; omega)
    simpa only [List.flatten_cons, List.flatten_nil, List.append_nil] using h
  have hread : DataView.read padded 0 4 = .ok padded := by
    have hwidth : 4 = padded.length := by simp [hpadded]; omega
    simpa using DataView.read_append [] padded [] rfl hwidth
  rw [getPayloadSize, hslice, if_pos (by omega), hconcat, ok_bind]
  show DataView.getInt32LE padded 0 = _
  rw [DataView.getInt32LE, hread]
  simp only [Functor.map, Except.map, hpadded, leNat_append_replicate_zero, Except.ok.injEq]
  exact Int.bmod_eq_of_le (by omega) (by omega)

/-- The length of the payload is read back from a field that holds it. -/
theorem getPayloadSize_header {n : ℕ} (hn : n ≤ 3) (signed : Bool) {payload : Bytes} (hp : payload.length < 256 ^ n)
    (rest : Bytes) : getPayloadSize (header n signed payload ++ rest) n = .ok payload.length := by
  have hfield : ((header n signed payload ++ rest).drop 1).take n = toLE n payload.length := by
    simp [header]
  rw [getPayloadSize_eq _ hn, hfield, leNat_toLE, Nat.mod_eq_of_lt hp]

/-- The payload is cut out of the envelope. -/
theorem slice_header (n : ℕ) (signed : Bool) (payload rest : Bytes) :
    slice (header n signed payload ++ payload ++ rest) (1 + n) (1 + n + payload.length) = payload := by
  have := slice_append_mid (header n signed payload) payload rest (1 + n) (1 + n + payload.length) (by simp) (by simp)
  simpa using this

/-- The signature is the tail of 65 bytes. -/
theorem getSignature_append (signedPart : Bytes) {bytes : Bytes} (h : bytes.length = SignatureLength) :
    getSignature (signedPart ++ bytes) = bytes := by
  have hstart : ((signedPart ++ bytes).length : ℤ) - SignatureLength = (signedPart.length : ℕ) := by
    rw [List.length_append, h]; push_cast; ring
  rw [getSignature, hstart]
  simpa using slice_append_mid signedPart bytes [] signedPart.length (signedPart ++ bytes).length rfl (by simp)

/-- The hash is taken of all that precedes the signature. -/
theorem getHash_append (C : Crypto) (signedPart : Bytes) {bytes : Bytes} (h : bytes.length = SignatureLength) :
    getHash C (signedPart ++ bytes) true = C.keccak256 signedPart := by
  have hstop : ((signedPart ++ bytes).length : ℤ) - SignatureLength = (signedPart.length : ℕ) := by
    rw [List.length_append, h]; push_cast; ring
  rw [getHash, if_pos rfl, hstop, slice_append_left _ _ _ rfl]

/-- The signer is recovered from a signature. -/
theorem ecRecoverPubKey_sign {C : Crypto} (hC : C.Lawful) {hash priv bytes : Bytes} (h : sign C hash priv = .ok bytes) :
    bytes.length = SignatureLength ∧ ∃ pub, C.getPublicKey priv = .ok pub ∧ ecRecoverPubKey C hash bytes = .ok pub := by
  obtain ⟨signature, recovery, sig, pub, rfl, hlen, hrec, hpub, hcompact, hrecover⟩ := sign_spec hC h
  have hbyte : DataView.getUint8 (sliceFrom (signature ++ [UInt8.ofNat recovery]) (64 : ℕ)) 0 =
      .ok (UInt8.ofNat recovery) := by
    rw [sliceFrom_append signature [UInt8.ofNat recovery] 64 hlen.symm]; rfl
  have hhead : slice (signature ++ [UInt8.ofNat recovery]) 0 (64 : ℕ) = signature :=
    slice_append_left signature [UInt8.ofNat recovery] 64 hlen.symm
  have hnat : (UInt8.ofNat recovery).toNat = recovery := by rw [UInt8.toNat_ofNat', Nat.mod_eq_of_lt (by omega)]
  refine ⟨by simp [hlen, SignatureLength], pub, hpub, ?_⟩
  simp only [Nat.cast_ofNat] at hbyte hhead
  rw [ecRecoverPubKey, hbyte, ok_bind, hhead, hcompact, ok_bind, hnat, hrecover]

/-- What follows a header and its payload is read only when the envelope is signed. -/
theorem postCipher_header (C : Crypto) {n : ℕ} (h0 : 0 < n) (hn : n ≤ 3) (signed : Bool) {payload : Bytes}
    (hp : payload.length < 256 ^ n) (rest : Bytes) :
    postCipher C (.ofBuffer (header n signed payload ++ payload ++ rest)) =
      if signed then do
        let message := header n signed payload ++ payload ++ rest
        let publicKey ← ecRecoverPubKey C (getHash C message true) (getSignature message)
        return some ⟨payload, some ⟨getSignature message, some publicKey⟩⟩
      else .ok (some ⟨payload, none⟩) := by
  have hsize := getSizeOfPayloadSizeField_header hn signed payload (payload ++ rest)
  have hlen := getPayloadSize_header hn signed hp (payload ++ rest)
  have hsigned := isMessageSigned_header hn signed payload (payload ++ rest)
  rw [← List.append_assoc] at hsize hlen hsigned
  simp only [postCipher, hsize, ok_bind, if_neg h0.ne', Uint8Array.bytes_ofBuffer, hlen, slice_header, hsigned]
  cases signed <;> rfl

/-- An unsigned envelope is opened to its payload. -/
theorem postCipher_unsigned (C : Crypto) {n : ℕ} (h0 : 0 < n) (hn : n ≤ 3) {payload : Bytes}
    (hp : payload.length < 256 ^ n) (pad : Bytes) :
    postCipher C (.ofBuffer (header n false payload ++ payload ++ pad)) = .ok (some ⟨payload, none⟩) :=
  postCipher_header C h0 hn false hp pad

/-- A signed envelope is opened to its payload, its last 65 bytes and its signer. -/
theorem postCipher_signed {C : Crypto} (hC : C.Lawful) {n : ℕ} (h0 : 0 < n) (hn : n ≤ 3)
    {payload pad bytes sigPrivKey : Bytes} (hp : payload.length < 256 ^ n)
    (hsign : sign C (C.keccak256 (header n true payload ++ payload ++ pad)) sigPrivKey = .ok bytes) :
    bytes.length = SignatureLength ∧ ∃ signerPub, C.getPublicKey sigPrivKey = .ok signerPub ∧
      postCipher C (.ofBuffer (header n true payload ++ payload ++ pad ++ bytes)) =
        .ok (some ⟨payload, some ⟨bytes, some signerPub⟩⟩) := by
  obtain ⟨hlen, signerPub, hpub, hrecover⟩ := ecRecoverPubKey_sign hC hsign
  have h := postCipher_header C h0 hn true hp (pad ++ bytes)
  simp only [← List.append_assoc, if_true] at h
  refine ⟨hlen, signerPub, hpub, ?_⟩
  rw [h, getHash_append C _ hlen, getSignature_append _ hlen, hrecover]
  rfl

end JsWaku
