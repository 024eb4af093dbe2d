import JsWaku.MessageEncryption.RoundTrip
import Mathlib.Order.Bounds.Basic

/-!
# How far the envelope format reaches

Nothing bounds the payload that `preCipher` takes. Two bits of the flags hold the width of the length field, so what is
read back of the length is below `2 ^ 24` (`getPayloadSize_lt`), and the header is read back iff the payload is
(`readsHeader_iff`). The field that is written has four bytes at most while the padding is computed from the width that
the length needs, so envelopes are filled up to blocks of 256 bytes iff the payload is below `2 ^ 32`
(`fillsBlock_iff`).
-/

namespace JsWaku

open Endian

variable {C : Crypto} {randomBytes : ℕ → Bytes} {payload envelope : Bytes} {sigPrivKey : Option Bytes}

/-! ## The header -/

/-- The flags and the length field are read back. -/
def ReadsHeader (payload : Bytes) (sigPrivKey : Option Bytes) (envelope : Bytes) : Prop :=
  isMessageSigned (.ofBuffer envelope) = .ok sigPrivKey.isSome ∧
    (do
      let sizeOfPayloadSizeField ← getSizeOfPayloadSizeField (.ofBuffer envelope)
      getPayloadSize envelope sizeOfPayloadSizeField) = .ok payload.length

/-- The width read from the flags has two bits. -/
theorem getSizeOfPayloadSizeField_le {message : Uint8Array} {n : ℕ} (h : getSizeOfPayloadSizeField message = .ok n) :
    n ≤ 3 := by
  obtain ⟨flags, -, h⟩ := bind_eq_ok.1 h
  cases h
  exact Nat.and_le_right

/-- A field of at most three bytes is a number below `2 ^ 24`. -/
theorem getPayloadSize_lt {message : Bytes} {n : ℕ} {size : ℤ} (hn : n ≤ 3) (h : getPayloadSize message n = .ok size) :
    size < 2 ^ 24 := by
  rw [getPayloadSize_eq message hn] at h
  cases h
  have hlt := leNat_lt ((message.drop 1).take n)
  have hpow : 256 ^ ((message.drop 1).take n).length ≤ 256 ^ 3 :=
    Nat.pow_le_pow_right (by norm_num) ((List.length_take_le _ _).trans hn)
  exact_mod_cast hlt.trans_le (hpow.trans (by norm_num))

/-- The length that is read back is below `2 ^ 24`, whatever was written. -/
theorem length_lt_of_readsHeader (h : ReadsHeader payload sigPrivKey envelope) : payload.length < 2 ^ 24 := by
  obtain ⟨n, hn, hsize⟩ := bind_eq_ok.1 h.2
  have := getPayloadSize_lt (getSizeOfPayloadSizeField_le hn) hsize
  omega

/-- **The header of an envelope.** The signed flag and the payload length are read back from an envelope iff the payload
is below `2 ^ 24` bytes. -/
theorem readsHeader_iff (C : Crypto) (randomBytes : ℕ → Bytes) (payload : Bytes) (sigPrivKey : Option Bytes)
    (envelope : Bytes) (h : preCipher C randomBytes payload sigPrivKey = .ok envelope) :
    ReadsHeader payload sigPrivKey envelope ↔ payload.length < 2 ^ 24 := by
  refine ⟨length_lt_of_readsHeader, fun hlen => ?_⟩
  obtain ⟨n, pad, -, hn, hp, hshape⟩ := preCipher_spec hlen h
  obtain ⟨rest, rfl⟩ : ∃ rest, envelope = header n sigPrivKey.isSome payload ++ rest := by
    cases sigPrivKey with
    | none => exact ⟨payload ++ pad, by rw [hshape, List.append_assoc]; rfl⟩
    | some key =>
      obtain ⟨bytes, -, rfl⟩ := hshape
      exact ⟨payload ++ pad ++ bytes, by simp⟩
  refine ⟨isMessageSigned_header hn _ payload rest, ?_⟩
  rw [getSizeOfPayloadSizeField_header hn, ok_bind, getPayloadSize_header hn _ hp]

/-- Padding of ones. -/
def ones (n : ℕ) : Bytes := List.replicate n 1

theorem readsHeader_iff_signed :
    ∃ envelope, preCipher MessageEncryption.sampleCrypto ones [7] (some MessageEncryption.samplePrivateKey) = .ok envelope ∧
      (ReadsHeader [7] (some MessageEncryption.samplePrivateKey) envelope ↔ ([7] : Bytes).length < 2 ^ 24) := by
  obtain ⟨envelope, h⟩ := exists_of_toBool (x := preCipher MessageEncryption.sampleCrypto ones [7]
    (some MessageEncryption.samplePrivateKey)) (by decide +kernel)
  exact ⟨envelope, h, readsHeader_iff _ _ _ _ _ h⟩

/-- The padding is not empty, so ones are accepted as padding. -/
theorem validateDataIntegrity_ones (payload : Bytes) (signed : Bool) :
    validateDataIntegrity (ones (paddingSize payload signed)) (paddingSize payload signed) = true := by
  have hpos : 0 < paddingSize payload signed := Nat.sub_pos_of_lt (Nat.mod_lt _ (by decide))
  obtain ⟨n, hn⟩ := Nat.exists_eq_succ_of_ne_zero hpos.ne'
  rw [hn]
  simp [validateDataIntegrity, ones, List.replicate_succ]

/-- With such padding a payload of any length has an unsigned envelope. -/
theorem preCipher_returns (C : Crypto) (payload : Bytes) : ∃ envelope, preCipher C ones payload none = .ok envelope := by
  simp only [preCipher, addPayloadSizeField_take, ok_bind, concat_none, validateDataIntegrity_ones, Bool.not_true,
    Bool.false_eq_true, if_false]
  exact ⟨_, rfl⟩

/-- For a payload of `2 ^ 24` bytes the width of the length field takes the bit of the signed flag. -/
theorem not_readsHeader_wide :
    ∃ envelope, preCipher MessageEncryption.sampleCrypto ones (List.replicate (2 ^ 24) 0) none = .ok envelope ∧
      ¬ReadsHeader (List.replicate (2 ^ 24) 0) none envelope := by
  obtain ⟨envelope, h⟩ := preCipher_returns MessageEncryption.sampleCrypto (List.replicate (2 ^ 24) 0)
  refine ⟨envelope, h, fun hreads => ?_⟩
  have hlt := length_lt_of_readsHeader hreads
  rw [List.length_replicate] at hlt
  exact lt_irrefl _ hlt

/-! ## The length -/

/-- The envelope ends at the first block boundary after the raw size. -/
def FillsBlock (payload : Bytes) (sigPrivKey : Option Bytes) (envelope : Bytes) : Prop :=
  IsLeast {n | PaddingTarget ∣ n ∧ rawSize payload sigPrivKey.isSome < n} envelope.length

/-- The block boundary after a size. -/
theorem isLeast_block (size : ℕ) :
    IsLeast {n | PaddingTarget ∣ n ∧ size < n} (size + (PaddingTarget - size % PaddingTarget)) := by
  unfold PaddingTarget
  refine ⟨⟨by omega, by omega⟩, ?_⟩
  rintro n ⟨⟨k, rfl⟩, hlt⟩
  omega

/-- Flags and field: four bytes of length at most. -/
theorem length_addPayloadSizeField {msg : Bytes} (h : addPayloadSizeField [0] payload = .ok msg) :
    msg.length = 1 + min (computeSizeOfPayloadSizeField payload) 4 := by
  rw [addPayloadSizeField_take] at h
  cases h
  simp [orByte]
  omega

/-- The parts of an envelope add up, with four bytes of length field at most. -/
theorem length_preCipher (hC : C.Lawful) (h : preCipher C randomBytes payload sigPrivKey = .ok envelope) :
    envelope.length + computeSizeOfPayloadSizeField payload = rawSize payload sigPrivKey.isSome +
      paddingSize payload sigPrivKey.isSome + min (computeSizeOfPayloadSizeField payload) 4 := by
  obtain ⟨msg, hmsg, h⟩ := bind_eq_ok.1 h
  have hmsgLength := length_addPayloadSizeField hmsg
  rw [concat_none, ok_bind] at h
  cases hv : validateDataIntegrity (randomBytes (paddingSize payload sigPrivKey.isSome))
      (paddingSize payload sigPrivKey.isSome) with
  | false => simp only [hv] at h; cases h
  | true =>
    have hpad := length_of_validateDataIntegrity hv
    simp only [hv, Bool.not_true, Bool.false_eq_true, if_false, concat_none, ok_bind, List.flatten_cons,
      List.flatten_nil, List.append_nil] at h
    cases sigPrivKey with
    | none =>
      cases h
      simp only [Option.isSome_none] at hpad ⊢
      simp only [List.length_append, hmsgLength, hpad, rawSize, FlagsLength, Bool.false_eq_true, if_false]
      omega
    | some key =>
      obtain ⟨bytes, hsign, h⟩ := bind_eq_ok.1 h
      obtain ⟨hsignature, -⟩ := ecRecoverPubKey_sign hC hsign
      cases h
      simp only [Option.isSome_some] at hpad ⊢
      simp only [List.length_append, orByte, List.length_modify, hmsgLength, hpad, hsignature, rawSize, FlagsLength,
        if_true]
      omega

/-- The width that a length needs is four bytes at most iff the length is below `2 ^ 32`. -/
theorem sizeOfPayloadSizeField_le_four_iff : computeSizeOfPayloadSizeField payload ≤ 4 ↔ payload.length < 2 ^ 32 := by
  constructor
  · intro h
    exact (length_lt_sizeOfPayloadSizeField payload).trans_le
      ((Nat.pow_le_pow_right (by norm_num) h).trans (by norm_num))
  · exact fun h => sizeOfPayloadSizeField_le (w := 3) (by norm_num at h ⊢; exact h)

/-- The length of an envelope is the block boundary after its raw size iff the payload is below `2 ^ 32` bytes. -/
theorem fillsBlock_iff (hC : C.Lawful) (h : preCipher C randomBytes payload sigPrivKey = .ok envelope) :
    FillsBlock payload sigPrivKey envelope ↔ payload.length < 2 ^ 32 := by
  have hlength := length_preCipher hC h
  have hblock := isLeast_block (rawSize payload sigPrivKey.isSome)
  rw [paddingSize] at hlength
  rw [← sizeOfPayloadSizeField_le_four_iff]
  constructor
  · intro hfill
    have := hfill.unique hblock
    omega
  · intro hwidth
    have heq : envelope.length = rawSize payload sigPrivKey.isSome +
        (PaddingTarget - rawSize payload sigPrivKey.isSome % PaddingTarget) := by
      omega
    rw [FillsBlock, heq]
    exact hblock

/-- Envelopes that fill their blocks are equally long when their raw sizes fall into one block. -/
theorem FillsBlock.length_eq {payload' envelope' : Bytes} {sigPrivKey' : Option Bytes}
    (h : FillsBlock payload sigPrivKey envelope) (h' : FillsBlock payload' sigPrivKey' envelope')
    (hsame : rawSize payload sigPrivKey.isSome / PaddingTarget = rawSize payload' sigPrivKey'.isSome / PaddingTarget) :
    envelope.length = envelope'.length := by
  rw [h.unique (isLeast_block _), h'.unique (isLeast_block _)]
  unfold PaddingTarget at hsame ⊢
  omega

/-- **The length of an envelope.** An envelope has the least multiple of 256 above its raw size as length iff its
payload is below `2 ^ 32` bytes; two such envelopes with raw sizes in one block of 256 are equally long. -/
theorem preCipher_fillsBlock (C : Crypto) (hC : C.Lawful) (randomBytes : ℕ → Bytes) (payload : Bytes)
    (sigPrivKey : Option Bytes) (envelope : Bytes) (h : preCipher C randomBytes payload sigPrivKey = .ok envelope) :
    (FillsBlock payload sigPrivKey envelope ↔ payload.length < 2 ^ 32) ∧
      ∀ randomBytes' payload' sigPrivKey' envelope', preCipher C randomBytes' payload' sigPrivKey' = .ok envelope' →
        payload.length < 2 ^ 32 → payload'.length < 2 ^ 32 →
        rawSize payload sigPrivKey.isSome / PaddingTarget = rawSize payload' sigPrivKey'.isSome / PaddingTarget →
        envelope.length = envelope'.length := by
  refine ⟨fillsBlock_iff hC h, fun randomBytes' payload' sigPrivKey' envelope' h' hlen hlen' hsame => ?_⟩
  exact ((fillsBlock_iff hC h).2 hlen).length_eq ((fillsBlock_iff hC h').2 hlen') hsame

theorem preCipher_fillsBlock_signed :
    ∃ envelope envelope',
      preCipher MessageEncryption.sampleCrypto ones [7] (some MessageEncryption.samplePrivateKey) = .ok envelope ∧
      preCipher MessageEncryption.sampleCrypto ones [7, 8] none = .ok envelope' ∧
      (FillsBlock [7] (some MessageEncryption.samplePrivateKey) envelope ↔ ([7] : Bytes).length < 2 ^ 32) ∧
      envelope.length = envelope'.length := by
  obtain ⟨envelope, h⟩ := exists_of_toBool (x := preCipher MessageEncryption.sampleCrypto ones [7]
    (some MessageEncryption.samplePrivateKey)) (by decide +kernel)
  obtain ⟨envelope', h'⟩ := preCipher_returns MessageEncryption.sampleCrypto [7, 8]
  obtain ⟨hiff, hsame⟩ := preCipher_fillsBlock _ MessageEncryption.sampleCrypto_lawful _ _ _ _ h
  exact ⟨envelope, envelope', h, h', hiff, hsame _ _ _ _ h' (by norm_num) (by norm_num) (by decide)⟩

/-- For a payload of `2 ^ 32` bytes one byte of the length field is counted and not written. -/
theorem not_fillsBlock_wide :
    ∃ envelope, preCipher MessageEncryption.sampleCrypto ones (List.replicate (2 ^ 32) 0) none = .ok envelope ∧
      ¬FillsBlock (List.replicate (2 ^ 32) 0) none envelope := by
  obtain ⟨envelope, h⟩ := preCipher_returns MessageEncryption.sampleCrypto (List.replicate (2 ^ 32) 0)
  refine ⟨envelope, h, fun hfills => ?_⟩
  have hlt := (fillsBlock_iff MessageEncryption.sampleCrypto_lawful h).1 hfills
  rw [List.length_replicate] at hlt
  exact lt_irrefl _ hlt

end JsWaku
