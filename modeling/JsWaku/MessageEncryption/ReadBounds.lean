import JsWaku.MessageEncryption.RoundTrip

/-!
# What `postCipher` reads

`postCipher` reads the flags through the buffer of its argument and cuts length field, payload and signature out of the
argument with slices that clamp. What it returns is what the message holds iff the message starts its buffer and is as
long as its header says (`readsInside_iff`).
-/

namespace JsWaku

open Endian

namespace Uint8Array

/-- The positions `start`, …, `start + count - 1` of the buffer belong to the array. -/
def Owns (a : Uint8Array) (start count : ℕ) : Prop :=
  ∀ i, start ≤ i → i < start + count → a.byteOffset ≤ i ∧ i < a.byteOffset + a.length

/-- An array that starts its buffer has the first byte of it, unless it is empty. -/
theorem getElem?_zero_bytes {a : Uint8Array} (hoffset : a.byteOffset = 0) (hlength : 0 < a.length) :
    a.bytes[0]? = a.buffer[0]? := by
  rw [bytes, hoffset, List.drop_zero, List.getElem?_take_of_lt hlength]

end Uint8Array

/-- The flags and the length field that `postCipher` reads are bytes of the message, the payload it returns has the
length that it reads there, and lies between the length field and the end, or the last 65 bytes if the flags say signed.
The flags are at position 0 of the buffer, the length field at position 1 of the message. -/
def ReadsInside (message : Uint8Array) (plain : Plain) : Prop :=
  ∃ flags size, DataView.getUint8 message.buffer 0 = .ok flags ∧
    getPayloadSize message.bytes (flags.toNat &&& FlagMask) = .ok size ∧
    message.Owns 0 1 ∧ message.Owns (message.byteOffset + 1) (flags.toNat &&& FlagMask) ∧
    (plain.payload.length : ℤ) = size ∧
    ∃ front back, message.bytes = front ++ plain.payload ++ back ∧ front.length = 1 + (flags.toNat &&& FlagMask) ∧
      (flags.toNat &&& IsSignedMask = IsSignedMask → SignatureLength ≤ back.length)

/-- The message starts its buffer and holds what its header announces. -/
def Complete (message : Uint8Array) : Prop :=
  message.byteOffset = 0 ∧ ∃ flags field rest, message.bytes = flags :: (field ++ rest) ∧
    field.length = flags.toNat &&& FlagMask ∧
    leNat field + (if flags.toNat &&& IsSignedMask = IsSignedMask then SignatureLength else 0) ≤ rest.length

/-- The length field of the width that the flags give. -/
theorem getPayloadSize_flags (message : Bytes) (flags : UInt8) :
    getPayloadSize message (flags.toNat &&& FlagMask) =
      .ok (leNat ((message.drop 1).take (flags.toNat &&& FlagMask)) : ℤ) :=
  getPayloadSize_eq message Nat.and_le_right

/-- The payload of a result. -/
theorem payload_of_postCipher {C : Crypto} {message : Uint8Array} {plain : Plain}
    (h : postCipher C message = .ok (some plain)) :
    ∃ flags, message.buffer[0]? = some flags ∧ plain.payload =
      (message.bytes.drop (1 + (flags.toNat &&& FlagMask))).take
        (leNat ((message.bytes.drop 1).take (flags.toNat &&& FlagMask))) := by
  obtain ⟨width, hwidth, h⟩ := bind_eq_ok.1 h
  obtain ⟨flags, hflags, hwidth⟩ := bind_eq_ok.1 hwidth
  cases hwidth
  have hfirst : message.buffer[0]? = some flags := by
    unfold DataView.getUint8 at hflags
    split at hflags
    next hbyte => cases hflags; exact hbyte
    next => cases hflags
  refine ⟨flags, hfirst, ?_⟩
  have hsize := getPayloadSize_flags message.bytes flags
  set width := flags.toNat &&& FlagMask
  set size := leNat ((message.bytes.drop 1).take width)
  have hslice : slice message.bytes (1 + width) (1 + width + size) = (message.bytes.drop (1 + width)).take size := by
    rw [List.take_drop]
    exact_mod_cast slice_natCast message.bytes (1 + width) (1 + width + size)
  split at h
  next => cases h
  next =>
    rw [hsize, ok_bind] at h
    obtain ⟨isSigned, -, h⟩ := bind_eq_ok.1 h
    rw [← hslice]
    split at h
    next =>
      obtain ⟨publicKey, -, h⟩ := bind_eq_ok.1 h
      cases h
      rfl
    next => cases h; rfl

/-- **What the payload decoder reads.** The header and the payload of a result are the message's own, of the announced
length and before the signature, iff the message starts its buffer and is complete. -/
theorem readsInside_iff (C : Crypto) (message : Uint8Array) (plain : Plain)
    (h : postCipher C message = .ok (some plain)) : ReadsInside message plain ↔ Complete message := by
  obtain ⟨flags, hflags, hpayload⟩ := payload_of_postCipher h
  constructor
  · rintro ⟨flags', size, hread, hsize, hown, -, hlength, front, back, hparts, hfront, hsigned⟩
    cases (DataView.getUint8_eq hflags).symm.trans hread
    rw [getPayloadSize_flags] at hsize
    cases hsize
    -- the flags are at the start of the buffer, which is the start of the message
    obtain ⟨hoffset, hpos⟩ := hown 0 le_rfl Nat.one_pos
    have hoffset : message.byteOffset = 0 := by omega
    have hfirst := Uint8Array.getElem?_zero_bytes hoffset (by omega)
    rw [hflags] at hfirst
    obtain ⟨first, field, rfl⟩ := List.exists_cons_of_ne_nil (l := front) (by rintro rfl; simp at hfront; omega)
    have hfield : field.length = flags.toNat &&& FlagMask := by simp at hfront; omega
    obtain rfl : first = flags := by simpa [hparts] using hfirst
    have hread : (message.bytes.drop 1).take (first.toNat &&& FlagMask) = field := by
      simp [hparts, ← hfield]
    rw [hread] at hlength
    refine ⟨hoffset, first, field, plain.payload ++ back, by simpa using hparts, hfield, ?_⟩
    rw [List.length_append]
    split
    next hflag => have := hsigned hflag; omega
    next => omega
  · rintro ⟨hoffset, first, field, rest, hparts, hfield, hfits⟩
    have hlen : message.length = 1 + field.length + rest.length := by
      have := congrArg List.length hparts
      simp at this
      omega
    have hfirst := Uint8Array.getElem?_zero_bytes hoffset (by omega)
    obtain rfl : first = flags := by simpa [hparts, hflags] using hfirst
    have hread : (message.bytes.drop 1).take (first.toNat &&& FlagMask) = field := by
      simp [hparts, ← hfield]
    have hrest : message.bytes.drop (1 + (first.toNat &&& FlagMask)) = rest := by
      rw [hparts, ← hfield, Nat.add_comm, List.drop_succ_cons, List.drop_left]
    rw [hread, hrest] at hpayload
    have hlength : plain.payload.length = leNat field := by
      rw [hpayload, List.length_take]
      omega
    refine ⟨first, leNat field, DataView.getUint8_eq hflags, ?_, ?_, ?_, by rw [hlength], first :: field,
      rest.drop (leNat field), ?_, by simp [hfield, Nat.add_comm], ?_⟩
    · rw [getPayloadSize_flags, hread]
    · intro i _ hi
      omega
    · intro i hi hi'
      omega
    · rw [hparts, hpayload, List.append_assoc, List.take_append_drop]
      rfl
    · intro hflag
      rw [if_pos hflag] at hfits
      rw [List.length_drop]
      omega

/-- An envelope with a payload of one byte. -/
theorem readsInside_iff_byte :
    ReadsInside (.ofBuffer [1, 1, 7, 9]) ⟨[7], none⟩ ↔ Complete (.ofBuffer [1, 1, 7, 9]) :=
  readsInside_iff MessageEncryption.sampleCrypto _ _ rfl

/-- An envelope that announces five bytes and holds one. -/
def truncated : Uint8Array := .ofBuffer [1, 5, 7]

/-- An array whose first byte announces no length field, in a buffer that starts with other flags. -/
def shifted : Uint8Array := ⟨[1, 0, 2, 7, 7], 1, 4, by decide⟩

/-- Both are opened, the one to less than it announces, the other with flags that are not its own. -/
theorem not_readsInside :
    (postCipher MessageEncryption.sampleCrypto truncated = .ok (some ⟨[7], none⟩) ∧ ¬ReadsInside truncated ⟨[7], none⟩) ∧
      postCipher MessageEncryption.sampleCrypto shifted = .ok (some ⟨[7, 7], none⟩) ∧
        ¬ReadsInside shifted ⟨[7, 7], none⟩ := by
  refine ⟨⟨rfl, ?_⟩, rfl, ?_⟩
  · rintro ⟨flags, size, hflags, hsize, -, -, hlength, -⟩
    rw [getPayloadSize_flags] at hsize
    cases hsize
    cases hflags
    exact absurd (Int.ofNat.inj hlength) (by decide)
  · rintro ⟨flags, size, -, -, hown, -⟩
    exact absurd (hown 0 le_rfl Nat.one_pos).1 (by decide)

end JsWaku
