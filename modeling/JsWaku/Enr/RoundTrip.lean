import JsWaku.Enr.Codec

/-!
# Decoding undoes encoding

What the decoder makes of an encoded record (`fromRLP_toBytes_iff`). The sequence number is written in one byte, so it
comes back below 256 only; and a value under the key `__proto__` becomes the prototype of the object that the decoder
collects keys in, so it does not come back at all. All other records do.
-/

namespace JsWaku.Enr

open Endian MessageHash

section

variable {env : Env} {enr : ENR}

theorem length_flatMap_pairs (l : List (String × ENRValue)) :
    (l.flatMap fun entry => [Rlp.Item.bytes (utf8ToBytes entry.1), entry.2]).length % 2 = 0 := by
  induction l with
  | nil => rfl
  | cons entry l ih =>
    simp only [List.flatMap_cons, List.length_append, List.length_cons, List.length_nil]
    omega

/-- A record of byte arrays is written as byte strings. -/
theorem exists_map_bytes {l : List (String × ENRValue)} (h : ∀ entry ∈ l, ∃ bytes, entry.2 = .bytes bytes) :
    ∃ values : List Bytes,
      (l.flatMap fun entry => [Rlp.Item.bytes (utf8ToBytes entry.1), entry.2]) = values.map .bytes := by
  induction l with
  | nil => exact ⟨[], rfl⟩
  | cons entry l ih =>
    obtain ⟨bytes, hbytes⟩ := h entry List.mem_cons_self
    obtain ⟨values, hvalues⟩ := ih fun entry hentry => h entry (List.mem_cons_of_mem _ hentry)
    refine ⟨utf8ToBytes entry.1 :: bytes :: values, ?_⟩
    rw [List.flatMap_cons, hvalues, hbytes]
    rfl

/-- A record that was encoded is read as its values. -/
theorem fromRLP_rlpEncode (henv : env.Lawful) (hvalues : ∀ entry ∈ enr.kvs.entries, ∃ bytes, entry.2 = .bytes bytes)
    {signature : Bytes} (hsize : (env.rlpEncode (.list (.bytes signature :: content env enr))).length < MAX_RECORD_SIZE) :
    fromRLP env (env.rlpEncode (.list (.bytes signature :: content env enr))) =
      fromValues env (.bytes signature :: content env enr) := by
  obtain ⟨values, heq⟩ :=
    exists_map_bytes fun entry hentry => hvalues entry ((perm_sortedEntries env enr).subset hentry)
  have hmap : .bytes signature :: content env enr =
      (signature :: [Number.toUint8 (Number.ofBigInt enr.seq)] :: values).map Rlp.Item.bytes := by
    rw [content_eq, heq]
    rfl
  rw [hmap] at hsize ⊢
  rw [fromRLP, henv.rlp _ hsize]
  rfl

/-- Without the key `__proto__`, the decoder collects the entries. -/
theorem get_collect (henv : env.Lawful) (hproto : enr.kvs.get "__proto__" = none) (key : String) :
    (collect env PlainObject.empty ((sortedEntries env enr).flatMap fun entry =>
      [.bytes (utf8ToBytes entry.1), entry.2])).own.get key = enr.kvs.get key := by
  have hperm := perm_sortedEntries env enr
  have hnodup : ((sortedEntries env enr).map Prod.fst).Nodup := (hperm.map Prod.fst).nodup_iff.2 enr.kvs.nodup
  have hne : ∀ entry ∈ sortedEntries env enr, entry.1 ≠ "__proto__" := by
    rintro ⟨k, v⟩ hentry rfl
    have hget := Map.mem_entries_iff.1 (hperm.subset hentry)
    rw [hproto] at hget
    cases hget
  rw [collect_flatMap henv.utf8, PlainObject.empty, PlainObject.foldl_assign _ _ hne]
  refine Map.get_eq_of_perm ?_ key
  rw [Map.entries_foldl_set _ _ (by simpa [Map.keys, Map.empty] using hnodup)]
  exact hperm

/-- The sequence number comes back modulo 256. -/
theorem decodeSeq_singleton (b : UInt8) : decodeSeq [b] = b.toNat := by
  simp [decodeSeq]

/-- **Decoding undoes encoding below 256 and without `__proto__`.** Let a record have the id `v4`, the public key of
`privateKey`, and byte arrays as values. When it was encoded with the private key, the decoder returns a record with its
sequence number, its signature and its entries iff the sequence number is below 256 and `__proto__` is not a key. -/
theorem fromRLP_toBytes_iff (henv : env.Lawful) {privateKey publicKey encoded : Bytes} {enr' : ENR}
    (hid : enr.id env = .ok "v4") (hkey : enr.kvs.get "secp256k1" = some (.bytes publicKey))
    (hpublic : env.getPublicKey privateKey = .ok publicKey)
    (hvalues : ∀ entry ∈ enr.kvs.entries, ∃ bytes, entry.2 = .bytes bytes) (hseq : 0 ≤ enr.seq)
    (h : toBytes env enr (some privateKey) = .ok (encoded, enr')) :
    (∃ decoded, fromRLP env encoded = .ok decoded ∧ decoded.seq = enr'.seq ∧ decoded.signature = enr'.signature ∧
      ∀ key, decoded.kvs.get key = enr'.kvs.get key) ↔
    enr.seq < 256 ∧ enr.kvs.get "__proto__" = none := by
  obtain ⟨signature, hsign, rfl, hsize, rfl⟩ := toBytes_spec h
  rw [fromRLP_rlpEncode henv hvalues hsize]
  have hlen := length_flatMap_pairs (sortedEntries env enr)
  rw [content_eq] at hsign ⊢
  constructor
  · rintro ⟨decoded, hdecoded, hseq', -, hget⟩
    rw [fromValues_ok hlen hdecoded] at hseq' hget
    constructor
    · have hlt := (Number.toUint8 (Number.ofBigInt enr.seq)).toNat_lt
      have hbyte : decodeSeq [Number.toUint8 (Number.ofBigInt enr.seq)] = enr.seq := hseq'
      rw [decodeSeq_singleton] at hbyte
      omega
    · rw [← hget "__proto__"]
      exact (RawEnr.get_new _ _ _ _).trans (proto_not_collected _ _ rfl)
  · rintro ⟨hlt, hproto⟩
    have hcollect := get_collect henv hproto
    obtain ⟨id, hid, hv4⟩ : ∃ id, enr.kvs.get "id" = some id ∧ valueToUtf8 env id = .ok "v4" := by
      rw [RawEnr.id] at hid
      split at hid
      · cases hid
      · exact ⟨_, ‹_›, hid⟩
    obtain ⟨hsignature, sig, hsig, hverify⟩ := henv.verify hsign hpublic
    refine ⟨_, fromValues_of_verify hlen ((hcollect "id").trans hid) hv4 ((hcollect "secp256k1").trans hkey) hsignature
      hsig hverify, ?_, rfl, fun key => (RawEnr.get_new _ _ _ key).trans (hcollect key)⟩
    obtain ⟨n, hn⟩ := Int.eq_ofNat_of_zero_le hseq
    show decodeSeq [Number.toUint8 (Number.ofBigInt enr.seq)] = enr.seq
    rw [decodeSeq_singleton, hn, Number.toUint8_ofBigInt (by omega), UInt8.toNat_ofNat', Nat.mod_eq_of_lt (by omega)]

end

/-! ## Two records -/

/-- A private key. -/
def samplePrivateKey : Bytes := toBE 32 0xb71c71a67e1177ad4e901695e1b4b9ee17ae16c6668d313eac2f96dbcda3f291

/-- Its compressed public key. -/
def samplePublicKey : Bytes := toBE 33 0x03ca634cae0d49acb401d8a4c6b6fe8c55b70d115bf400769cc1400f3258cd3138

/-- Sequence numbers, as written, with the hash and the signature of the content of a record of this key pair. -/
def sampleSignatures : List (UInt8 × Bytes × Bytes) :=
  [(1, toBE 32 0xf34a6e1c86b362a603627aa7f2c4094875c1262be2f963d18ce078db55357fc2,
      toBE 32 0x1ce2991c64993d7c84c29a00bdc871917551c7d330fca2dd0d69c706596dc655 ++
        toBE 32 0x448f030b98a77d4001fd46ae0112ce26d613c5a6a02a81a6223cd0c4edaa5328),
    (0, toBE 32 0x56ad7a2df89fa21b0bdd6580eac2756c51deca4a3f858f4d803b5e97fb019236,
      toBE 32 0x7e8c1f393ba625c5b18feb98282657dddb1e189af2e993f44e4468e9b9f7df3f ++
        toBE 32 0x37250fc5e079e172d783377345cc2312dd40e8579f16e3c164256601c096fcbf)]

/-- The content of a record of this key pair. -/
def sampleContent (seq : UInt8) : Bytes :=
  Rlp.encode (.list [.bytes [seq], .bytes (utf8ToBytes "id"), .bytes (utf8ToBytes "v4"),
    .bytes (utf8ToBytes "secp256k1"), .bytes samplePublicKey])

/-- The functions of other packages, on the records of this key pair. -/
def sampleEnv : Env where
  rlpEncode := Rlp.encode
  rlpDecode encoded :=
    match Rlp.decode encoded with
    | some item => .ok item
    | none => .error (.error "invalid rlp data")
  bytesToUtf8 bytes := (String.fromUTF8? ⟨bytes.toArray⟩).getD ""
  localeCompare a b := if a < b then -1 else if a = b then 0 else 1
  isNumeric key := (arrayIndex key).isSome
  keccak256 data := ((sampleSignatures.find? fun entry => sampleContent entry.1 = data).map (·.2.1)).getD []
  sign message privateKey :=
    match sampleSignatures.find? fun entry => entry.2.1 = message ∧ privateKey = samplePrivateKey with
    | some entry => .ok entry.2.2
    | none => .error .typeError
  fromCompact signature := if signature.length = 64 then .ok signature else .error (.error "invalid signature")
  verify signature message publicKey :=
    .ok (publicKey = samplePublicKey ∧ sampleSignatures.any fun entry => entry.2 = (message, signature))
  getPublicKey privateKey := if privateKey = samplePrivateKey then .ok samplePublicKey else .error .typeError
  publicKeyFromRaw _ := .ok ("secp256k1", "16Uiu2HAmSH2XVgZqYHWucap5kuPzLnt2TsNQkoppVxB5eJGvaXwm")

theorem sampleEnv_lawful : sampleEnv.Lawful where
  rlp values h := by
    have hlen : (Rlp.encode (.list (values.map .bytes))).length < 2 ^ 64 := lt_trans h (by decide)
    simp only [sampleEnv, Rlp.decode_encode _ hlen]
  utf8 s := by
    have hvalid : (⟨(utf8ToBytes s).toArray⟩ : ByteArray).IsValidUTF8 := by simpa [utf8ToBytes] using s.isValidUTF8
    simp only [sampleEnv, String.fromUTF8?, dif_pos hvalid, Option.getD_some]
    simp only [utf8ToBytes, Array.toArray_toList]
    rfl
  verify {message privateKey signature publicKey} hsign hpublic := by
    simp only [sampleEnv] at hsign hpublic ⊢
    split at hsign
    · rename_i entry hentry
      cases hsign
      split at hpublic
      · cases hpublic
        have hmem := List.mem_of_find?_eq_some hentry
        have hlen : ∀ entry ∈ sampleSignatures, entry.2.2.length = 64 := by decide +kernel
        obtain ⟨rfl, -⟩ : entry.2.1 = message ∧ privateKey = samplePrivateKey := by simpa using List.find?_some hentry
        refine ⟨hlen entry hmem, entry.2.2, if_pos (hlen entry hmem), ?_⟩
        simp only [true_and, Except.ok.injEq, decide_eq_true_eq]
        exact List.any_eq_true.2 ⟨entry, hmem, by simp⟩
      · cases hpublic
    · cases hsign

/-- The record of the key pair with this sequence number. -/
def sampleRecord (seq : ℤ) : ENR :=
  let obj := (PlainObject.empty.assign (valueIsReadOnly sampleEnv) "id" (.bytes (utf8ToBytes "v4"))).assign
    (valueIsReadOnly sampleEnv) "secp256k1" (.bytes samplePublicKey)
  ENR.create sampleEnv obj seq none

/-- Its values are byte arrays. -/
theorem sampleRecord_values (seq : ℤ) : ∀ entry ∈ (sampleRecord seq).kvs.entries, ∃ bytes, entry.2 = .bytes bytes := by
  have hentries : (sampleRecord seq).kvs.entries =
      [("id", .bytes (utf8ToBytes "v4")), ("secp256k1", .bytes samplePublicKey)] := rfl
  rw [hentries]
  simp

/-- The first record comes back. -/
theorem fromRLP_toBytes_iff_first :
    ∃ encoded enr' decoded, toBytes sampleEnv (sampleRecord 1) (some samplePrivateKey) = .ok (encoded, enr') ∧
      fromRLP sampleEnv encoded = .ok decoded ∧ decoded.seq = enr'.seq ∧ decoded.signature = enr'.signature ∧
      ∀ key, decoded.kvs.get key = enr'.kvs.get key := by
  obtain ⟨⟨encoded, enr'⟩, h⟩ :=
    exists_of_toBool (x := toBytes sampleEnv (sampleRecord 1) (some samplePrivateKey)) (by decide +kernel)
  have hkey : (sampleRecord 1).kvs.get "secp256k1" = some (.bytes samplePublicKey) := rfl
  obtain ⟨decoded, hdecoded⟩ := (fromRLP_toBytes_iff sampleEnv_lawful (by rfl) hkey (by rfl) (sampleRecord_values 1)
    (by decide) h).2 ⟨by decide, by rfl⟩
  exact ⟨encoded, enr', decoded, h, hdecoded⟩

/-- A record with the sequence number 256 is encoded, and comes back with 0. -/
theorem fromRLP_toBytes_seq :
    ¬∀ (env : Env) (enr enr' : ENR) (privateKey publicKey encoded : Bytes), env.Lawful → enr.id env = .ok "v4" →
      enr.kvs.get "secp256k1" = some (.bytes publicKey) → env.getPublicKey privateKey = .ok publicKey →
      (∀ entry ∈ enr.kvs.entries, ∃ bytes, entry.2 = .bytes bytes) → 0 ≤ enr.seq →
      toBytes env enr (some privateKey) = .ok (encoded, enr') →
      ∃ decoded, fromRLP env encoded = .ok decoded ∧ decoded.seq = enr'.seq ∧ decoded.signature = enr'.signature ∧
        ∀ key, decoded.kvs.get key = enr'.kvs.get key := by
  intro hall
  obtain ⟨⟨encoded, enr'⟩, h⟩ :=
    exists_of_toBool (x := toBytes sampleEnv (sampleRecord 256) (some samplePrivateKey)) (by decide +kernel)
  have hseq : ∀ result ∈ (toBytes sampleEnv (sampleRecord 256) (some samplePrivateKey)).toOption,
      result.2.seq = 256 ∧ (fromRLP sampleEnv result.1).toOption.map (·.seq) = some 0 := by decide +kernel
  obtain ⟨decoded, hdecoded, heq, -⟩ := hall sampleEnv (sampleRecord 256) enr' samplePrivateKey samplePublicKey encoded
    sampleEnv_lawful (by rfl) (by rfl) (by rfl) (sampleRecord_values 256) (by decide) h
  rw [h] at hseq
  obtain ⟨hseq', hdecoded'⟩ := hseq (encoded, enr') rfl
  rw [hdecoded] at hdecoded'
  simp only [Except.toOption, Option.map_some, Option.some.injEq] at hdecoded'
  rw [heq, hseq'] at hdecoded'
  cases hdecoded'

end JsWaku.Enr
