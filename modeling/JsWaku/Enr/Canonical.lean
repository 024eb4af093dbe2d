import JsWaku.Enr.RoundTrip

/-!
# Encoding undoes decoding

What the encoder makes of a record that was read, without a private key (`toBytes_fromRLP_iff`). The decoder does not
look at the size of a record, and it takes keys in any order, repeated, and of bytes that are not UTF-8; it skips keys
that are lists. The encoder writes a record of less than 300 bytes with each key once and in order. So what was read is
written back if it was written like this. A sequence number that is not one byte and the key `__proto__` are left out.
-/

namespace JsWaku.Enr

open Endian MessageHash

/-- What is assumed of RLP, UTF-8 and the order of strings. -/
structure Env.Canonical (env : Env) : Prop where
  /-- An item is written in one way. -/
  encode : ∀ {encoded item}, env.rlpDecode encoded = .ok item → env.rlpEncode item = encoded
  /-- RLP decoding inverts encoding. -/
  decode : ∀ {item}, (env.rlpEncode item).length < MAX_RECORD_SIZE → env.rlpDecode (env.rlpEncode item) = .ok item
  /-- UTF-8 decoding inverts encoding. -/
  utf8 : ∀ s, env.bytesToUtf8 (utf8ToBytes s) = s
  /-- Strings are in a total order. -/
  total : ∀ a b, env.localeCompare a b ≤ 0 ∨ env.localeCompare b a ≤ 0
  trans : ∀ {a b c}, env.localeCompare a b ≤ 0 → env.localeCompare b c ≤ 0 → env.localeCompare a c ≤ 0
  antisymm : ∀ {a b}, env.localeCompare a b ≤ 0 → env.localeCompare b a ≤ 0 → a = b

/-- The keys among keys and values in turn. -/
def keysOf : List ENRValue → List ENRValue
  | key :: _ :: kvs => key :: keysOf kvs
  | _ => []

/-- Keys and values in turn, where the keys are the UTF-8 of different strings in order. -/
def InKeyOrder (env : Env) (kvs : List ENRValue) : Prop :=
  ∃ entries : List (String × ENRValue), kvs = (entries.flatMap fun entry => [.bytes (utf8ToBytes entry.1), entry.2]) ∧
    (entries.map Prod.fst).Pairwise (fun a b => env.localeCompare a b ≤ 0) ∧ (entries.map Prod.fst).Nodup

section

variable {env : Env} {enr : ENR}

theorem map_fst_sortedEntries (env : Env) (enr : ENR) : (sortedEntries env enr).map Prod.fst = sortedKeys env enr := by
  have hget : ∀ key ∈ sortedKeys env enr, ((enr.kvs.get key).map (key, ·)).map Prod.fst = some key := by
    intro key hkey
    rw [sortedKeys, List.mem_insertionSort] at hkey
    obtain ⟨⟨k, v⟩, hentry, rfl⟩ := List.mem_map.1 hkey
    rw [Map.mem_entries_iff.1 hentry]
    rfl
  rw [sortedEntries, List.map_filterMap, List.filterMap_congr hget, List.filterMap_some]

theorem pairwise_sortedKeys (henv : env.Canonical) (enr : ENR) :
    (sortedKeys env enr).Pairwise fun a b => env.localeCompare a b ≤ 0 := by
  have := (⟨henv.total⟩ : Std.Total fun a b => env.localeCompare a b ≤ 0)
  have := (⟨fun _ _ _ => henv.trans⟩ : IsTrans String fun a b => env.localeCompare a b ≤ 0)
  exact List.pairwise_insertionSort _ _

/-- A record is written in the order of its keys. -/
theorem inKeyOrder_sortedEntries (henv : env.Canonical) (enr : ENR) :
    InKeyOrder env ((sortedEntries env enr).flatMap fun entry => [.bytes (utf8ToBytes entry.1), entry.2]) := by
  refine ⟨sortedEntries env enr, rfl, ?_, ?_⟩
  · rw [map_fst_sortedEntries]
    exact pairwise_sortedKeys henv enr
  · exact ((perm_sortedEntries env enr).map Prod.fst).nodup_iff.2 enr.kvs.nodup

/-- A record with these entries is written as they are, if they are in order. -/
theorem sortedEntries_eq (henv : env.Canonical) {entries : List (String × ENRValue)}
    (hperm : enr.kvs.entries.Perm entries)
    (hsorted : (entries.map Prod.fst).Pairwise fun a b => env.localeCompare a b ≤ 0) :
    sortedEntries env enr = entries := by
  have := (⟨fun _ _ => henv.antisymm⟩ : Std.Antisymm fun a b => env.localeCompare a b ≤ 0)
  have hkeys : sortedKeys env enr = entries.map Prod.fst := by
    refine List.Perm.eq_of_pairwise' (pairwise_sortedKeys henv enr) hsorted ?_
    exact (List.perm_insertionSort _ _).trans (hperm.map Prod.fst)
  rw [sortedEntries, hkeys, List.filterMap_map]
  refine (List.filterMap_congr fun entry hentry => ?_).trans List.filterMap_some
  have hget : enr.kvs.get entry.1 = some entry.2 := Map.mem_entries_iff.1 (hperm.symm.subset hentry)
  simp [hget]

/-- What was accepted is what was collected of the values. -/
theorem fromRLP_eq {encoded signature seq : Bytes} {kvs : List ENRValue}
    (hdecode : env.rlpDecode encoded = .ok (.list (.bytes signature :: .bytes seq :: kvs)))
    (h : fromRLP env encoded = .ok enr) :
    enr = ENR.create env (collect env PlainObject.empty kvs) (decodeSeq seq) (some signature) := by
  rw [fromRLP, hdecode, ok_bind] at h
  refine fromValues_ok ?_ h
  by_contra hodd
  have hlength : (Rlp.Item.bytes signature :: .bytes seq :: kvs).length % 2 ≠ 0 := by
    rw [List.length_cons, List.length_cons]
    omega
  have herror : fromValues env (.bytes signature :: .bytes seq :: kvs) =
      .error (.error "Decoded ENR must have an even number of elements") := by
    rw [fromValues, checkValues, if_pos hlength]
    rfl
  cases herror.symm.trans h

/-- Entries in order, without `__proto__`, are collected. -/
theorem perm_entries_create (henv : env.Canonical) {entries : List (String × ENRValue)}
    (hnodup : (entries.map Prod.fst).Nodup) (hproto : ∀ entry ∈ entries, entry.1 ≠ "__proto__") (seq : ℤ)
    (signature : Option Bytes) :
    (ENR.create env (collect env PlainObject.empty (entries.flatMap fun entry =>
      [.bytes (utf8ToBytes entry.1), entry.2])) seq signature).kvs.entries.Perm entries := by
  have hown : (entries.foldl (fun own entry => own.set entry.1 entry.2) (Map.empty : Map String ENRValue)).entries =
      entries := Map.entries_foldl_set _ _ (by simpa [Map.keys, Map.empty] using hnodup)
  rw [collect_flatMap henv.utf8, PlainObject.empty, PlainObject.foldl_assign _ _ hproto]
  refine (RawEnr.perm_entries_new _ _ _).trans ?_
  show (entries.foldl (fun own entry => own.set entry.1 entry.2) Map.empty).entries.Perm entries
  rw [hown]

theorem mem_keysOf_flatMap {entries : List (String × ENRValue)} {entry : String × ENRValue} (h : entry ∈ entries) :
    .bytes (utf8ToBytes entry.1) ∈ keysOf (entries.flatMap fun entry => [.bytes (utf8ToBytes entry.1), entry.2]) := by
  induction entries with
  | nil => cases h
  | cons first entries ih =>
    rw [List.flatMap_cons, List.cons_append, List.cons_append, List.nil_append, keysOf]
    rcases List.mem_cons.1 h with rfl | h
    · exact List.mem_cons_self
    · exact List.mem_cons_of_mem _ (ih h)

/-- What `toBytes` has done without a private key when it returns. -/
theorem toBytes_none {encoded : Bytes} {enr' : ENR} : toBytes env enr none = .ok (encoded, enr') ↔
    ∃ signature, enr.signature = some signature ∧ env.rlpEncode (.list (.bytes signature :: content env enr)) = encoded ∧
      encoded.length < MAX_RECORD_SIZE ∧ enr' = enr := by
  cases hsignature : enr.signature with
  | none =>
    have hvalues : toValues env enr none = .error (.error ERR_NO_SIGNATURE) := by
      rw [toValues, hsignature]
      rfl
    rw [toBytes, hvalues]
    simp [bind, Except.bind]
  | some signature =>
    have hvalues : toValues env enr none = .ok (.bytes signature :: content env enr, enr) := by
      rw [toValues, hsignature]
      rfl
    rw [toBytes, hvalues, ok_bind]
    simp only [Option.some.injEq, exists_eq_left']
    split
    · rename_i hsize
      constructor
      · rintro ⟨⟩
      · rintro ⟨rfl, hlt, -⟩
        exact absurd hlt (not_lt.2 hsize)
    · rename_i hsize
      constructor
      · rintro ⟨⟩
        exact ⟨rfl, not_le.1 hsize, rfl⟩
      · rintro ⟨rfl, -, rfl⟩
        rfl

/-- **Encoding undoes decoding where the record was written in order.** Let a record be accepted whose sequence number is
one byte and of which no key is `__proto__`. Without a private key the encoder returns the same bytes iff these are less
than 300 and the keys are the UTF-8 of different strings in order. -/
theorem toBytes_fromRLP_iff (henv : env.Canonical) {encoded signature : Bytes} {seq : UInt8} {kvs : List ENRValue}
    (hdecode : env.rlpDecode encoded = .ok (.list (.bytes signature :: .bytes [seq] :: kvs)))
    (hproto : ∀ key ∈ keysOf kvs, valueToUtf8 env key ≠ .ok "__proto__") (h : fromRLP env encoded = .ok enr) :
    (∃ enr', toBytes env enr none = .ok (encoded, enr')) ↔ encoded.length < MAX_RECORD_SIZE ∧ InKeyOrder env kvs := by
  have henr := fromRLP_eq hdecode h
  have hsignature : enr.signature = some signature := by rw [henr]; rfl
  constructor
  · rintro ⟨enr', hbytes⟩
    obtain ⟨signature', hsignature', hencode, hsize, -⟩ := toBytes_none.1 hbytes
    cases hsignature.symm.trans hsignature'
    have hvalues := henv.decode (hencode ▸ hsize)
    rw [hencode, hdecode, content_eq] at hvalues
    cases hvalues
    exact ⟨hsize, inKeyOrder_sortedEntries henv enr⟩
  · rintro ⟨hsize, entries, rfl, hsorted, hnodup⟩
    have hne : ∀ entry ∈ entries, entry.1 ≠ "__proto__" := by
      intro entry hentry heq
      refine hproto _ (mem_keysOf_flatMap hentry) ?_
      rw [valueToUtf8, henv.utf8, heq]
    have hperm : enr.kvs.entries.Perm entries := by
      rw [henr]
      exact perm_entries_create henv hnodup hne _ _
    have hseq : Number.toUint8 (Number.ofBigInt enr.seq) = seq := by
      rw [henr]
      show Number.toUint8 (Number.ofBigInt (decodeSeq [seq])) = seq
      rw [decodeSeq_singleton, Number.toUint8_ofBigInt seq.toNat_lt, UInt8.ofNat_toNat]
    refine ⟨enr, toBytes_none.2 ⟨signature, hsignature, ?_, hsize, rfl⟩⟩
    rw [content_eq, sortedEntries_eq henv hperm hsorted, hseq]
    exact henv.encode hdecode

end

/-! ## Two orders of keys -/

/-- The content of a record of the sample keys, with the keys in the wrong order. -/
def swappedContent : List ENRValue :=
  [.bytes [1], .bytes (utf8ToBytes "secp256k1"), .bytes samplePublicKey, .bytes (utf8ToBytes "id"),
    .bytes (utf8ToBytes "v4")]

/-- The hash of this content. -/
def swappedHash : Bytes := toBE 32 0xf866ed2c0d21160a69595072f4fa399344eb41f4c7905004d8ac3b9320710c77

/-- Its signature. -/
def swappedSignature : Bytes :=
  toBE 32 0xe1ee07270126c5242cf83382cf4b99275b4a8c1ea50a6d4ba260f0d87d93f84a ++
    toBE 32 0x658dc160e08a79495ae98057130e686f28cf0cb9739d5a71b180417b92fe14cb

/-- The sample functions with this record, and an RLP decoder that accepts what the encoder writes. -/
def canonicalEnv : Env where
  __ := sampleEnv
  rlpDecode encoded :=
    match Rlp.decode encoded with
    | some item => if Rlp.encode item = encoded then .ok item else .error (.error "invalid rlp data")
    | none => .error (.error "invalid rlp data")
  keccak256 data := if data = Rlp.encode (.list swappedContent) then swappedHash else sampleEnv.keccak256 data
  verify signature message publicKey :=
    if message = swappedHash then .ok (publicKey = samplePublicKey ∧ signature = swappedSignature)
    else sampleEnv.verify signature message publicKey

theorem localeCompare_le_zero {a b : String} : canonicalEnv.localeCompare a b ≤ 0 ↔ a ≤ b := by
  show (if a < b then -1 else if a = b then 0 else 1 : ℤ) ≤ 0 ↔ a ≤ b
  split
  · rename_i hlt
    exact ⟨fun _ => String.not_lt.1 (String.lt_asymm hlt), fun _ => by decide⟩
  · rename_i hnlt
    split
    · rename_i heq
      subst heq
      exact ⟨fun _ => String.le_refl a, fun _ => le_rfl⟩
    · rename_i hne
      exact ⟨fun h => absurd h (by decide), fun hle => absurd (String.le_antisymm hle (String.not_lt.1 hnlt)) hne⟩

theorem canonicalEnv_canonical : canonicalEnv.Canonical where
  encode {encoded item} h := by
    simp only [canonicalEnv] at h
    split at h
    · split at h
      · rename_i hencode
        cases h
        exact hencode
      · cases h
    · cases h
  decode {item} hsize := by
    have hdecode : Rlp.decode (Rlp.encode item) = some item :=
      Rlp.decode_encode item (lt_trans hsize (by decide))
    show (match Rlp.decode (Rlp.encode item) with
      | some item' => if Rlp.encode item' = Rlp.encode item then .ok item' else .error (.error "invalid rlp data")
      | none => .error (.error "invalid rlp data") : Except JsError Rlp.Item) = .ok item
    rw [hdecode]
    exact if_pos rfl
  utf8 := sampleEnv_lawful.utf8
  total a b := by
    rw [localeCompare_le_zero, localeCompare_le_zero]
    exact String.le_total a b
  trans {a b c} hab hbc := by
    rw [localeCompare_le_zero] at hab hbc ⊢
    exact String.le_trans hab hbc
  antisymm {a b} hab hba := by
    rw [localeCompare_le_zero] at hab hba
    exact String.le_antisymm hab hba

/-- Keys and values of a record of the sample keys. -/
def orderedEntries : List (String × ENRValue) :=
  [("id", .bytes (utf8ToBytes "v4")), ("secp256k1", .bytes samplePublicKey)]

/-- The record with its signature, which is the first sample. -/
def orderedValues : List ENRValue :=
  .bytes ((sampleSignatures.head?.map (·.2.2)).getD []) :: .bytes [1] ::
    orderedEntries.flatMap fun entry => [.bytes (utf8ToBytes entry.1), entry.2]

theorem toBytes_fromRLP_iff_ordered :
    ∃ enr enr', fromRLP canonicalEnv (canonicalEnv.rlpEncode (.list orderedValues)) = .ok enr ∧
      toBytes canonicalEnv enr none = .ok (canonicalEnv.rlpEncode (.list orderedValues), enr') := by
  have hsize : (canonicalEnv.rlpEncode (.list orderedValues)).length < MAX_RECORD_SIZE := by decide +kernel
  have hdecode : canonicalEnv.rlpDecode (canonicalEnv.rlpEncode (.list orderedValues)) = .ok (.list orderedValues) :=
    canonicalEnv_canonical.decode hsize
  have hproto : ∀ key ∈ keysOf (orderedEntries.flatMap fun entry => [.bytes (utf8ToBytes entry.1), entry.2]),
      valueToUtf8 canonicalEnv key ≠ .ok "__proto__" := by
    decide +kernel
  have haccepted : (fromRLP canonicalEnv (canonicalEnv.rlpEncode (.list orderedValues))).toBool = true := by decide +kernel
  obtain ⟨enr, h⟩ := exists_of_toBool haccepted
  obtain ⟨enr', hbytes⟩ := (toBytes_fromRLP_iff canonicalEnv_canonical hdecode hproto h).2
    ⟨hsize, orderedEntries, rfl, by decide +kernel, by decide +kernel⟩
  exact ⟨enr, enr', h, hbytes⟩

/-- A record with its keys in the wrong order is accepted and not written back. -/
theorem toBytes_fromRLP_swapped :
    ¬∀ (env : Env) (encoded : Bytes) (enr : ENR), env.Canonical → fromRLP env encoded = .ok enr →
      ∃ enr', toBytes env enr none = .ok (encoded, enr') := by
  intro hall
  have h : (fromRLP canonicalEnv (Rlp.encode (.list (.bytes swappedSignature :: swappedContent)))).toBool = true := by
    decide +kernel
  obtain ⟨enr, h⟩ := exists_of_toBool h
  obtain ⟨enr', hbytes⟩ := hall canonicalEnv _ enr canonicalEnv_canonical h
  have hne : ∀ enr ∈ (fromRLP canonicalEnv (Rlp.encode (.list (.bytes swappedSignature :: swappedContent)))).toOption,
      (toBytes canonicalEnv enr none).toOption.map Prod.fst ≠
        some (Rlp.encode (.list (.bytes swappedSignature :: swappedContent))) := by
    decide +kernel
  rw [h] at hne
  refine hne enr rfl ?_
  rw [hbytes]
  rfl

end JsWaku.Enr
