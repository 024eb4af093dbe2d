import JsWaku.Utils.RelayShardCodec

/-!
# Re-encoding shard infos

What is left of a shard info that is encoded and read back: two bytes of the cluster id, and two bytes of each index of
a short list or the set of a long one. A long list with an index that has no bit in the vector is not encoded at all
(`encodeRelayShard_of_index`), every other list is (`decodeRelayShard_of_encode`), so the shard infos that come back
unchanged are the `Encodable` ones (`reencodes_iff_encodable`).

A decoder accepts index lists of every length, and the discovery protocols encode again what they decoded: such a list
is kept iff it is short or fits the bit vector (`reencodes_iff_of_decode`).
-/

namespace JsWaku

/-- The same cluster and the same set of shards. -/
def ShardInfo.Same (a b : ShardInfo) : Prop := a.clusterId = b.clusterId ∧ ∀ i, i ∈ a.shards ↔ i ∈ b.shards

theorem ShardInfo.Same.symm {a b : ShardInfo} (h : a.Same b) : b.Same a := ⟨h.1.symm, fun i => (h.2 i).symm⟩

theorem ShardInfo.Same.trans {a b c : ShardInfo} (h : a.Same b) (h' : b.Same c) : a.Same c :=
  ⟨h.1.trans h'.1, fun i => (h.2 i).trans (h'.2 i)⟩

namespace RelayShardCodec

open Endian

/-- The shard info is encoded, and its encoding is decoded to the same cluster and set of shards. -/
def Reencodes (info : ShardInfo) : Prop :=
  ∃ bytes info', encodeRelayShard info = .ok bytes ∧ decodeRelayShard bytes = .ok info' ∧ info'.Same info

/-- The numbers of the shard info fit the format that the encoder chooses. -/
def Encodable (info : ShardInfo) : Prop :=
  info.clusterId < 2 ^ 16 ∧ ∀ i ∈ info.shards, i < if info.shards.length < 64 then 2 ^ 16 else 1024

/-- What the encoding of a shard info holds. -/
def kept (info : ShardInfo) : ShardInfo where
  clusterId := info.clusterId % 2 ^ 16
  shards :=
    if info.shards.length < 64 then info.shards.map (· % 2 ^ 16)
    else (List.range 1024).filter fun i => decide (i ∈ info.shards)

/-! ## What the encoder keeps -/

theorem indexBytes_mod (shards : List ℕ) : indexBytes (shards.map (· % 2 ^ 16)) = indexBytes shards := by
  rw [indexBytes, List.flatMap_map]
  exact congrArg List.flatten (List.map_congr_left fun i _ => toBE_mod 2 i)

/-- A short list is encoded as the list of the low halves of its numbers. -/
theorem encodeRelayShard_mod {clusterId : ℕ} {shards : List ℕ} (h : shards.length < 64) :
    encodeRelayShard ⟨clusterId % 2 ^ 16, shards.map (· % 2 ^ 16)⟩ = encodeRelayShard ⟨clusterId, shards⟩ := by
  have hcluster : toBE 2 (clusterId % 2 ^ 16) = toBE 2 clusterId := toBE_mod 2 clusterId
  rw [encodeRelayShard_rs (by simpa using h), encodeRelayShard_rs h, hcluster, indexBytes_mod, List.length_map]

/-- An index past the end of the vector has no byte. -/
theorem setBit_of_le {view : Bytes} (hv : view.length = 130) {index : ℕ} (hi : 1024 ≤ index) :
    setBit view index = .error .rangeError := by
  have hnone : view[index / 8 + 2]? = none := List.getElem?_eq_none (by omega)
  simp [setBit, DataView.getUint8, hnone]

/-- The loop over a list with an index past the end of the vector throws. -/
theorem setBits_of_index {shards : List ℕ} {view : Bytes} (hv : view.length = 130) (h : ∃ i ∈ shards, 1024 ≤ i) :
    shards.foldlM setBit view = .error .rangeError := by
  induction shards generalizing view with
  | nil => obtain ⟨i, hi, -⟩ := h; cases hi
  | cons index shards ih =>
    rcases Nat.lt_or_ge index 1024 with hlt | hge
    · obtain ⟨view', hstep, hlen, -, -⟩ := setBit_spec hv hlt
      obtain ⟨i, hi, hle⟩ := h
      have hmem : i ∈ shards := (List.mem_cons.1 hi).resolve_left (by omega)
      rw [List.foldlM_cons, hstep, ok_bind, ih hlen ⟨i, hmem, hle⟩]
    · rw [List.foldlM_cons, setBit_of_le hv hge, error_bind]

/-- A long list with an index past the end of the vector is not encoded. -/
theorem encodeRelayShard_of_index {info : ShardInfo} (hlong : 64 ≤ info.shards.length)
    (h : ∃ i ∈ info.shards, 1024 ≤ i) : encodeRelayShard info = .error .rangeError := by
  obtain ⟨view, hview, hlen⟩ :
      ∃ view, DataView.setUint16 (List.replicate 130 0) 0 info.clusterId = .ok view ∧ view.length = 130 := by
    refine ⟨_, setBytes_append [] (List.replicate 130 0) (toBE 2 info.clusterId) rfl (by simp), by simp⟩
  obtain ⟨clusterId, shards⟩ := info
  simp only [encodeRelayShard, if_pos (show shards.length ≥ 64 from hlong), hview, ok_bind, setBits_of_index hlen h]

/-- Whatever the encoder returns is decoded to what it kept. -/
theorem decodeRelayShard_of_encode {info : ShardInfo} {bytes : Bytes} (h : encodeRelayShard info = .ok bytes) :
    decodeRelayShard bytes = .ok (kept info) := by
  obtain ⟨clusterId, shards⟩ := info
  have hc : clusterId % 2 ^ 16 < 2 ^ 16 := Nat.mod_lt _ (by norm_num)
  rcases Nat.lt_or_ge shards.length 64 with hshort | hlong
  · have hs : ∀ i ∈ shards.map (· % 2 ^ 16), i < 2 ^ 16 := by
      intro i hi
      obtain ⟨j, -, rfl⟩ := List.mem_map.1 hi
      exact Nat.mod_lt _ (by norm_num)
    have hlen : (shards.map (· % 2 ^ 16)).length < 64 := by simpa using hshort
    rw [← encodeRelayShard_mod hshort, encodeRelayShard_rs hlen] at h
    cases h
    rw [decodeRelayShard_rs hc hlen hs, kept, if_pos hshort]
  · by_cases hs : ∀ i ∈ shards, i < 1024
    · obtain ⟨out, henc, hlen, hhead, hbits⟩ := encodeRelayShard_rsv clusterId hlong hs
      rw [henc] at h
      cases h
      have hcluster : bytes.take 2 = toBE 2 (clusterId % 2 ^ 16) := hhead.trans (toBE_mod 2 clusterId).symm
      rw [decodeRelayShard_rsv hc hlen hcluster, kept, if_neg (Nat.not_lt.2 hlong),
        List.filter_congr fun i _ => hbits i]
    · push Not at hs
      rw [encodeRelayShard_of_index hlong hs] at h
      cases h

/-- The encoder returns unless a long list has an index past the end of the vector. -/
theorem encodeRelayShard_ok_iff (info : ShardInfo) :
    (∃ bytes, encodeRelayShard info = .ok bytes) ↔ info.shards.length < 64 ∨ ∀ i ∈ info.shards, i < 1024 := by
  obtain ⟨clusterId, shards⟩ := info
  constructor
  · rintro ⟨bytes, h⟩
    rcases Nat.lt_or_ge shards.length 64 with hshort | hlong
    · exact .inl hshort
    · refine .inr fun i hi => Nat.lt_of_not_le fun hle => ?_
      rw [encodeRelayShard_of_index hlong ⟨i, hi, hle⟩] at h
      cases h
  · rintro h
    rcases Nat.lt_or_ge shards.length 64 with hshort | hlong
    · exact ⟨_, encodeRelayShard_rs hshort⟩
    · obtain ⟨bytes, henc, -⟩ := encodeRelayShard_rsv clusterId hlong (h.resolve_left (Nat.not_lt.2 hlong))
      exact ⟨bytes, henc⟩

/-! ## What comes back unchanged -/

/-- The encoding holds all of a shard info whose numbers fit. -/
theorem same_kept_iff {info : ShardInfo} (h : info.shards.length < 64 ∨ ∀ i ∈ info.shards, i < 1024) :
    (kept info).Same info ↔ Encodable info := by
  obtain ⟨clusterId, shards⟩ := info
  have hcluster : clusterId % 2 ^ 16 = clusterId ↔ clusterId < 2 ^ 16 := Nat.mod_eq_iff_lt (by norm_num)
  refine and_congr hcluster ?_
  by_cases hshort : shards.length < 64
  · simp only [kept, if_pos hshort, List.mem_map]
    constructor
    · intro hset i hi
      obtain ⟨j, -, rfl⟩ := (hset i).2 hi
      exact Nat.mod_lt _ (by norm_num)
    · intro hlt i
      constructor
      · rintro ⟨j, hj, rfl⟩
        rwa [Nat.mod_eq_of_lt (hlt j hj)]
      · exact fun hi => ⟨i, hi, Nat.mod_eq_of_lt (hlt i hi)⟩
  · have hlt : ∀ i ∈ shards, i < 1024 := h.resolve_left hshort
    simp only [kept, if_neg hshort, List.mem_filter, List.mem_range, decide_eq_true_eq]
    exact ⟨fun _ => hlt, fun _ i => ⟨fun hi => hi.2, fun hi => ⟨hlt i hi, hi⟩⟩⟩

/-- The shard infos that are encoded and read back unchanged are those whose numbers fit the format chosen. -/
theorem reencodes_iff_encodable (info : ShardInfo) : Reencodes info ↔ Encodable info := by
  constructor
  · rintro ⟨bytes, info', henc, hdec, hsame⟩
    rw [decodeRelayShard_of_encode henc] at hdec
    cases hdec
    exact (same_kept_iff ((encodeRelayShard_ok_iff info).1 ⟨bytes, henc⟩)).1 hsame
  · intro h
    have hok : info.shards.length < 64 ∨ ∀ i ∈ info.shards, i < 1024 := by
      by_cases hshort : info.shards.length < 64
      · exact .inl hshort
      · exact .inr fun i hi => by simpa only [if_neg hshort] using h.2 i hi
    obtain ⟨bytes, henc⟩ := (encodeRelayShard_ok_iff info).2 hok
    exact ⟨bytes, kept info, henc, decodeRelayShard_of_encode henc, (same_kept_iff hok).2 h⟩

/-! ## What is decoded -/

/-- The index list holds numbers of two bytes. -/
theorem decodeIndices_lt {bytes : Bytes} {numIndices offset : ℕ} {shards : List ℕ}
    (h : decodeIndices bytes numIndices offset = .ok shards) : ∀ i ∈ shards, i < 2 ^ 16 := by
  induction numIndices generalizing offset shards with
  | zero => cases h; simp
  | succ numIndices ih =>
    rw [decodeIndices] at h
    split at h
    · cases h
    · obtain ⟨shard, hshard, h⟩ := bind_eq_ok.1 h
      obtain ⟨rest, hrest, h⟩ := bind_eq_ok.1 h
      cases h
      intro i hi
      rcases List.mem_cons.1 hi with rfl | hi
      · exact DataView.getUint16_lt hshard
      · exact ih hrest i hi

/-- The decoder reads numbers of two bytes. -/
theorem lt_of_decode {bytes : Bytes} {info : ShardInfo} (h : decodeRelayShard bytes = .ok info) :
    info.clusterId < 2 ^ 16 ∧ ∀ i ∈ info.shards, i < 2 ^ 16 := by
  unfold decodeRelayShard at h
  split at h
  · cases h
  · obtain ⟨clusterId, hcluster, h⟩ := bind_eq_ok.1 h
    split at h
    next hlen =>
      rw [decodeBits_eq hlen (List.range 1024) fun i => List.mem_range.1, ok_bind] at h
      cases h
      refine ⟨DataView.getUint16_lt hcluster, fun i hi => ?_⟩
      simp only [List.mem_filter, List.mem_range] at hi
      omega
    next =>
      obtain ⟨numIndices, -, h⟩ := bind_eq_ok.1 h
      obtain ⟨shards, hshards, h⟩ := bind_eq_ok.1 h
      cases h
      exact ⟨DataView.getUint16_lt hcluster, decodeIndices_lt hshards⟩

/-- **What a peer advertises and what can be stored of it.** A shard info that was decoded is encoded again, and read
back with the same cluster and set of shards, iff it has fewer than 64 indices or all of them fit the bit vector. -/
theorem reencodes_iff_of_decode (bytes : Bytes) (info : ShardInfo) (h : decodeRelayShard bytes = .ok info) :
    Reencodes info ↔ info.shards.length < 64 ∨ ∀ i ∈ info.shards, i < 1024 := by
  obtain ⟨hcluster, hshards⟩ := lt_of_decode h
  rw [reencodes_iff_encodable, Encodable, and_iff_right hcluster]
  by_cases hshort : info.shards.length < 64
  · simp only [hshort, if_true, true_or, iff_true]
    exact hshards
  · simp only [hshort, if_false, false_or]

/-- An index list of 64 entries, the index 1024 each time. -/
def longIndexList : Bytes := [0, 1, 64] ++ (List.replicate 64 [4, 0]).flatten

theorem decodeRelayShard_longIndexList : decodeRelayShard longIndexList = .ok ⟨1, List.replicate 64 1024⟩ := by
  decide +kernel

theorem reencodes_iff_longIndexList :
    Reencodes ⟨1, List.replicate 64 1024⟩ ↔
      (List.replicate 64 1024).length < 64 ∨ ∀ i ∈ List.replicate 64 1024, i < 1024 :=
  reencodes_iff_of_decode longIndexList _ decodeRelayShard_longIndexList

/-- The bytes are accepted and what they hold cannot be encoded. -/
theorem not_reencodes_longIndexList :
    ∃ info, decodeRelayShard longIndexList = .ok info ∧ encodeRelayShard info = .error .rangeError ∧ ¬Reencodes info := by
  have hthrows : encodeRelayShard ⟨1, List.replicate 64 1024⟩ = .error .rangeError :=
    encodeRelayShard_of_index (by simp) ⟨1024, by simp, le_rfl⟩
  refine ⟨_, decodeRelayShard_longIndexList, hthrows, ?_⟩
  rintro ⟨bytes, info', henc, -, -⟩
  rw [hthrows] at henc
  cases henc

end RelayShardCodec

end JsWaku
